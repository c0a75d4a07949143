import DocSite.Proofs.Deploy.Checkout
import DocSite.Proofs.Deploy.Versions

namespace DocSite.Deploy.Label

variable {branch version : String} {label : Label}

/-- A label is the letter v and what follows, which has slashes only if the version has some. -/
theorem text_of_eq_ok (h : Label.of branch version = .ok label) (hversion : '/' ∉ version.toList) :
    ∃ cs, label.text.toList = 'v' :: cs ∧ '/' ∉ cs := by
  unfold Label.of at h
  split at h
  · cases h
    refine ⟨Text.replace ['+'] ['.'] version.toList, by simp [ofDraft, Text.onChars], ?_⟩
    exact Text.not_mem_replace (by simp) (by decide) hversion
  · unfold ofRelease at h
    split at h
    · cases h
      exact ⟨version.toList, by simp, hversion⟩
    · rename_i major minor patch rest _ hpieces
      split at h
      · cases h
      · rename_i n _
        split at h
        · cases h
          have hpiece (piece : List Char) (hmem : piece ∈ Text.splitChar '.' version.toList) :
              '/' ∉ piece := fun hc => hversion (Text.mem_of_mem_splitChar hmem hc)
          have hmajor := hpiece major (by simp [hpieces])
          have hminor := hpiece minor (by simp [hpieces])
          have hnumber := Json.not_mem_int (c := '/') rfl (by decide) (n - 1)
          refine ⟨major ++ '.' :: minor ++ '.' :: (toString (n - 1)).toList, by simp, ?_⟩
          simpa [hmajor, hminor] using hnumber
        · cases h
    · cases h

theorem isName_of_eq_ok (h : Label.of branch version = .ok label)
    (hversion : '/' ∉ version.toList) : Path.IsName label.text ∧ label.text ≠ "latest" := by
  obtain ⟨cs, htext, hcs⟩ := text_of_eq_ok h hversion
  have hne (s : String) (hs : s.toList.head? ≠ some 'v') : label.text ≠ s := by
    rintro rfl
    simp [htext] at hs
  refine ⟨⟨?_, hne _ (by decide), hne _ (by decide), hne _ (by decide)⟩, hne _ (by decide)⟩
  simpa [htext] using hcs

end DocSite.Deploy.Label

namespace DocSite.Deploy

open Json Navigation

variable {t t' : Tree} {docs existing new copy first version : Json} {label x : String}

/-- The path of a page of a version. -/
def pagePath (label name : String) : String := "sdk/" ++ label ++ "/" ++ name

/-- A page of a version for which a tree has the file. -/
def Backed (t : Tree) (label : String) (leaf : Json) : Prop :=
  ∃ x, '/' ∉ x.toList ∧ leaf = .str (pagePath label x) ∧
    (t (Path.ofString (pagePath label x ++ ".mdx")).place).isSome

/-- A version that lists only pages of its own that are there. -/
def VersionBacked (t : Tree) (version : Json) : Prop :=
  ∀ label, label? version = some label → ∀ leaf ∈ leavesOf version, Backed t label leaf

/-- A tree that has the files of all pages in its configuration. -/
def Consistent (t : Tree) : Prop :=
  ∃ docs ∈ t.configuration?, ∀ version ∈ publishedIn docs, VersionBacked t version

/-- A label that leads nowhere but to its own directory. -/
def IsPlain (label : String) : Prop := '/' ∉ label.toList ∧ label ≠ ".."

instance (label : String) : Decidable (IsPlain label) :=
  inferInstanceAs (Decidable ('/' ∉ label.toList ∧ label ≠ ".."))

/-- A tree whose configuration has plain labels only. -/
def PlainLabels (t : Tree) : Prop :=
  ∃ docs ∈ t.configuration?, ∀ version ∈ publishedIn docs, ∀ label,
    label? version = some label → IsPlain label

theorem backed_iff {leaf : Json} : Backed t label leaf ↔
    ∃ s ∈ leaf.str?, ∃ rest ∈ Text.afterStart? (pagePath label "").toList s.toList,
      '/' ∉ rest ∧ (t (Path.ofString (s ++ ".mdx")).place).isSome := by
  have hpath (x : String) : pagePath label "" ++ x = pagePath label x := by
    simp [pagePath, String.append_assoc]
  constructor
  · rintro ⟨x, hx, rfl, hfile⟩
    refine ⟨pagePath label x, rfl, x.toList, Text.afterStart?_eq_some.mpr ?_, hx, hfile⟩
    rw [← hpath, String.toList_append]
  · rintro ⟨s, hs, rest, hrest, hslash, hfile⟩
    have hs' : s = pagePath label (String.ofList rest) := by
      rw [← hpath, ← String.toList_inj, String.toList_append, String.toList_ofList]
      exact Text.afterStart?_eq_some.mp hrest
    subst hs'
    refine ⟨String.ofList rest, by simpa using hslash, ?_, hfile⟩
    cases leaf <;> simp_all [Json.str?]

instance (t : Tree) (label : String) (leaf : Json) : Decidable (Backed t label leaf) :=
  decidable_of_iff _ backed_iff.symm

instance (t : Tree) (version : Json) : Decidable (VersionBacked t version) :=
  inferInstanceAs (Decidable (∀ label ∈ label? version, ∀ leaf ∈ leavesOf version,
    Backed t label leaf))

instance (t : Tree) : Decidable (Consistent t) :=
  inferInstanceAs (Decidable (∃ docs ∈ t.configuration?, ∀ version ∈ publishedIn docs,
    VersionBacked t version))

instance (t : Tree) : Decidable (PlainLabels t) :=
  inferInstanceAs (Decidable (∃ docs ∈ t.configuration?, ∀ version ∈ publishedIn docs,
    ∀ label ∈ label? version, IsPlain label))

theorem readable_of_configuration (h : t.configuration? = some docs) : Readable 0 docs := by
  obtain ⟨text, -, hparse⟩ := Tree.configuration?_eq_some.mp h
  exact readable_of_parse hparse

/-- The parts of the directory that a label names. -/
def directory (label : String) : List String := if label = "" ∨ label = "." then [] else [label]

theorem page_ne (x : String) {s : String} (hs : s.length < 4) : x ++ ".mdx" ≠ s := by
  rintro rfl
  rw [String.length_append] at hs
  have hlen : ".mdx".length = 4 := by decide
  omega

theorem place_page (hlabel : IsPlain label) (hx : '/' ∉ x.toList) :
    (Path.ofString (pagePath label x ++ ".mdx")).place =
      "sdk" :: (directory label ++ [x ++ ".mdx"]) := by
  have hchars : (pagePath label x ++ ".mdx").toList =
      "sdk".toList ++ '/' :: (label.toList ++ '/' :: (x ++ ".mdx").toList) := by
    simp [pagePath]
  have hsdk : (Path.ofChars "sdk".toList).parts = ["sdk"] := by decide
  have hdir : (Path.ofChars label.toList).parts = directory label :=
    Path.parts_of_not_mem hlabel.1
  have hname : (Path.ofChars (x ++ ".mdx").toList).parts = [x ++ ".mdx"] := by
    have hslash : '/' ∉ (x ++ ".mdx").toList := by simpa using hx
    refine (Path.parts_of_not_mem hslash).trans (if_neg ?_)
    exact not_or.mpr ⟨page_ne x (by decide), page_ne x (by decide)⟩
  have hparts : (Path.ofString (pagePath label x ++ ".mdx")).parts =
      "sdk" :: (directory label ++ [x ++ ".mdx"]) := by
    rw [Path.ofString, hchars, Path.parts_append, Path.parts_append, hsdk, hdir, hname]
    rfl
  rw [Path.place, hparts, ← List.cons_append, Path.placeFrom_concat (page_ne x (by decide))]
  have hdirectory : Path.placeFrom [] ("sdk" :: directory label) = "sdk" :: directory label := by
    unfold directory
    split
    · rfl
    · exact Path.placeFrom_concat hlabel.2 [] ["sdk"]
  rw [hdirectory]

theorem movedLeaf_page (hx : '/' ∉ x.toList) (label : String) :
    movedLeaf latestPages (pagesOf label) (.str (pagePath latest x)) = .str (pagePath label x) := by
  have hslash : '/' ∈ latestPages := by decide
  have hfront : "sdk/" ++ latest ++ "/" = "sdk/latest/" := by decide
  have hpath : (pagePath latest x).toList = latestPages ++ x.toList :=
    (congrArg (fun s => (s ++ x).toList) hfront).trans String.toList_append
  rw [movedLeaf, Text.onChars, hpath, Text.replace_start hslash hx, pagesOf,
    ← String.toList_append, String.ofList_toList, pagePath]

theorem settled_page (hlabel : Settled label.toList) (hx : Settled x.toList) :
    Settled (pagePath label x).toList := by
  have hchars : (pagePath label x).toList =
      "sdk".toList ++ '/' :: (label.toList ++ '/' :: x.toList) := by
    simp [pagePath]
  rw [hchars, settled_slash, settled_slash]
  exact ⟨settled_of_all (by decide), hlabel, hx⟩

/-- Pages of the latest version have texts that can be read wherever they are moved. -/
theorem settledMoves {leaves : List Json} (hlabel : Settled label.toList)
    (h : ∀ leaf ∈ leaves, Backed t latest leaf) :
    SettledMoves latestPages (pagesOf label) leaves := by
  intro s hs hsettled
  obtain ⟨x, hx, heq, -⟩ := h _ hs
  have hmoved := movedLeaf_page hx label
  cases heq
  have hchars : (pagePath latest x).toList =
      "sdk".toList ++ '/' :: (latest.toList ++ '/' :: x.toList) := by
    simp [pagePath]
  rw [hchars, settled_slash, settled_slash] at hsettled
  have hpath : Text.replace latestPages (pagesOf label) (pagePath latest x).toList =
      (pagePath label x).toList := by
    rw [← Json.str.inj hmoved, Text.onChars, String.toList_ofList]
  rw [hpath]
  exact settled_page hlabel hsettled.2.2

/-- Halves that stand for bytes are none that others follow to be joined with. -/
theorem settled_of_isEncodable {s : String} (h : Disk.isEncodable s = true) :
    Settled s.toList := by
  rw [Disk.isEncodable, List.all_eq_true] at h
  generalize s.toList = cs at h
  induction cs with
  | nil => exact .nil
  | cons c cs ih =>
    refine List.isChain_cons.mpr ⟨fun e _ hi lo hhi _ => ?_, ih fun a ha => h a (by simp [ha])⟩
    have hc := h c (by simp)
    rw [hhi] at hc
    simp only [Option.all_some, Bool.and_eq_true, decide_eq_true_eq] at hc
    have hlate : ¬ hi < 0xdc00 := by omega
    simp [Text.joined?, hlate]

theorem leavesOf_archived (version : Json) : leavesOf (archived version) = leavesOf version := by
  have hne : "groups" ≠ "icon" := by decide
  simp [leavesOf, archived, Json.field, Json.field?, Json.entries, OrderedMap.get?_set_of_ne hne]

theorem VersionBacked.of_blur {w : Json} (h : VersionBacked t version) (hw : w.blur = version.blur) :
    VersionBacked t w := by
  intro label hlabel leaf hleaf
  rw [← label?_blur, hw, label?_blur] at hlabel
  have hmem : leaf.blur ∈ (leavesOf version).map blur := by
    rw [← leavesOf_blur, ← hw, leavesOf_blur]
    exact List.mem_map_of_mem hleaf
  obtain ⟨leaf', hleaf', hblur⟩ := List.mem_map.mp hmem
  obtain ⟨x, hx, rfl, hfile⟩ := h label hlabel leaf' hleaf'
  -- A leaf that is a text is the same whatever becomes of doubles.
  have htext : leaf = .str (pagePath label x) := by
    cases leaf <;> simp_all [blur]
  exact ⟨x, hx, htext, hfile⟩

/-- A configuration that was written is read back with the versions that it had. -/
theorem configuration_of_written (hread : Readable 0 docs)
    (hwritten : t ["docs.json"] = some docs.fileText) :
    ∃ w, t.configuration? = some w ∧
      (publishedIn w).map blur = (publishedIn docs).map blur := by
  obtain ⟨w, hparse, hblur⟩ := parse_fileText hread
  refine ⟨w, Tree.configuration?_eq_some.mpr ⟨_, hwritten, hparse⟩, ?_⟩
  rw [← publishedIn_blur, hblur, publishedIn_blur]

/-- A tree that a configuration was written to is consistent if its versions are backed. -/
theorem consistent_iff_of_written (hread : Readable 0 docs)
    (hwritten : t ["docs.json"] = some docs.fileText) :
    Consistent t ↔ ∀ version ∈ publishedIn docs, VersionBacked t version := by
  obtain ⟨w, hw, hversions⟩ := configuration_of_written hread hwritten
  have htransfer {a b : Json} (hab : (publishedIn a).map blur = (publishedIn b).map blur)
      (hb : ∀ version ∈ publishedIn b, VersionBacked t version) :
      ∀ version ∈ publishedIn a, VersionBacked t version := by
    intro version hversion
    obtain ⟨version', hmem, heq⟩ := List.mem_map.mp (hab ▸ List.mem_map_of_mem hversion)
    exact (hb version' hmem).of_blur heq.symm
  constructor
  · rintro ⟨w', hw', hbacked⟩
    cases hw.symm.trans hw'
    exact htransfer hversions.symm hbacked
  · intro hbacked
    exact ⟨w, hw, htransfer hversions hbacked⟩

theorem plainLabels_of_written (hread : Readable 0 docs)
    (hwritten : t ["docs.json"] = some docs.fileText)
    (hplain : ∀ version ∈ publishedIn docs, ∀ label, label? version = some label → IsPlain label) :
    PlainLabels t := by
  obtain ⟨w, hw, hversions⟩ := configuration_of_written hread hwritten
  refine ⟨w, hw, fun version hversion label hlabel => ?_⟩
  obtain ⟨version', hmem, heq⟩ := List.mem_map.mp (hversions ▸ List.mem_map_of_mem hversion)
  rw [← label?_blur, ← heq, label?_blur] at hlabel
  exact hplain version' hmem label hlabel

section Assembled

variable {d : Deployment} {site branch result : Tree}

/-- The latest version has its pages in the assembled tree. -/
theorem backed_latest (h : d.Assembled label docs site branch result)
    (hfirst : label? first = some latest) (hbacked : VersionBacked site first) :
    VersionBacked result first := by
  have hplain : IsPlain latest := by decide
  intro l hl leaf hleaf
  cases hfirst.symm.trans hl
  obtain ⟨x, hx, rfl, hfile⟩ := hbacked _ hfirst leaf hleaf
  refine ⟨x, hx, rfl, ?_⟩
  rw [place_page hplain hx] at hfile ⊢
  exact h.built latest (by simp [latest]) _ hfile

/-- The labelled version has the same pages, moved. -/
theorem backed_labelled (h : d.Assembled label docs site branch result) (hname : Path.IsName label)
    (hfirst : label? first = some latest) (hbacked : VersionBacked site first)
    (hcopy : relabelled label first = .ok copy) : VersionBacked result copy := by
  have hplain : IsPlain latest := by decide
  intro l hl leaf hleaf
  cases (label?_relabelled hcopy).symm.trans hl
  obtain ⟨hslash, hempty, hpoint, hup⟩ := hname
  rw [leavesOf_relabelled hcopy] at hleaf
  obtain ⟨leaf', hleaf', rfl⟩ := List.mem_map.mp hleaf
  obtain ⟨x, hx, rfl, hfile⟩ := hbacked _ hfirst leaf' hleaf'
  refine ⟨x, hx, movedLeaf_page hx label, ?_⟩
  have hdir : directory label = [label] := by simp [directory, hempty, hpoint]
  rw [place_page hplain hx] at hfile
  rw [place_page ⟨hslash, hup⟩ hx, hdir]
  exact h.built label (by simp) _ hfile

/-- A version with a plain label of its own keeps its pages. -/
theorem backed_archived (h : d.Assembled label docs site branch result) (hdraft : d.isDraft = false)
    {l : String} (hl : label? version = some l) (hplain : IsPlain l) (hlatest : l ≠ latest)
    (hother : l ≠ label) (hbacked : VersionBacked branch version) :
    VersionBacked result (archived version) := by
  intro l' hl' leaf hleaf
  rw [label?_archived, hl] at hl'
  cases hl'
  rw [leavesOf_archived] at hleaf
  obtain ⟨x, hx, rfl, hfile⟩ := hbacked l hl leaf hleaf
  refine ⟨x, hx, rfl, ?_⟩
  rw [place_page hplain hx] at hfile ⊢
  refine h.kept hdraft _ (fun name hname r hr => ?_) hfile
  unfold directory at hr
  split at hr
  · simpa using (List.cons.inj hr).2.symm
  · obtain rfl : l = name := (List.cons.inj hr).1
    rcases List.mem_cons.mp hname with rfl | hname
    · exact absurd rfl hlatest
    · exact absurd (List.mem_singleton.mp hname) hother

theorem settled_label (h : d.Assembled label docs site branch result) : Settled label.toList :=
  settled_of_isEncodable (Disk.isEncodable_of_checkPlace h.place label (by simp))

theorem readable_of_configured (h : d.Assembled label docs site branch result)
    (hsite : Consistent site) (hexisting : branch.configuration? = some existing)
    (hnew : site.configuration? = some new) (hconfigured : d.Configured label existing new docs) :
    Readable 0 docs := by
  obtain ⟨new', hnew', hbuilt⟩ := hsite
  cases hnew.symm.trans hnew'
  obtain ⟨labelled, hadd, hdocs⟩ := hconfigured
  obtain ⟨first, copy, hfirst, hlatest, hcopy, -, hread⟩ := published_addLabelled hadd
  have hlabelled : Readable 0 labelled := by
    obtain ⟨hversion, hwritable⟩ := hread (readable_of_configuration hnew)
    exact hwritable (readable_relabelled hcopy hversion (settled_label h)
      (settledMoves (settled_label h) (hbuilt first (by simp [hfirst]) _ hlatest)))
  rcases hdocs with ⟨-, rfl⟩ | ⟨-, existing', hmerge⟩
  · exact hlabelled
  · exact (published_mergeVersions hmerge).2 (readable_of_configuration hexisting) hlabelled

/-- The versions of a deployment are the two of the built site, and those of the branch with
other labels unless this is a draft. -/
theorem published_of_configured (hconfigured : d.Configured label existing new docs) :
    ∃ first copy, publishedIn new = [first] ∧ label? first = some latest ∧
      relabelled label first = .ok copy ∧ ∀ e ∈ publishedIn docs, e = first ∨ e = copy ∨
        d.isDraft = false ∧ ∃ x ∈ publishedIn existing, ∃ l, label? x = some l ∧ l ≠ latest ∧
          l ≠ label ∧ e = archived x := by
  obtain ⟨labelled, hadd, hdocs⟩ := hconfigured
  obtain ⟨first, copy, hfirst, hlatest, hcopy, hpublished, -⟩ := published_addLabelled hadd
  refine ⟨first, copy, hfirst, hlatest, hcopy, fun e he => ?_⟩
  have hnews {e : Json} (he : e ∈ publishedIn labelled) : e = first ∨ e = copy := by
    simpa [hpublished] using he
  rcases hdocs with ⟨-, rfl⟩ | ⟨hdraft, existing', hmerge⟩
  · rcases hnews he with rfl | rfl
    · exact .inl rfl
    · exact .inr (.inl rfl)
  · have hmerged := (published_mergeVersions hmerge).1
    obtain ⟨l, hlabel⟩ := hmerged.labels e he
    obtain hin | ⟨⟨x, hx, hl, rfl⟩, hothers⟩ := hmerged.cases he hlabel
    · rcases hnews hin with rfl | rfl
      · exact .inl rfl
      · exact .inr (.inl rfl)
    · refine .inr (.inr ⟨hdraft, x, hx, l, hl, ?_, ?_, rfl⟩)
      · rintro rfl
        exact hothers first (by simp [hpublished]) hlatest
      · rintro rfl
        exact hothers copy (by simp [hpublished]) (label?_relabelled hcopy)

/-- A version of the branch stays listed if no new one has its label. -/
theorem mem_published_of_configured (hconfigured : d.Configured label existing new docs)
    (hdraft : d.isDraft = false) {l : String} (hlast : lastLabelled l (publishedIn existing) =
      some version) (hne : l ≠ latest) (hother : l ≠ label) : archived version ∈ publishedIn docs := by
  obtain ⟨labelled, hadd, ⟨hdraft', -⟩ | ⟨-, existing', hmerge⟩⟩ := hconfigured
  · simp [hdraft] at hdraft'
  · obtain ⟨first, copy, -, hlatest, hcopy, hpublished, -⟩ := published_addLabelled hadd
    have hentries := (published_mergeVersions hmerge).1.entries l
    have hnone : lastLabelled l (publishedIn labelled) = none := by
      rw [hpublished]
      simp [lastLabelled, isLabelled, hlatest, label?_relabelled hcopy, Ne.symm hne,
        Ne.symm hother]
    rw [hnone, hlast] at hentries
    have hmem : archived version ∈ (publishedIn docs).filter (isLabelled l) := by
      rw [hentries]
      exact List.mem_singleton_self _
    exact (List.mem_filter.mp hmem).1

theorem consistent_of_assembled (h : d.Assembled label docs site branch result)
    (hname : Path.IsName label) (hsite : Consistent site) (hbranch : Consistent branch)
    (hlabels : PlainLabels branch) (hexisting : branch.configuration? = some existing)
    (hnew : site.configuration? = some new) (hconfigured : d.Configured label existing new docs) :
    Consistent result ∧ PlainLabels result := by
  have hread := readable_of_configured h hsite hexisting hnew hconfigured
  obtain ⟨existing', hexisting', hold⟩ := hbranch
  cases hexisting.symm.trans hexisting'
  obtain ⟨existing', hexisting', holdPlain⟩ := hlabels
  cases hexisting.symm.trans hexisting'
  obtain ⟨new', hnew', hbuilt⟩ := hsite
  cases hnew.symm.trans hnew'
  obtain ⟨first, copy, hfirst, hlatest, hcopy, hpublished⟩ := published_of_configured hconfigured
  have hbacked := hbuilt first (by simp [hfirst])
  refine ⟨(consistent_iff_of_written hread h.written).mpr fun e he => ?_,
    plainLabels_of_written hread h.written fun e he l hl => ?_⟩
  · rcases hpublished e he with rfl | rfl | ⟨hdraft, x, hx, l, hl, hne, hother, rfl⟩
    · exact backed_latest h hlatest hbacked
    · exact backed_labelled h hname hlatest hbacked hcopy
    · exact backed_archived h hdraft hl (holdPlain x hx l hl) hne hother (hold x hx)
  · rcases hpublished e he with rfl | rfl | ⟨hdraft, x, hx, -, -, -, -, rfl⟩
    · cases hlatest.symm.trans hl
      decide
    · cases (label?_relabelled hcopy).symm.trans hl
      exact ⟨hname.1, hname.2.2.2⟩
    · rw [label?_archived] at hl
      exact holdPlain x hx l hl

end Assembled

/-- What a deployment starts from: a branch with a given tree, a consistent site, a version that
can name a directory, and a checkout of its own in which nothing lies yet. -/
structure Deployment.Prepared (d : Deployment) (version : String) (t : Tree) (disk : Disk) :
    Prop where
  branch : Tree.ofFiles (d.shell.branch d.branch) = t
  site : Consistent (disk.tree d.built.place)
  version : '/' ∉ version.toList
  free : ∀ parts, disk.fileAt (d.checkout.place ++ parts) = none
  outside : ¬ d.built.place <+: d.checkout.place

theorem Deployment.Prepared.apart {d : Deployment} {version : String} {disk : Disk}
    (h : d.Prepared version t disk) : d.Apart := by
  refine ⟨?_, h.outside⟩
  rintro ⟨rest, hrest⟩
  obtain ⟨docs, hdocs, -⟩ := h.site
  obtain ⟨text, htext, -⟩ := Tree.configuration?_eq_some.mp hdocs
  rw [Disk.tree, ← hrest, List.append_assoc, h.free] at htext
  cases htext

theorem assembled_of_writes {d : Deployment} {version : String} {k k' : Desk}
    (hprepared : d.Prepared version t k.disk) (h : d.Writes version k k') :
    ∃ label existing new docs, Label.of d.branch version = .ok label ∧
      Path.IsName label.text ∧ t.configuration? = some existing ∧
      (k.disk.tree d.built.place).configuration? = some new ∧
      d.Configured label.text existing new docs ∧
      d.Assembled label.text docs (k.disk.tree d.built.place) t
        (k'.disk.tree d.checkout.place) := by
  obtain ⟨label, commit, k₀, hannounce, hassemble⟩ := h
  obtain ⟨hlabel, hdisk⟩ := Deployment.announce_eq_ok hannounce
  obtain ⟨hname, hne⟩ := Label.isName_of_eq_ok hlabel hprepared.version
  obtain ⟨existing, new, docs, hexisting, hnew, hconfigured, hassembled⟩ :=
    Deployment.assemble_eq_ok hprepared.apart (by rw [hdisk]; exact hprepared.free) hname hne
      hassemble
  rw [hdisk] at hnew hassembled
  rw [hprepared.branch] at hexisting hassembled
  exact ⟨label, existing, new, docs, hlabel, hname, hexisting, hnew, hconfigured, hassembled⟩

theorem consistent_of_writes {d : Deployment} {version : String} {k k' : Desk}
    (ht : Consistent t) (hplain : PlainLabels t) (hprepared : d.Prepared version t k.disk)
    (h : d.Writes version k k') :
    Consistent (k'.disk.tree d.checkout.place) ∧ PlainLabels (k'.disk.tree d.checkout.place) := by
  obtain ⟨label, existing, new, docs, -, hname, hexisting, hnew, hconfigured, hassembled⟩ :=
    assembled_of_writes hprepared h
  exact consistent_of_assembled hassembled hname hprepared.site ht hplain hexisting hnew
    hconfigured

/-- A version of the branch that stays listed while one of its pages is gone makes the tree
inconsistent. -/
theorem not_consistent_of_writes {d : Deployment} {number s : String} {k k' : Desk}
    (hprepared : d.Prepared number t k.disk) (h : d.Writes number k k') (hdraft : d.isDraft = false)
    {l : String} (hl : l ≠ latest ∧ ∀ label, Label.of d.branch number = .ok label → l ≠ label.text)
    (hlisted : ∃ existing ∈ t.configuration?, ∃ version ∈ lastLabelled l (publishedIn existing),
      ∃ leaf ∈ leavesOf version, leaf.str? = some s)
    (hgone : k'.disk.tree d.checkout.place (Path.ofString (s ++ ".mdx")).place = none) :
    ¬ Consistent (k'.disk.tree d.checkout.place) := by
  obtain ⟨label, existing, new, docs, hlabel, -, hexisting, hnew, hconfigured, hassembled⟩ :=
    assembled_of_writes hprepared h
  obtain ⟨existing', hexisting', version, hversion, leaf, hleaf, hs⟩ := hlisted
  cases hexisting.symm.trans hexisting'
  have hread := readable_of_configured hassembled hprepared.site hexisting hnew hconfigured
  have hmem := mem_published_of_configured hconfigured hdraft hversion hl.1 (hl.2 label hlabel)
  rw [consistent_iff_of_written hread hassembled.written]
  intro hbacked
  have hlabelled : label? (archived version) = some l := by
    rw [label?_archived]
    simpa [isLabelled] using (List.mem_filter.mp (List.mem_of_getLast? hversion)).2
  obtain ⟨x, -, rfl, hfile⟩ := hbacked _ hmem l hlabelled leaf (by rwa [leavesOf_archived])
  cases hs
  rw [hgone] at hfile
  cases hfile

/-- The trees that a branch comes to by deployments that succeed, each of which fetches what the
one before it has left. -/
inductive Deployed (t : Tree) : Tree → Prop
  | start : Deployed t t
  | step {t₁ : Tree} {d : Deployment} {version : String} {k k' : Desk} (h : Deployed t t₁)
      (hprepared : d.Prepared version t₁ k.disk) (hrun : (d.run version).result k = (.ok (), k')) :
      Deployed t (k'.disk.tree d.checkout.place)

/-- A deployment that has come as far as the new configuration leaves a consistent tree, whatever
comes of the run afterwards. So does every sequence of deployments. -/
theorem deployment_stays_consistent {t : Tree} (ht : Consistent t) (hplain : PlainLabels t) :
    (∀ d version k k', Deployment.Prepared d version t k.disk → d.Writes version k k' →
      Consistent (k'.disk.tree d.checkout.place) ∧ PlainLabels (k'.disk.tree d.checkout.place) ∧
        ((d.run version).result k).2.disk = k'.disk) ∧
    ∀ t', Deployed t t' → Consistent t' ∧ PlainLabels t' := by
  constructor
  · intro d version k k' hprepared hwrites
    obtain ⟨hconsistent, hlabels⟩ := consistent_of_writes ht hplain hprepared hwrites
    exact ⟨hconsistent, hlabels, hwrites.disk_run⟩
  · intro t' h
    induction h with
    | start => exact ⟨ht, hplain⟩
    | @step t₁ d version k k' h hprepared hrun ih =>
      obtain ⟨k₁, hwrites⟩ := Deployment.writes_of_run hrun
      have hdisk : k'.disk = k₁.disk := by
        rw [← hwrites.disk_run, hrun]
      rw [hdisk]
      exact consistent_of_writes ih.1 ih.2 hprepared hwrites

/-- The files of a version with one page, which is all that a site or a branch has. -/
def onePage (label : String) : List (List String × String) :=
  [(["docs.json"], "\x7b\"navigation\":\x7b\"tabs\":[\x7b\"tab\":\"Pixeltable SDK\"," ++
      "\"dropdowns\":[\x7b\"dropdown\":\"" ++ label ++ "\",\"groups\":[\x7b\"pages\":[\"" ++
      pagePath label "p" ++ "\"]\x7d]\x7d]\x7d]\x7d\x7d"),
    ((Path.ofString (pagePath label "p" ++ ".mdx")).place, "")]

/-- The deployment of such a site to a branch that has one version. -/
def onePageDeployment (label : String) : Deployment where
  shell := ⟨fun _ => ⟨0, "", ""⟩, fun _ => onePage label, .ended "" ""⟩
  repository := ⟨"/", ["repository"]⟩
  scratch := ⟨"/", ["scratch"]⟩
  branch := "stage"

def onePageDesk : Desk :=
  .on (Shell.layOut ["repository", "target", "docs"] .empty (onePage "latest"))

theorem consistent_onePageDesk :
    Consistent (onePageDesk.disk.tree ["repository", "target", "docs"]) := by
  decide +kernel

theorem prepared_onePage (label : String) :
    (onePageDeployment label).Prepared "1.2.3" (Tree.ofFiles (onePage label)) onePageDesk.disk := by
  have hbuilt : (onePageDeployment label).built.place = ["repository", "target", "docs"] := rfl
  have hcheckout : (onePageDeployment label).checkout.place = ["scratch", "pixeltable-docs-www"] :=
    rfl
  refine ⟨rfl, ?_, by decide, fun parts => ?_, ?_⟩
  · rw [hbuilt]
    exact consistent_onePageDesk
  · rw [hcheckout]
    refine (Shell.fileAt_layOut_of_not_prefix ?_).trans ?_
    · simp
    · simp [Disk.fileAt, Disk.find?, Disk.empty, Disk.lookup]
  · rw [hbuilt, hcheckout]
    simp

theorem run_of_isOk {d : Deployment} {version : String} {k : Desk}
    (h : ((d.run version).result k).1.isOk = true) :
    (d.run version).result k = (.ok (), ((d.run version).result k).2) := by
  rcases hrun : (d.run version).result k with ⟨r, k'⟩
  rw [hrun] at h
  cases r with
  | error halt => cases h
  | ok u => rfl

theorem deployment_stays_consistent_onePage :
    ∃ t', Deployed (Tree.ofFiles (onePage "v1.0.0")) t' ∧ Consistent t' ∧ PlainLabels t' := by
  have hstart : Consistent (Tree.ofFiles (onePage "v1.0.0")) ∧
      PlainLabels (Tree.ofFiles (onePage "v1.0.0")) := by decide +kernel
  have hok : (((onePageDeployment "v1.0.0").run "1.2.3").result onePageDesk).1.isOk = true := by
    decide +kernel
  have hdeployed := Deployed.start.step (prepared_onePage "v1.0.0") (run_of_isOk hok)
  exact ⟨_, hdeployed, (deployment_stays_consistent hstart.1 hstart.2).2 _ hdeployed⟩

/-- A consistent branch with one page that a deployment which succeeds makes inconsistent. -/
def LosesPage (label : String) : Prop :=
  ∃ d version k k', Consistent (Tree.ofFiles (onePage label)) ∧
    Deployment.Prepared d version (Tree.ofFiles (onePage label)) k.disk ∧
    (d.run version).result k = (.ok (), k') ∧ ¬ Consistent (k'.disk.tree d.checkout.place)

theorem losesPage {label : String} (hne : label ≠ latest ∧ label ≠ "v1.2.3")
    (hstart : Consistent (Tree.ofFiles (onePage label)) ∧
      ∃ existing ∈ (Tree.ofFiles (onePage label)).configuration?,
        ∃ version ∈ lastLabelled label (publishedIn existing),
          ∃ leaf ∈ leavesOf version, leaf.str? = some (pagePath label "p"))
    (hend : (((onePageDeployment label).run "1.2.3").result onePageDesk).1.isOk = true ∧
      (((onePageDeployment label).run "1.2.3").result onePageDesk).2.disk.tree
        (onePageDeployment label).checkout.place
        (Path.ofString (pagePath label "p" ++ ".mdx")).place = none) : LosesPage label := by
  obtain ⟨hok, hgone⟩ := hend
  have hrelease : Label.of "stage" "1.2.3" = .ok ⟨"v1.2.3", false⟩ := by rfl
  have hrun := run_of_isOk hok
  obtain ⟨k₁, hwrites⟩ := Deployment.writes_of_run hrun
  have hdisk := hwrites.disk_run
  refine ⟨_, _, _, _, hstart.1, prepared_onePage label, hrun, ?_⟩
  rw [hdisk] at hgone ⊢
  refine not_consistent_of_writes (prepared_onePage label) hwrites rfl ⟨hne.1, ?_⟩ hstart.2 hgone
  intro l hl
  cases hrelease.symm.trans hl
  exact hne.2

/-- Labels that lead into another version or out of the reference: the page of such a version is
gone after a deployment, and yet it is listed. -/
theorem deployment_loses_page : LosesPage "latest/old" ∧ LosesPage ".." :=
  ⟨losesPage (by decide) (by decide +kernel) (by decide +kernel),
    losesPage (by decide) (by decide +kernel) (by decide +kernel)⟩

end DocSite.Deploy
