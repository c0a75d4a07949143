import DocSite.Deploy.Run
import DocSite.Proofs.Disk
import DocSite.Proofs.Job
import DocSite.Proofs.Path

namespace DocSite

/-- The configuration in a tree, if there is one that can be read. -/
def Tree.configuration? (t : Tree) : Option Json :=
  (t ["docs.json"]).bind fun text => (Json.parseChars (Text.plainNewlines text.toList)).toOption

theorem Tree.configuration?_eq_some {t : Tree} {docs : Json} :
    t.configuration? = some docs ↔ ∃ text, t ["docs.json"] = some text ∧
      Json.parseChars (Text.plainNewlines text.toList) = .ok docs := by
  have htoOption (r : Except Fault Json) : r.toOption = some docs ↔ r = .ok docs := by
    cases r <;> simp [Except.toOption]
  simp only [configuration?, Option.bind_eq_some_iff, htoOption]

namespace Shell

/-- The files of a branch put below a place. -/
def layOut (place : List String) (disk : Disk) (files : List (List String × String)) : Disk :=
  files.foldl (fun d (parts, text) => d.addFile (place ++ parts) text) disk

variable {place q parts : List String} {disk : Disk} {files : List (List String × String)}

theorem fileAt_layOut (hplace : place ≠ []) :
    (layOut place disk files).fileAt (place ++ parts) =
      (Tree.ofFiles files parts).or (disk.fileAt (place ++ parts)) := by
  have hne : place ++ parts ≠ [] := by simp [hplace]
  induction files generalizing disk with
  | nil => rfl
  | cons f files ih =>
    have hstep : layOut place disk (f :: files) =
        layOut place (disk.addFile (place ++ f.1) f.2) files := rfl
    rw [hstep, ih, Disk.fileAt_addFile hne, Tree.ofFiles_cons, Option.or_assoc]
    by_cases h : f.1 = parts <;> simp [h]

theorem fileAt_layOut_of_not_prefix (h : ¬ place <+: q) :
    (layOut place disk files).fileAt q = disk.fileAt q := by
  by_cases hq : q = []
  · rw [hq, Disk.fileAt_nil, Disk.fileAt_nil]
  · induction files generalizing disk with
    | nil => rfl
    | cons f files ih =>
      have hstep : layOut place disk (f :: files) =
          layOut place (disk.addFile (place ++ f.1) f.2) files := rfl
      rw [hstep, ih, Disk.fileAt_addFile hq, if_neg]
      rintro rfl
      exact h (List.prefix_append _ _)

theorem clone_eq_ok {sh : Shell} {branch : String} {target : Path} {k k' : Desk} {o : Outcome}
    (h : (sh.clone branch target).result k = (.ok o, k')) (hcode : o.code = 0) :
    k'.disk = layOut target.place (k.disk.fill target.place) (sh.branch branch) := by
  unfold clone at h
  obtain ⟨o', k₁, hcall, h⟩ := Job.bind_eq_ok.mp h
  have hdisk : k₁.disk = k.disk := (.call sh _ : Job.KeepsDisk _).eq hcall
  split at h
  · obtain ⟨disk, k₂, hget, h⟩ := Job.bind_eq_ok.mp h
    cases hget
    obtain ⟨u, k₃, hset, h⟩ := Job.bind_eq_ok.mp h
    cases hset
    cases h
    rw [← hdisk]
    rfl
  · rename_i hne
    cases h
    exact absurd hcode hne

end Shell

namespace Deploy.Deployment

variable {d : Deployment} {k k' : Desk} {q place : List String} {label name : String}

theorem checkout_place : d.checkout.place = d.scratch.place ++ ["pixeltable-docs-www"] :=
  Path.place_child _ (by decide)

theorem checkout_place_ne_nil : d.checkout.place ≠ [] := by
  simp [checkout_place]

theorem fileAt_clear {disk : Disk}
    (h : ∀ name, d.keeps name = false → ¬ d.checkout.place ++ [name] <+: q) :
    (d.clear disk).fileAt q = disk.fileAt q := by
  have hnames (names : List String) (hall : ∀ name ∈ names, d.keeps name = false) (disk : Disk) :
      (names.foldl (fun disk name => disk.remove (d.checkout.place ++ [name])) disk).fileAt q =
        disk.fileAt q := by
    induction names generalizing disk with
    | nil => rfl
    | cons name names ih =>
      rw [List.foldl_cons, ih fun n hn => hall n (List.mem_cons_of_mem _ hn),
        Disk.fileAt_remove (h name (hall name List.mem_cons_self))]
  apply hnames
  intro name hname
  simpa using (List.mem_filter.mp hname).2

/-- Pages that are copied take no file away. -/
theorem copyPages_eq_ok {names : List String} {u : Unit}
    (h : (d.copyPages names).result k = (.ok u, k')) (hq : (k.disk.fileAt q).isSome) :
    (k'.disk.fileAt q).isSome := by
  induction names generalizing k with
  | nil =>
    cases h
    exact hq
  | cons name names ih =>
    unfold copyPages at h
    obtain ⟨disk, k₁, hget, h⟩ := Job.bind_eq_ok.mp h
    cases hget
    simp only at h
    split at h
    · exact absurd h Job.fail_ne_ok
    · obtain ⟨u', k₂, hset, h⟩ := Job.bind_eq_ok.mp h
      cases hset
      exact ih h (Disk.isSome_fileAt_copy hq _ _)

theorem dropReference_eq_ok {target : Path} {u : Unit}
    (h : (dropReference target).result k = (.ok u, k')) :
    k.disk.fileAt target.place = none ∧
      (k'.disk = k.disk ∨ k'.disk = k.disk.remove target.place) := by
  unfold dropReference at h
  obtain ⟨disk, k₁, hget, h⟩ := Job.bind_eq_ok.mp h
  cases hget
  split at h
  · exact absurd h Job.fail_ne_ok
  · rename_i hdir
    cases h
    exact ⟨by simp [Disk.fileAt, hdir], .inr rfl⟩
  · rename_i hnone
    cases h
    exact ⟨by simp [Disk.fileAt, hnone], .inl rfl⟩

theorem layReference_eq_ok {target : Path} {u : Unit}
    (h : (d.layReference target).result k = (.ok u, k')) :
    k.disk.find? (d.built.place ++ ["sdk", "latest"]) = some .dir ∧
      Disk.checkPlace target.place = .ok () ∧
      k'.disk = k.disk.copy (d.built.place ++ ["sdk", "latest"]) target.place := by
  have hsource : (d.built / "sdk" / "latest").place = d.built.place ++ ["sdk", "latest"] := by
    rw [Path.place_child _ (by decide), Path.place_child _ (by decide)]
    simp
  unfold layReference at h
  rw [hsource] at h
  obtain ⟨disk, k₁, hget, h⟩ := Job.bind_eq_ok.mp h
  cases hget
  split at h
  · rename_i hdir
    obtain ⟨v, k₂, hcheck, h⟩ := Job.bind_eq_ok.mp h
    obtain ⟨hplace, rfl⟩ := Job.ofExcept_eq_ok.mp hcheck
    cases h
    exact ⟨hdir, hplace, rfl⟩
  · exact absurd h Job.fail_ne_ok
  · exact absurd h Job.fail_ne_ok

/-- The built site and the checkout are no parts of each other. -/
def Apart (d : Deployment) : Prop :=
  ¬ d.checkout.place <+: d.built.place ∧ ¬ d.built.place <+: d.checkout.place

theorem Apart.not_prefix (h : d.Apart) (q : List String) :
    ¬ d.checkout.place <+: d.built.place ++ q := by
  intro hprefix
  rcases List.prefix_or_prefix_of_prefix hprefix (List.prefix_append d.built.place q) with hp | hp
  · exact h.1 hp
  · exact h.2 hp

/-- What a copy of the reference leaves: all built pages below a name, and what was elsewhere. -/
structure ReferenceCopied (d : Deployment) (name : String) (disk disk' : Disk) : Prop where
  built : ∀ q, q ≠ [] → (disk.fileAt (d.built.place ++ ["sdk", "latest"] ++ q)).isSome →
    (disk'.fileAt (d.checkout.place ++ ["sdk", name] ++ q)).isSome
  elsewhere : ∀ q, (∀ r, q = d.checkout.place ++ ["sdk", name] ++ r → r = []) →
    (disk.fileAt q).isSome → (disk'.fileAt q).isSome
  place : Disk.checkPlace (d.checkout.place ++ ["sdk", name]) = .ok ()

theorem copyReference_eq_ok (hapart : d.Apart) (hname : Path.IsName name) {u : Unit}
    (h : (d.copyReference name).result k = (.ok u, k')) :
    ReferenceCopied d name k.disk k'.disk := by
  have htarget : (d.checkout / "sdk" / name).place = d.checkout.place ++ ["sdk", name] := by
    rw [Path.place_child _ hname, Path.place_child _ (by decide)]
    simp
  unfold copyReference at h
  obtain ⟨_, k₁, hprint, h⟩ := Job.bind_eq_ok.mp h
  obtain ⟨_, k₂, hnames, h⟩ := Job.bind_eq_ok.mp h
  obtain ⟨_, k₃, hdrop, h⟩ := Job.bind_eq_ok.mp h
  have hk : k₂.disk = k.disk :=
    ((.ofExcept _ : Job.KeepsDisk _).eq hnames).trans ((.print _ : Job.KeepsDisk _).eq hprint)
  obtain ⟨hfree, hdropped⟩ := dropReference_eq_ok hdrop
  obtain ⟨hdir, hplace, hcopy⟩ := layReference_eq_ok h
  rw [hk, htarget] at hfree hdropped
  rw [htarget] at hplace hcopy
  -- A file that does not lie below the target outlasts its removal, for the target is no file.
  have hkept (q : List String) (hq : ∀ r, q = d.checkout.place ++ ["sdk", name] ++ r → r = [])
      (hsome : (k.disk.fileAt q).isSome) : (k₃.disk.fileAt q).isSome := by
    rcases hdropped with hsame | hremoved
    · rwa [hsame]
    · rw [hremoved, Disk.fileAt_remove]
      · exact hsome
      · rintro ⟨r, rfl⟩
        rw [hq r rfl, List.append_nil, hfree] at hsome
        cases hsome
  refine ⟨fun q hne hsome => ?_, fun q hq hsome => ?_, hplace⟩
  · rw [hcopy]
    refine Disk.isSome_fileAt_copied hdir hne (hkept _ (fun r hr => ?_) hsome)
    rw [List.append_assoc, List.append_assoc] at hr
    exact absurd ⟨["sdk", name] ++ r, hr.symm⟩ (hapart.not_prefix (["sdk", "latest"] ++ q))
  · rw [hcopy]
    exact Disk.isSome_fileAt_copy (hkept q hq hsome) _ _

theorem change_makeDir_eq_ok {u : Unit} (h : (Job.change (·.makeDir place)).result k = (.ok u, k')) :
    k'.disk = k.disk.fill place := by
  obtain ⟨disk, hdisk, rfl⟩ := Job.change_eq_ok.mp h
  exact Disk.makeDir_eq_ok hdisk

/-- What the files of the built site and of the branch come to: the built reference stands below
two names, and the older references stay unless this is a draft. -/
structure FilesLaid (d : Deployment) (label : String) (disk disk' : Disk) : Prop where
  built : ∀ name ∈ ["latest", label], ∀ x,
    (disk.fileAt (d.built.place ++ ["sdk", "latest", x])).isSome →
      (disk'.fileAt (d.checkout.place ++ ["sdk", name, x])).isSome
  kept : d.isDraft = false → ∀ q, (∀ name ∈ ["latest", label], ∀ r, q = name :: r → r = []) →
    (disk.fileAt (d.checkout.place ++ "sdk" :: q)).isSome →
      (disk'.fileAt (d.checkout.place ++ "sdk" :: q)).isSome
  place : Disk.checkPlace (d.checkout.place ++ ["sdk", label]) = .ok ()

theorem layFiles_eq_ok (hapart : d.Apart) (hlabel : Path.IsName label) (hne : label ≠ "latest")
    {u : Unit} (h : (d.layFiles label).result k = (.ok u, k')) :
    FilesLaid d label k.disk k'.disk := by
  unfold layFiles at h
  obtain ⟨_, k₁, hget, h⟩ := Job.bind_eq_ok.mp h
  cases hget
  obtain ⟨_, k₂, hset, h⟩ := Job.bind_eq_ok.mp h
  cases hset
  obtain ⟨_, k₃, hprint, h⟩ := Job.bind_eq_ok.mp h
  obtain ⟨_, k₄, hget, h⟩ := Job.bind_eq_ok.mp h
  cases hget
  obtain ⟨_, k₅, hpages, h⟩ := Job.bind_eq_ok.mp h
  obtain ⟨_, k₆, hdir, h⟩ := Job.bind_eq_ok.mp h
  obtain ⟨_, k₇, hlatest, h⟩ := Job.bind_eq_ok.mp h
  have hcleared : k₃.disk = d.clear k.disk := (.print _ : Job.KeepsDisk _).eq hprint
  have hbefore (q : List String) (hq : ((d.clear k.disk).fileAt q).isSome) :
      (k₆.disk.fileAt q).isSome := by
    rw [change_makeDir_eq_ok hdir, Disk.fileAt_fill]
    exact copyPages_eq_ok hpages (by rwa [hcleared])
  obtain ⟨hbuilt₁, hkept₁, -⟩ := copyReference_eq_ok hapart (by decide) hlatest
  obtain ⟨hbuilt₂, hkept₂, hplace⟩ := copyReference_eq_ok hapart hlabel h
  have hsource (q : List String) (hq : (k.disk.fileAt (d.built.place ++ q)).isSome) :
      (k₆.disk.fileAt (d.built.place ++ q)).isSome := by
    refine hbefore _ ?_
    rw [fileAt_clear]
    · exact hq
    · intro name _ hprefix
      exact hapart.not_prefix q ((List.prefix_append _ _).trans hprefix)
  refine ⟨?_, fun hdraft q hq hsome => ?_, hplace⟩
  · refine List.forall_mem_cons.mpr ⟨fun x hx => ?_, List.forall_mem_singleton.mpr fun x hx => ?_⟩
    · -- the latest pages are laid first, and stay when the labelled ones are laid beside them
      have hfirst := hbuilt₁ [x] (by simp) (by simpa using hsource _ hx)
      refine hkept₂ _ (fun r hr => ?_) (by simpa using hfirst)
      simp [Ne.symm hne] at hr
    · -- the built pages are still there for the second copy
      have hfirst := hkept₁ _ (fun r hr => ?_) (hsource _ hx)
      · simpa using hbuilt₂ [x] (by simp) (by simpa using hfirst)
      · rw [List.append_assoc] at hr
        exact absurd ⟨_, hr.symm⟩ (hapart.not_prefix ["sdk", "latest", x])
  · have hcleared : (k₆.disk.fileAt (d.checkout.place ++ "sdk" :: q)).isSome := by
      refine hbefore _ ?_
      rw [fileAt_clear]
      · exact hsome
      · intro name hname hprefix
        obtain rfl : name = "sdk" := by simpa using hprefix
        simp [keeps, hdraft] at hname
    have hstep (name : String) (hmem : name ∈ ["latest", label]) (r : List String)
        (hr : d.checkout.place ++ "sdk" :: q = d.checkout.place ++ ["sdk", name] ++ r) : r = [] :=
      hq name hmem r (by simpa using hr)
    exact hkept₂ _ (hstep label (by simp)) (hkept₁ _ (hstep "latest" (by simp)) hcleared)

theorem readJson_eq_ok {docs : Json} {path : Path}
    (h : (Site.Store.readJson (path / "docs.json").place).result k = (.ok docs, k')) :
    k' = k ∧ (k.disk.tree path.place).configuration? = some docs := by
  unfold Site.Store.readJson at h
  obtain ⟨cs, k₁, hread, h⟩ := Job.bind_eq_ok.mp h
  obtain ⟨hparse, rfl⟩ := Job.ofExcept_eq_ok.mp h
  obtain ⟨text, htext, rfl, rfl⟩ := Job.readText_eq_ok hread
  refine ⟨rfl, Tree.configuration?_eq_some.mpr ⟨text, ?_, hparse⟩⟩
  rw [Path.place_child _ (by decide)] at htext
  exact Disk.read_eq_ok htext

theorem fetch_eq_ok {existing new : Json} (h : d.fetch.result k = (.ok (existing, new), k')) :
    k'.disk = Shell.layOut d.checkout.place (k.disk.fill d.checkout.place)
        (d.shell.branch d.branch) ∧
      (k'.disk.tree d.checkout.place).configuration? = some existing ∧
      (k'.disk.tree d.built.place).configuration? = some new := by
  unfold fetch at h
  obtain ⟨o, k₁, hclone, h⟩ := Job.bind_eq_ok.mp h
  simp only at h
  split at h
  · obtain ⟨_, _, hfail, -⟩ := Job.bind_eq_ok.mp h
    exact absurd hfail Job.fail_ne_ok
  · rename_i hcode
    obtain ⟨existing', k₂, hexisting, h⟩ := Job.bind_eq_ok.mp h
    obtain ⟨new', k₃, hnew, h⟩ := Job.bind_eq_ok.mp h
    cases h
    obtain ⟨rfl, hexisting⟩ := readJson_eq_ok hexisting
    obtain ⟨rfl, hnew⟩ := readJson_eq_ok hnew
    exact ⟨Shell.clone_eq_ok hclone (Decidable.not_not.mp hcode), hexisting, hnew⟩

/-- The configuration that is published for a built site on a branch. -/
def Configured (d : Deployment) (label : String) (existing new docs : Json) : Prop :=
  ∃ labelled, addLabelled label new = .ok labelled ∧
    (d.isDraft = true ∧ docs = labelled ∨
      d.isDraft = false ∧ ∃ existing', Navigation.mergeVersions existing labelled =
        .ok (existing', docs))

theorem configuration_eq_ok {existing new docs : Json}
    (h : (d.configuration label existing new).result k = (.ok docs, k')) :
    k'.disk = k.disk ∧ d.Configured label existing new docs := by
  unfold configuration at h
  obtain ⟨labelled, k₁, hadd, h⟩ := Job.bind_eq_ok.mp h
  obtain ⟨hlabelled, rfl⟩ := Job.ofExcept_eq_ok.mp hadd
  split at h
  · rename_i hdraft
    cases h
    exact ⟨rfl, docs, hlabelled, .inl ⟨hdraft, rfl⟩⟩
  · rename_i hdraft
    obtain ⟨_, k₂, hprint, h⟩ := Job.bind_eq_ok.mp h
    obtain ⟨r, k₃, hmerge, h⟩ := Job.bind_eq_ok.mp h
    obtain ⟨hmerged, rfl⟩ := Job.ofExcept_eq_ok.mp hmerge
    cases h
    exact ⟨(.print _ : Job.KeepsDisk _).eq hprint, labelled, hlabelled,
      .inr ⟨by simpa using hdraft, r.1, hmerged⟩⟩

/-- What becomes of a built site and the tree of a branch. -/
structure Assembled (d : Deployment) (label : String) (docs : Json) (site branch result : Tree) :
    Prop where
  written : result ["docs.json"] = some docs.fileText
  built : ∀ name ∈ ["latest", label], ∀ x, (site ["sdk", "latest", x]).isSome →
    (result ["sdk", name, x]).isSome
  kept : d.isDraft = false → ∀ q, (∀ name ∈ ["latest", label], ∀ r, q = name :: r → r = []) →
    (branch ("sdk" :: q)).isSome → (result ("sdk" :: q)).isSome
  place : Disk.checkPlace (d.checkout.place ++ ["sdk", label]) = .ok ()

theorem assemble_eq_ok (hapart : d.Apart)
    (hfree : ∀ parts, k.disk.fileAt (d.checkout.place ++ parts) = none)
    (hlabel : Path.IsName label) (hne : label ≠ "latest") {u : Unit}
    (h : (d.assemble label).result k = (.ok u, k')) :
    ∃ existing new docs,
      (Tree.ofFiles (d.shell.branch d.branch)).configuration? = some existing ∧
      (k.disk.tree d.built.place).configuration? = some new ∧
      d.Configured label existing new docs ∧
      d.Assembled label docs (k.disk.tree d.built.place) (Tree.ofFiles (d.shell.branch d.branch))
        (k'.disk.tree d.checkout.place) := by
  unfold assemble at h
  obtain ⟨⟨existing, new⟩, k₁, hfetch, h⟩ := Job.bind_eq_ok.mp h
  obtain ⟨_, k₂, hfiles, h⟩ := Job.bind_eq_ok.mp h
  obtain ⟨docs, k₃, hdocs, h⟩ := Job.bind_eq_ok.mp h
  obtain ⟨hdisk, hexisting, hnew⟩ := fetch_eq_ok hfetch
  have hbranch : k₁.disk.tree d.checkout.place = Tree.ofFiles (d.shell.branch d.branch) := by
    funext parts
    rw [Disk.tree, hdisk, Shell.fileAt_layOut checkout_place_ne_nil, Disk.fileAt_fill, hfree,
      Option.or_none]
  have hsite : k₁.disk.tree d.built.place = k.disk.tree d.built.place := by
    funext parts
    rw [Disk.tree, hdisk, Shell.fileAt_layOut_of_not_prefix (hapart.not_prefix parts),
      Disk.fileAt_fill]
    rfl
  obtain ⟨hkept, hconfigured⟩ := configuration_eq_ok hdocs
  obtain ⟨hbuilt, hold, hplace⟩ := layFiles_eq_ok hapart hlabel hne hfiles
  obtain ⟨disk, hwrite, rfl⟩ := Job.change_eq_ok.mp h
  rw [hkept, Path.place_child _ (by decide)] at hwrite
  have hwritten (parts : List String) : disk.tree d.checkout.place parts =
      if parts = ["docs.json"] then some docs.fileText else k₂.disk.tree d.checkout.place parts := by
    have hne : d.checkout.place ++ parts ≠ [] := by simp [checkout_place_ne_nil]
    rw [Disk.write_eq_ok hwrite, Disk.tree, Disk.fileAt_put hne]
    by_cases hp : parts = ["docs.json"] <;> simp [hp, Disk.tree, eq_comm]
  rw [hbranch] at hexisting
  rw [hsite] at hnew
  refine ⟨existing, new, docs, hexisting, hnew, hconfigured, ?_, ?_, ?_, hplace⟩
  · rw [hwritten, if_pos rfl]
  · intro name hname x hx
    rw [hwritten, if_neg (by simp)]
    rw [← hsite] at hx
    exact hbuilt name hname x hx
  · intro hdraft q hq hx
    rw [hwritten, if_neg (by simp)]
    rw [← hbranch] at hx
    exact hold hdraft q hq hx

open Job (KeepsDisk)

theorem keepsDisk_announce (version : String) : KeepsDisk (d.announce version) := by
  have hrest (label : Label) (commit : String) : KeepsDisk (do
      Job.print ("   Cloning into " ++ d.checkout.toString ++ " ...")
      return (label, commit)) := .bind (.print _) fun _ => .pure _
  refine .bind .disk fun disk => .ite ?_ ?_
  · exact .bind (.print _) fun _ => .exit_bind _ _
  · refine .bind (.ofExcept _) fun label => ?_
    refine .bind (.bind (.require _ _) fun _ => .pure _) fun commit => ?_
    refine .bind (.print _) fun _ => .ite ?_ ?_
    · exact .bind (.print _) fun _ => hrest label commit
    · exact hrest label commit

theorem keepsDisk_tellErrors (errors : List String) : KeepsDisk (Site.tellErrors errors) := by
  unfold Site.tellErrors
  split
  · exact .bind (.print _) fun _ => .pure _
  · exact .bind (.print _) fun _ => .bind (.forM (fun _ => .print _) _) fun _ => .pure _

theorem keepsDisk_check (sh : Shell) (site : Path) : KeepsDisk (Site.check sh site) := by
  refine .bind (.print _) fun _ => .bind (.record _) fun _ => ?_
  split
  · exact .pure _
  · exact keepsDisk_tellErrors _
  · exact .bind (.ofExcept _) fun _ => .bind (.ofExcept _) fun _ => keepsDisk_tellErrors _

theorem keepsDisk_publish (message : String) : KeepsDisk (d.publish message) := by
  refine .bind (.require _ _) fun _ => .bind (.call _ _) fun changes => .ite (.print _) ?_
  refine .bind (.print _) fun _ => .bind (.require _ _) fun _ => .bind (.print _) fun _ => ?_
  exact .bind (.require _ _) fun _ => .print _

theorem keepsDisk_conclude (label commit : String) : KeepsDisk (d.conclude label commit) := by
  have hrest : KeepsDisk (do
      d.publish ("Deploy documentation " ++ label ++ " from " ++ commit)
      Job.print ("\nView at: https://pixeltable-" ++ d.branch ++ ".mintlify.app/")) :=
    .bind (keepsDisk_publish _) fun _ => .print _
  refine .bind (keepsDisk_check _ _) fun errors => .ite ?_ hrest
  exact .bind (.print _) fun _ => .exit_bind _ _

theorem announce_eq_ok {version commit : String} {l : Label}
    (h : (d.announce version).result k = (.ok (l, commit), k')) :
    Label.of d.branch version = .ok l ∧ k'.disk = k.disk := by
  refine ⟨?_, (keepsDisk_announce version).eq h⟩
  unfold announce at h
  obtain ⟨disk, k₁, -, h⟩ := Job.bind_eq_ok.mp h
  simp only at h
  split at h
  · obtain ⟨_, k₂, -, h⟩ := Job.bind_eq_ok.mp h
    cases h
  · obtain ⟨label, k₂, hlabel, h⟩ := Job.bind_eq_ok.mp h
    obtain ⟨commit', k₃, -, h⟩ := Job.bind_eq_ok.mp h
    obtain ⟨_, k₄, -, h⟩ := Job.bind_eq_ok.mp h
    have hend {k₀ : Desk} (h : Job.result (do
        Job.print ("   Cloning into " ++ d.checkout.toString ++ " ...")
        return (label, commit')) k₀ = (.ok (l, commit), k')) : label = l := by
      cases h
      rfl
    have hsame : label = l := by
      split at h
      · obtain ⟨_, k₅, -, h⟩ := Job.bind_eq_ok.mp h
        exact hend h
      · exact hend h
    rw [← hsame]
    exact (Job.ofExcept_eq_ok.mp hlabel).1

/-- A run that has come as far as a complete working tree, and what it has left by then. -/
def Writes (d : Deployment) (version : String) (k k' : Desk) : Prop :=
  ∃ label commit k₀, (d.announce version).result k = (.ok (label, commit), k₀) ∧
    (d.assemble label.text).result k₀ = (.ok (), k')

/-- What follows leaves the working tree as it is, whether it succeeds or not. -/
theorem Writes.disk_run {version : String} (h : d.Writes version k k') :
    ((d.run version).result k).2.disk = k'.disk := by
  obtain ⟨label, commit, k₀, hannounce, hassemble⟩ := h
  unfold run
  rw [Job.result_bind, hannounce]
  simp only
  rw [Job.result_bind, hassemble]
  exact keepsDisk_conclude label.text commit k'

theorem writes_of_run {version : String} {u : Unit} (h : (d.run version).result k = (.ok u, k')) :
    ∃ k₁, d.Writes version k k₁ := by
  unfold run at h
  obtain ⟨⟨label, commit⟩, k₀, hannounce, h⟩ := Job.bind_eq_ok.mp h
  obtain ⟨_, k₁, hassemble, -⟩ := Job.bind_eq_ok.mp h
  exact ⟨k₁, label, commit, k₀, hannounce, hassemble⟩

end Deploy.Deployment

end DocSite
