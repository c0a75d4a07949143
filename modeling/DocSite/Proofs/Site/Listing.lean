import DocSite.Proofs.Navigation.Regeneration
import DocSite.Proofs.Site.Reference

namespace DocSite

namespace Navigation

open Outline

variable {name shown l : String} {version : Json} {tabs tabs' : List Json}

/-- A version that is put among tabs is listed there. -/
theorem Placed.lists (h : Placed name shown l version tabs tabs') :
    ∃ tab ∈ tabs', version ∈ versionsIn tab := by
  have hone : version ∈ versionsIn (oneVersion shown version) := List.mem_singleton.mpr rfl
  cases h with
  | added => exact ⟨_, by simp, hone⟩
  | replaced => exact ⟨_, by simp, hone⟩
  | @versioned before after entries tab v hfirst hsome heach hsortable =>
    refine ⟨renamed shown (withVersions (revised l version entries) tab), by simp, ?_⟩
    have hne : "dropdowns" ≠ "tab" := by decide
    have hversions : versionsIn (renamed shown (withVersions (revised l version entries) tab)) =
        revised l version entries := by
      simp [versionsIn, renamed, withVersions, Json.field, Json.field?, Json.entries,
        OrderedMap.get?_set_of_ne hne, Json.items]
    rw [hversions, revised, List.mem_mergeSort]
    simp

/-- An update that succeeds lists the version it is given. -/
theorem update_lists {docs : Json} {draft : Draft} (hv : label? version = some l)
    (h : (update name (oneVersion shown version)).result docs = (.ok (), draft)) :
    ∃ tab ∈ tabsIn draft.docs, version ∈ versionsIn tab := by
  rcases result_update_cases name shown hv docs with ⟨e, draft', herror, -⟩ |
    ⟨docs', tabs, tabs', lines, hplaced, hok⟩
  · rw [herror] at h
    cases h
  · rw [hok] at h
    cases h
    rw [(hasTabs_withTabs tabs' docs').tabsIn_eq]
    exact hplaced.lists

/-- The one version in the navigation of a tab lists what was made for its pages. -/
theorem build_eq_listing (version : String) (made : OrderedMap Made) (t : Tab) :
    ∃ entry, build version (made.mapValues Made.json) t = oneVersion t.name entry ∧
      label? entry = some version ∧ leavesOf entry = (pathsOf made t.pages).map .str := by
  refine ⟨_, rfl, rfl, ?_⟩
  have hpages := leavesInEach_buildGroups made t.groups
  exact (List.append_nil _).trans hpages

end Navigation

namespace Page

theorem slash_not_mem_slugText (name : String) : '/' ∉ (slugText name).toList := by
  rw [slugText, Text.onChars, String.toList_ofList, slug, Text.replaceChar, groupSlug,
    Text.replaceChar]
  simp only [List.map_map, List.mem_map, Function.comp_apply, not_exists, not_and]
  rintro c - hc
  split at hc <;> split at hc <;> simp_all

theorem isName_slugText (name : String) : Path.IsName (slugText name ++ ".mdx") := by
  have hlength : 4 ≤ (slugText name ++ ".mdx").toList.length := by simp
  refine ⟨?_, ?_, ?_, ?_⟩
  · simp [slash_not_mem_slugText]
  all_goals
    intro h
    rw [h] at hlength
    exact absurd hlength (by decide)

end Page

namespace Site

open Page Outline Navigation

theorem place_sitePath (site : Path) (version name : String) :
    (site / (sitePath version name ++ ".mdx")).place =
      (site / ("sdk/" ++ version)).place ++ [slugText name ++ ".mdx"] := by
  have htext : sitePath version name ++ ".mdx" =
      ("sdk/" ++ version) ++ "/" ++ (slugText name ++ ".mdx") := by
    simp only [sitePath, String.append_assoc]
  have hname := isName_slugText name
  have hhead : (slugText name ++ ".mdx").toList.head? ≠ some '/' :=
    fun h => hname.1 (List.mem_of_mem_head? h)
  rw [htext, ← Path.child_child site (by simp) (by simp) hhead, Path.place_child _ hname]

/-- Whether the pages of a version are looked for in the directory that they are written to. -/
def LeadsToPages (project : Path) (version : String) : Prop :=
  (project / "target/docs" / ("sdk/" ++ version)).place = (project / "target/docs/sdk/latest").place

instance (project : Path) (version : String) : Decidable (LeadsToPages project version) :=
  inferInstanceAs (Decidable (_ = _))

theorem place_version {version : String} (h : Path.IsName version) (site : Path) :
    (site / ("sdk/" ++ version)).place = (site / "sdk").place ++ [version] := by
  have hhead : version.toList.head? ≠ some '/' := fun hslash => h.1 (List.mem_of_mem_head? hslash)
  have hsteps : site / ("sdk" ++ "/" ++ version) = site / "sdk" / version :=
    (Path.child_child site (by decide) (by decide) hhead).symm
  rw [← Path.place_child _ h, ← hsteps]
  rfl

theorem leadsToPages_latest (project : Path) : LeadsToPages project "latest" := by
  have htext : "target/docs/sdk/latest" = "target/docs" ++ "/" ++ ("sdk/" ++ "latest") := by decide
  rw [LeadsToPages, htext, Path.child_child project (by decide) (by decide) (by decide)]

/-- Of the versions that name a directory, only the latest leads to the pages. -/
theorem leadsToPages_iff {version : String} (h : Path.IsName version) (project : Path) :
    LeadsToPages project version ↔ version = "latest" := by
  constructor
  · intro hleads
    have hsame := hleads.trans (leadsToPages_latest project).symm
    rw [place_version h, place_version (by decide)] at hsame
    exact List.singleton_inj.mp (List.append_cancel_left hsame)
  · rintro rfl
    exact leadsToPages_latest project

section Files

variable {s : Setting} {site : Path} {pages : List PageItem} {p : PageItem}

/-- A page is looked for in the place that it is written to, if its version leads there. -/
theorem place_pathOf (hleads : (site / ("sdk/" ++ s.version)).place = s.output) (p : PageItem) :
    (site / (pathOf s p ++ ".mdx")).place = placeOf s p := by
  rw [pathOf, place_sitePath, hleads]
  rfl

theorem isSome_written (hp : p ∈ pages) (hhas : HasPage p) (hfresh : (freshText? s p).isSome) :
    (Tree.ofFiles (pageFiles s pages) (placeOf s p)).isSome := by
  obtain ⟨text, htext⟩ := Option.isSome_iff_exists.mp hfresh
  have hfile : (placeOf s p, text) ∈ pageFiles s pages := by
    refine List.mem_flatMap.mpr ⟨p, hp, ?_⟩
    simp [pageFile, hhas, htext]
  exact Tree.isSome_ofFiles hfile

/-- No page is written where the pages of another directory are looked for. -/
theorem written_eq_none (hleads : (site / ("sdk/" ++ s.version)).place ≠ s.output) (p : PageItem)
    (pages : List PageItem) :
    Tree.ofFiles (pageFiles s pages) (site / (pathOf s p ++ ".mdx")).place = none := by
  refine Tree.ofFiles_eq_none fun f hf heq => ?_
  obtain ⟨p', -, -, hplace, -⟩ := mem_pageFiles hf
  rw [hplace, placeOf, Setting.place, pathOf, place_sitePath] at heq
  exact hleads (List.append_inj_left' heq (by simp)).symm

end Files

/-- A version that a run adds to the configuration of a project, under the tab of its outline. -/
structure Adds (r : Reference) (project : Path) (before after : Disk) (tab : Tab) (added : Json) :
    Prop where
  outlined : Outlined project before tab
  labelled : label? added = some r.version
  configured : ∃ text config draft, before.fileAt (docsPlace project) = some text ∧
    Json.parseChars (Text.plainNewlines text.toList) = .ok config ∧
    (Navigation.update sdkTab (oneVersion tab.name added)).result config = (.ok (), draft) ∧
    after.fileAt (docsPlace project) = some draft.docs.fileText ∧
    ∃ t ∈ tabsIn draft.docs, added ∈ versionsIn t
  lists : ∀ path, .str path ∈ leavesOf added ↔
    ∃ p ∈ tab.pages, HasPage p ∧ path = sitePath r.version (Api.lastPart p.path)

section Runs

variable {r : Reference} {project : Path} {k k' : Desk} {e : Except Halt Unit}

/-- A completed run adds its version, and writes the pages of its outline over what was there. -/
theorem adds_of_completed (hr : r.configFile = .holding shippedConfig)
    (hrun : (r.make project).result k = (e, k')) (hdone : Completed project e k') :
    ∃ tab added, Adds r project k.disk k'.disk tab added ∧
      (∀ p ∈ tab.pages, HasPage p → (freshText? (r.shippedSetting project) p).isSome) ∧
      ∀ q ≠ docsPlace project, k'.disk.fileAt q =
        (Tree.ofFiles (pageFiles (r.shippedSetting project) tab.pages) q).or (k.disk.fileAt q) := by
  have hend := makeEnd hr project k.disk k rfl
  rw [hrun] at hend
  cases hend with
  | stopped => cases hdone.1
  | refused hdocs hfault hout => exact absurd hdone (not_completed_of_refused hfault hout)
  | @completed tab count told text config draft _ houtline hfresh htext hconfig hupdate hfiles =>
    obtain ⟨added, hbuild, hlabel, hleaves⟩ := build_eq_listing r.version
      (tab.pages.foldl (record (r.shippedSetting project)) []) tab
    rw [hbuild] at hupdate
    refine ⟨tab, added, ⟨houtline, hlabel, ?_, fun path => ?_⟩, hfresh, fun q hq => ?_⟩
    · exact ⟨text, config, draft, htext, hconfig, hupdate, by rw [hfiles, if_pos rfl],
        update_lists hlabel hupdate⟩
    · rw [hleaves, List.mem_map_of_injective fun _ _ => Json.str.inj]
      exact mem_pathsOf_record
    · rw [hfiles, if_neg hq]

/-- A run that ends well and changes the configuration of its project is complete. -/
theorem completed_of_changed (hr : r.configFile = .holding shippedConfig)
    (hrun : (r.make project).result k = (.ok (), k'))
    (hchanged : k'.disk.fileAt (docsPlace project) ≠ k.disk.fileAt (docsPlace project)) :
    Completed project (.ok ()) k' := by
  have hend := makeEnd hr project k.disk k rfl
  rw [hrun] at hend
  cases hend with
  | refused hdocs => exact absurd hdocs hchanged
  | completed houtline hfresh htext hconfig hupdate hfiles hout => exact ⟨rfl, _, _, hout⟩

end Runs

/-- Every page that a completed run lists in the version it adds is a file that this run wrote,
if the version leads to the directory of the pages. If it does not, no page that it lists was
written there: what is found under its path is what was there before. -/
theorem listed_pages_written (r : Reference) (project : Path) (k k' : Desk) (e : Except Halt Unit)
    (hr : r.configFile = .holding shippedConfig) (hrun : (r.make project).result k = (e, k'))
    (hdone : Completed project e k') :
    (Path.IsName r.version → (LeadsToPages project r.version ↔ r.version = "latest")) ∧
    ∃ tab added, Adds r project k.disk k'.disk tab added ∧
      ∀ path, .str path ∈ leavesOf added →
        let written := Tree.ofFiles (pageFiles (r.shippedSetting project) tab.pages)
        let file := (project / "target/docs" / (path ++ ".mdx")).place
        if LeadsToPages project r.version then
          ∃ text, written file = some text ∧ k'.disk.fileAt file = some text
        else written file = none ∧ k'.disk.fileAt file = k.disk.fileAt file := by
  refine ⟨fun h => leadsToPages_iff h project, ?_⟩
  obtain ⟨tab, added, hadds, hfresh, hfiles⟩ := adds_of_completed hr hrun hdone
  refine ⟨tab, added, hadds, fun path hpath => ?_⟩
  obtain ⟨p, hp, hhas, rfl⟩ := (hadds.lists path).mp hpath
  have hdocs : (project / "target/docs" /
      (pathOf (r.shippedSetting project) p ++ ".mdx")).place ≠ docsPlace project := by
    rw [pathOf, place_sitePath]
    exact place_ne_docsPlace _ _ project
  have hfile := hfiles _ hdocs
  by_cases hleads : LeadsToPages project r.version
  · have hplace := place_pathOf (s := r.shippedSetting project) hleads p
    obtain ⟨text, hwritten⟩ := Option.isSome_iff_exists.mp
      (isSome_written hp hhas (hfresh p hp hhas))
    rw [← hplace] at hwritten
    rw [hwritten, Option.some_or] at hfile
    simp only [if_pos hleads]
    exact ⟨text, hwritten, hfile⟩
  · have hnone := written_eq_none (s := r.shippedSetting project) hleads p tab.pages
    rw [hnone, Option.none_or] at hfile
    simp only [if_neg hleads]
    exact ⟨hnone, hfile⟩

section OneModule

/-- An outline that names one module. -/
def oneModule : String :=
  "<opml><body><outline text='tab|Reference'><outline text='group|Modules'>" ++
    "<outline text='module|x'/></outline></outline></body></opml>"

def oneModuleProject : Path := ⟨"/", ["project"]⟩

/-- A project with this outline, before anything is made for it. -/
def oneModuleDisk : Disk :=
  (Disk.empty.addFile ["project", "docs", "public_api.opml"] oneModule).addFile
    ["project", "target", "docs", "docs.json"] "\x7b\"navigation\": \x7b\"tabs\": []\x7d\x7d"

def emptyReferenceOf (version : String) : Reference := { emptyReference with version := version }

variable {tab : Tab}

theorem page_of_oneModule (h : Outlined oneModuleProject oneModuleDisk tab) :
    ∃ p ∈ tab.pages, HasPage p ∧ p.path = "x" := by
  obtain ⟨source, document, hsource, hparse, htab⟩ := h
  have hread : ((Xml.parse oneModule).toOption.bind (readTab? .withColumnFunctions)).all
      (·.pages.any fun p => HasPage p ∧ p.path = "x") = true := by decide +kernel
  have hfile : oneModuleDisk.fileAt (oneModuleProject / "docs/public_api.opml").place =
      some oneModule := by decide +kernel
  cases hfile.symm.trans hsource
  rw [hparse] at hread
  simp only [Except.toOption, Option.bind_some, htab, Option.all_some, List.any_eq_true,
    decide_eq_true_eq] at hread
  exact hread

theorem completed_oneModule (version : String) (h : version ∈ ["latest", "v0.4"]) :
    ∃ k', ((emptyReferenceOf version).make oneModuleProject).result (.on oneModuleDisk) =
      (.ok (), k') ∧ Completed oneModuleProject (.ok ()) k' := by
  have hends : ∀ version ∈ ["latest", "v0.4"],
      let run := ((emptyReferenceOf version).make oneModuleProject).result (.on oneModuleDisk)
      run.1.isOk = true ∧ run.2.disk.fileAt (docsPlace oneModuleProject) ≠
        oneModuleDisk.fileAt (docsPlace oneModuleProject) := by decide +kernel
  obtain ⟨hok, hchanged⟩ := hends version h
  rcases hrun : ((emptyReferenceOf version).make oneModuleProject).result (.on oneModuleDisk)
    with ⟨halt | ⟨⟩, k'⟩
  · rw [hrun] at hok
    cases hok
  · rw [hrun] at hchanged
    exact ⟨k', rfl, completed_of_changed rfl hrun hchanged⟩

theorem lists_oneModule {r : Reference} {after : Disk} {added : Json}
    (h : Adds r oneModuleProject oneModuleDisk after tab added) :
    .str (sitePath r.version "x") ∈ leavesOf added := by
  obtain ⟨p, hp, hhas, hpath⟩ := page_of_oneModule h.outlined
  have hlast : Api.lastPart p.path = "x" := by rw [hpath]; decide +kernel
  exact (h.lists _).mpr ⟨p, hp, hhas, by rw [hlast]⟩

theorem listed_pages_written_latest : ∃ k' tab added text,
    (emptyReference.make oneModuleProject).result (.on oneModuleDisk) = (.ok (), k') ∧
      Adds emptyReference oneModuleProject oneModuleDisk k'.disk tab added ∧
      .str "sdk/latest/x" ∈ leavesOf added ∧
      k'.disk.fileAt ["project", "target", "docs", "sdk", "latest", "x.mdx"] = some text := by
  obtain ⟨k', hrun, hdone⟩ := completed_oneModule "latest" (by simp)
  obtain ⟨-, tab, added, hadds, hpages⟩ :=
    listed_pages_written emptyReference oneModuleProject (.on oneModuleDisk) k' _ rfl hrun hdone
  have hpath : sitePath emptyReference.version "x" = "sdk/latest/x" := by decide +kernel
  have hplace : (oneModuleProject / "target/docs" / ("sdk/latest/x" ++ ".mdx")).place =
      ["project", "target", "docs", "sdk", "latest", "x.mdx"] := by decide +kernel
  have hleads : LeadsToPages oneModuleProject emptyReference.version := leadsToPages_latest _
  have hlisted := lists_oneModule hadds
  rw [hpath] at hlisted
  have hfound := hpages _ hlisted
  simp only [if_pos hleads, hplace] at hfound
  obtain ⟨text, -, hfile⟩ := hfound
  exact ⟨k', tab, added, text, hrun, hadds, hlisted, hfile⟩

/-- Under a version of its own the page is listed as well, but there is no file. -/
theorem version_page_missing : ∃ k' tab added,
    ((emptyReferenceOf "v0.4").make oneModuleProject).result (.on oneModuleDisk) = (.ok (), k') ∧
    Completed oneModuleProject (.ok ()) k' ∧
    Adds (emptyReferenceOf "v0.4") oneModuleProject oneModuleDisk k'.disk tab added ∧
    .str "sdk/v0.4/x" ∈ leavesOf added ∧
    k'.disk.fileAt (oneModuleProject / "target/docs" / "sdk/v0.4/x.mdx").place = none := by
  obtain ⟨k', hrun, hdone⟩ := completed_oneModule "v0.4" (by simp)
  obtain ⟨tab, added, hadds, -, hfiles⟩ := adds_of_completed rfl hrun hdone
  have hpath : sitePath (emptyReferenceOf "v0.4").version "x" = "sdk/v0.4/x" := by decide +kernel
  have hlisted := lists_oneModule hadds
  rw [hpath] at hlisted
  refine ⟨k', tab, added, hrun, hdone, hadds, hlisted, ?_⟩
  have hleads : ¬ LeadsToPages oneModuleProject "v0.4" := by decide +kernel
  obtain ⟨p, -, -, hp⟩ := page_of_oneModule hadds.outlined
  have hfile : pathOf ((emptyReferenceOf "v0.4").shippedSetting oneModuleProject) p ++ ".mdx" =
      "sdk/v0.4/x.mdx" := by
    rw [pathOf, hp]
    decide +kernel
  have hnone := written_eq_none (s := (emptyReferenceOf "v0.4").shippedSetting oneModuleProject)
    hleads p tab.pages
  rw [hfile] at hnone
  rw [hfiles _ (by decide +kernel), hnone, Option.none_or]
  decide +kernel

end OneModule

end Site

end DocSite
