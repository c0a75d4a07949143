import DocSite.Program
import DocSite.Proofs.Navigation.Faults
import DocSite.Proofs.Path
import DocSite.Proofs.Site.Generation

namespace DocSite

open Attempt Fault

namespace Disk

theorem failsWith_checkPlace (place : List String) : FailsWith EndsApart (checkPlace place) := by
  refine .when (.error ?_) fun _ => .when (.error (by decide)) fun _ => ?_
  · exact .of_append (t := ": surrogates not allowed") rfl rfl (by decide)
  · exact .ite (.error (.quoted _ _ rfl)) (.ok ())

theorem failsWith_write (d : Disk) (place : List String) (text : String) :
    FailsWith EndsApart (d.write place text) := by
  refine .bind (failsWith_checkPlace place) fun _ => .ite (.error (.quoted _ _ rfl)) ?_
  exact .ite (.error (.quoted _ _ rfl)) (.ite (.ok _) (.error (.quoted _ _ rfl)))

end Disk

namespace Site

open Navigation

variable {store : Store} {nav config : Json} {k : Desk}

namespace Store

theorem readJson_eq_ok {place : List String} {k' : Desk}
    (h : (readJson place).result k = (.ok config, k')) :
    k' = k ∧ ∃ text, k.disk.fileAt place = some text ∧
      Json.parseChars (Text.plainNewlines text.toList) = .ok config := by
  obtain ⟨cs, k₁, hcs, h⟩ := Job.bind_eq_ok.mp h
  obtain ⟨_, _, hdisk, hcs⟩ := Job.bind_eq_ok.mp hcs
  cases hdisk
  obtain ⟨text, _, htext, hcs⟩ := Job.bind_eq_ok.mp hcs
  obtain ⟨hread, rfl⟩ := Job.ofExcept_eq_ok.mp htext
  cases hcs
  obtain ⟨hparse, rfl⟩ := Job.ofExcept_eq_ok.mp h
  exact ⟨rfl, text, Disk.read_eq_ok hread, hparse⟩

theorem keepsDisk_readJson (place : List String) : Job.KeepsDisk (readJson place) :=
  .bind (.readText _) fun _ => .ofExcept _

theorem load_cases (store : Store) (docs : Json) (k : Desk) :
    (∃ halt docs' k', store.load.result docs k = ((.error halt, docs'), k') ∧ k'.disk = k.disk) ∨
      ∃ text config k', store.load.result docs k = ((.ok (), config), k') ∧ k'.disk = k.disk ∧
        k.disk.fileAt store.path.place = some text ∧
        Json.parseChars (Text.plainNewlines text.toList) = .ok config := by
  unfold load
  rcases hread : (readJson store.path.place).result k with ⟨halt | config, k₁⟩
  · refine .inl ⟨halt, docs, k₁, Keeping.bind_of_error ?_, (keepsDisk_readJson _).eq hread⟩
    rw [Keeping.result_lift, hread]
  · obtain ⟨rfl, text, htext, hparse⟩ := readJson_eq_ok hread
    have hloaded : (liftM (readJson store.path.place) : StoreJob Json).result docs k₁ =
        ((.ok config, docs), k₁) := by
      rw [Keeping.result_lift, hread]
    rw [Keeping.bind_of_ok hloaded, Keeping.bind_of_ok (Keeping.result_keep _ _ _)]
    cases tabCount config with
    | error fault => exact .inl ⟨_, _, k₁, rfl, rfl⟩
    | ok count => exact .inr ⟨text, config, _, rfl, rfl, htext, hparse⟩

/-- An update of what was loaded succeeds if it does by itself. -/
theorem update_cases (store : Store) (nav config : Json) (k : Desk) :
    (∃ fault docs k', (store.update nav).result config k = ((.error (.failed fault), docs), k') ∧
        k'.disk = k.disk ∧ fault.EndsApart) ∨
      ∃ draft k', (store.update nav).result config k = ((.ok (), draft.docs), k') ∧
        k'.disk = k.disk ∧ (Navigation.update store.tab nav).result config = (.ok (), draft) := by
  have hfaults := failsWith_update store.tab nav ⟨config, []⟩
  rw [← Edit.result_eq] at hfaults
  unfold update
  rw [Keeping.bind_of_ok (Keeping.result_kept _ _)]
  rcases hupdate : (Navigation.update store.tab nav).result config with ⟨r, draft⟩
  rw [hupdate] at hfaults
  obtain ⟨k', htold, hdisk⟩ := Keeping.result_forM_print (fun line => line) draft.lines draft.docs k
  simp only [Keeping.bind_of_ok (Keeping.result_keep _ _ _), Keeping.bind_of_ok htold]
  cases r with
  | error fault => exact .inl ⟨fault, _, k', rfl, hdisk, hfaults fault rfl⟩
  | ok u => exact .inr ⟨draft, k', rfl, hdisk, rfl⟩

theorem save_cases (store : Store) (docs : Json) (k : Desk) :
    (∃ fault, store.save.result docs k = ((.error (.failed fault), docs), k) ∧ fault.EndsApart) ∨
      ∃ k', store.save.result docs k = ((.ok (), docs), k') ∧
        k'.disk = k.disk.put store.path.place (.file docs.fileText) := by
  have hfaults := Disk.failsWith_write k.disk store.path.place docs.fileText
  unfold save
  rw [Keeping.bind_of_ok (Keeping.result_kept _ _)]
  dsimp only
  split
  · exact .inl ⟨_, rfl, by decide⟩
  · cases hwrite : k.disk.write store.path.place docs.fileText with
    | error fault =>
      refine .inl ⟨fault, Keeping.bind_of_error ?_, hfaults fault hwrite⟩
      rw [Keeping.result_lift, Job.change_of_error hwrite]
    | ok d =>
      have hwritten : (liftM (Job.change (·.write store.path.place docs.fileText)) :
          StoreJob Unit).result docs k = ((.ok (), docs), { k with disk := d }) := by
        rw [Keeping.result_lift, Job.change_of_ok hwrite]
      rw [Keeping.bind_of_ok hwritten]
      exact .inr ⟨_, rfl, Disk.write_eq_ok hwrite⟩

end Store

/-- How bringing a configuration up to date can end: it cannot be read, it is told why it cannot
be changed, or it is written as the navigation changes it. Only then the disk is another. -/
inductive PublishEnd (store : Store) (nav : Json) (disk : Disk) : Except Halt Bool → Desk → Prop
  | failed {halt : Halt} {k' : Desk} (hdisk : k'.disk = disk) :
      PublishEnd store nav disk (.error halt) k'
  | refused {fault : Fault} {told : String} {k' : Desk} (hdisk : k'.disk = disk)
      (hfault : fault.EndsApart)
      (hout : k'.out = told ++ ("❌ Error updating navigation: " ++ fault.message ++ "\n")) :
      PublishEnd store nav disk (.ok false) k'
  | written {text : String} {config : Json} {draft : Draft} {k' : Desk}
      (htext : disk.fileAt store.path.place = some text)
      (hconfig : Json.parseChars (Text.plainNewlines text.toList) = .ok config)
      (hupdate : (Navigation.update store.tab nav).result config = (.ok (), draft))
      (hdisk : k'.disk = disk.put store.path.place (.file draft.docs.fileText)) :
      PublishEnd store nav disk (.ok true) k'

/-- What is told about a navigation leaves the disk and what was loaded as they are. -/
theorem result_warnings (warnings : List String) (config : Json) (k : Desk) :
    ∃ k', k'.disk = k.disk ∧ ∀ x : StoreJob Bool,
      (if (!warnings.isEmpty) = true then do
        Job.print "⚠️  Validation warnings:"
        warnings.forM fun w => Keeping.ofJob (Job.print ("   - " ++ w))
        x
      else x).result config k = x.result config k' := by
  cases warnings.isEmpty with
  | true => exact ⟨k, rfl, fun x => rfl⟩
  | false =>
    obtain ⟨k', htold, hdisk⟩ := Keeping.result_forM_print ("   - " ++ ·) warnings config
      { k with out := k.out ++ ("⚠️  Validation warnings:" ++ "\n") }
    exact ⟨k', hdisk, fun x => Keeping.bind_of_ok htold⟩

theorem publishEnd (store : Store) (nav docs : Json) (k : Desk) :
    PublishEnd store nav k.disk ((publishNavigation store nav).result docs k).1.1
      ((publishNavigation store nav).result docs k).2 := by
  unfold publishNavigation
  rcases store.load_cases docs k with ⟨halt, docs', k₁, hload, hdisk₁⟩ |
    ⟨text, config, k₁, hload, hdisk₁, htext, hconfig⟩
  · rw [Keeping.bind_of_error hload]
    exact .failed hdisk₁
  rw [Keeping.bind_of_ok hload]
  cases Navigation.check nav with
  | error fault => exact .failed hdisk₁
  | ok warnings =>
    have hwarnings : (liftM (Job.ofExcept (.ok warnings)) :
        StoreJob (List String)).result config k₁ = ((.ok warnings, config), k₁) := rfl
    obtain ⟨k₂, hdisk₂, htold⟩ := result_warnings warnings config k₁
    rw [Keeping.bind_of_ok hwarnings, htold, Keeping.result_tryCatch]
    rw [hdisk₁] at hdisk₂
    rcases store.update_cases nav config k₂ with ⟨fault, docs', k₃, hupdate, hdisk₃, hfault⟩ |
      ⟨draft, k₃, hupdate, hdisk₃, hresult⟩
    · rw [Keeping.bind_of_error hupdate]
      exact .refused (hdisk₃.trans hdisk₂) hfault rfl
    rw [Keeping.bind_of_ok hupdate]
    rcases store.save_cases draft.docs k₃ with ⟨fault, hsave, hfault⟩ | ⟨k₄, hsave, hdisk₄⟩
    · rw [Keeping.bind_of_error hsave]
      exact .refused (hdisk₃.trans hdisk₂) hfault rfl
    · rw [Keeping.bind_of_ok hsave]
      rw [hdisk₃, hdisk₂] at hdisk₄
      exact .written htext hconfig hresult hdisk₄

theorem PublishEnd.of_result {docs docs' : Json} {e : Except Halt Bool} {k' : Desk}
    (h : (publishNavigation store nav).result docs k = ((e, docs'), k')) :
    PublishEnd store nav k.disk e k' := by
  have hend := publishEnd store nav docs k
  rwa [h] at hend

end Site

end DocSite

namespace DocSite.Site

open Page Outline Navigation

variable {r : Reference} {project : Path}

/-- The place of the configuration of a site. -/
def docsPlace (project : Path) : List String := (project / "target/docs/docs.json").place

/-- What is told when a reference is complete. -/
def completion (project : Path) (count : Nat) : String :=
  "\n" ++ rule ++ "\n" ++ ("✨ Documentation generation complete!" ++ "\n") ++
    ("   📄 Generated " ++ toString count ++ " documentation pages" ++ "\n") ++
    ("   📁 Output directory: " ++ (project / "target/docs/sdk/latest").toString ++ "\n") ++
    ("   📝 Updated navigation in: " ++ (project / "target/docs/docs.json").toString ++ "\n")

/-- The tab that the outline of a project describes. -/
def Outlined (project : Path) (disk : Disk) (tab : Tab) : Prop :=
  ∃ source document, disk.fileAt (project / "docs/public_api.opml").place = some source ∧
    Xml.parse source = .ok document ∧ readTab? .withColumnFunctions document = some tab

/-- How making a reference under the settings that come with the program can end. The
configuration of the site is only written where it is complete. -/
inductive MakeEnd (r : Reference) (project : Path) (disk : Disk) : Except Halt Unit → Desk → Prop
  | stopped {halt : Halt} {k' : Desk}
      (hdocs : k'.disk.fileAt (docsPlace project) = disk.fileAt (docsPlace project)) :
      MakeEnd r project disk (.error halt) k'
  | refused {fault : Fault} {told : String} {k' : Desk}
      (hdocs : k'.disk.fileAt (docsPlace project) = disk.fileAt (docsPlace project))
      (hfault : fault.EndsApart)
      (hout : k'.out = told ++ ("❌ Error updating navigation: " ++ fault.message ++ "\n")) :
      MakeEnd r project disk (.ok ()) k'
  | completed {tab : Tab} {count : Nat} {told text : String} {config : Json} {draft : Draft}
      {k' : Desk} (houtline : Outlined project disk tab)
      (hfresh : ∀ p ∈ tab.pages, HasPage p → (freshText? (r.shippedSetting project) p).isSome)
      (htext : disk.fileAt (docsPlace project) = some text)
      (hconfig : Json.parseChars (Text.plainNewlines text.toList) = .ok config)
      (hupdate : (Navigation.update sdkTab (build r.version
        ((tab.pages.foldl (record (r.shippedSetting project)) []).mapValues Made.json) tab)).result
          config = (.ok (), draft))
      (hfiles : ∀ q, k'.disk.fileAt q = if q = docsPlace project then some draft.docs.fileText else
        (Tree.ofFiles (pageFiles (r.shippedSetting project) tab.pages) q).or (disk.fileAt q))
      (hout : k'.out = told ++ completion project count) :
      MakeEnd r project disk (.ok ()) k'

theorem keepsDisk_load (file : Path) (reading : Reading) :
    Job.KeepsDisk (Outline.load file reading) :=
  .bind .disk fun _ => .bind (.ofExcept _) fun _ => .bind (.ofExcept _) fun _ => .pure _

theorem load_eq_ok {file : Path} {reading : Reading} {k k' : Desk} {tab : Tab}
    (h : (Outline.load file reading).result k = (.ok (some tab), k')) :
    ∃ source document, k.disk.fileAt file.place = some source ∧ Xml.parse source = .ok document ∧
      readTab? reading document = some tab := by
  obtain ⟨_, _, hdisk, h⟩ := Job.bind_eq_ok.mp h
  cases hdisk
  obtain ⟨source, _, hsource, h⟩ := Job.bind_eq_ok.mp h
  obtain ⟨hread, rfl⟩ := Job.ofExcept_eq_ok.mp hsource
  obtain ⟨document, _, hdocument, h⟩ := Job.bind_eq_ok.mp h
  obtain ⟨hparse, rfl⟩ := Job.ofExcept_eq_ok.mp hdocument
  exact ⟨source, document, Disk.read_eq_ok hread, hparse, Except.ok.inj (congrArg Prod.fst h)⟩

theorem ends_config_bind {f : Json → Job Unit} {disk : Disk} {Q : Except Halt Unit → Desk → Prop}
    (hr : r.configFile = .holding shippedConfig) (h : (f shippedConfig).Ends disk Q) :
    (r.config >>= f).Ends disk Q := by
  intro k hk
  have hconfig : r.config.result k =
      (.ok shippedConfig,
        { k with out := k.out ++ ("📋 Loaded config from config.py" ++ "\n") }) := by
    unfold Reference.config
    rw [hr]
    rfl
  rw [Job.bind_of_ok hconfig]
  exact h _ hk

/-- The configuration lies right below the directory of the site. -/
theorem docs_eq (project : Path) :
    project / "target/docs/docs.json" = project / "target/docs" / "docs.json" := by
  have htext : "target/docs/docs.json" = "target/docs" ++ "/" ++ "docs.json" := by decide
  rw [htext, Path.child_child project (by decide) (by decide) (by decide)]

theorem docsPlace_eq (project : Path) :
    docsPlace project = (project / "target/docs").place ++ ["docs.json"] := by
  rw [docsPlace, docs_eq, Path.place_child _ (by decide)]

theorem docsPlace_ne_nil (project : Path) : docsPlace project ≠ [] := by
  simp [docsPlace_eq]

/-- No page lies where the configuration of the site is. -/
theorem place_ne_docsPlace (directory : List String) (name : String) (project : Path) :
    directory ++ [slugText name ++ ".mdx"] ≠ docsPlace project := by
  rw [docsPlace_eq]
  intro h
  have hname := congrArg String.toList (List.singleton_inj.mp (List.append_inj_right' h rfl))
  have hlast := congrArg List.getLast? hname
  simp at hlast

theorem written_docsPlace (r : Reference) (project : Path) (pages : List PageItem) :
    Tree.ofFiles (pageFiles (r.shippedSetting project) pages) (docsPlace project) = none := by
  refine Tree.ofFiles_eq_none fun f hf heq => ?_
  obtain ⟨p, -, -, hplace, -⟩ := mem_pageFiles hf
  exact place_ne_docsPlace _ _ project (hplace.symm.trans heq)

/-- The last part of making a reference, when its pages are written. -/
def Reference.publish (r : Reference) (project : Path) (tab : Tab) (count : Nat)
    (generated : OrderedMap Json) : Job Unit := do
  let nav := build r.version generated tab
  if ← (publishNavigation (shippedPlan project).store nav).startingWith .null then
    Job.print ("\n" ++ rule)
    Job.print "✨ Documentation generation complete!"
    Job.print ("   📄 Generated " ++ toString count ++ " documentation pages")
    Job.print ("   📁 Output directory: " ++ (shippedPlan project).output.toString)
    Job.print ("   📝 Updated navigation in: " ++ (shippedPlan project).store.path.toString)

theorem ends_publish {disk d : Disk} {tab : Tab} (houtline : Outlined project disk tab)
    (hfresh : ∀ p ∈ tab.pages, HasPage p → (freshText? (r.shippedSetting project) p).isSome)
    (hfiles : ∀ q, d.fileAt q =
      (Tree.ofFiles (pageFiles (r.shippedSetting project) tab.pages) q).or (disk.fileAt q))
    (count : Nat) :
    (r.publish project tab count ((tab.pages.foldl (record (r.shippedSetting project)) []).mapValues
      Made.json)).Ends d (MakeEnd r project disk) := by
  have hframe : d.fileAt (docsPlace project) = disk.fileAt (docsPlace project) := by
    rw [hfiles, written_docsPlace, Option.none_or]
  unfold Reference.publish
  refine Keeping.ends_startingWith_bind (fun k halt docs k' hk hrun => ?_)
    (fun k done docs k' hk hrun => ?_)
  · cases PublishEnd.of_result hrun with
    | failed hdisk => exact .stopped (by rw [hdisk, hk, hframe])
  · cases PublishEnd.of_result hrun with
    | refused hdisk hfault hout =>
      have hsame : k'.disk.fileAt (docsPlace project) = disk.fileAt (docsPlace project) := by
        rw [hdisk, hk, hframe]
      exact .refused hsame hfault hout
    | @written text config draft _ htext hconfig hupdate hdisk =>
      have hstore : (shippedPlan project).store.path.place = docsPlace project := rfl
      rw [hk] at htext hdisk
      have hwritten (q : List String) : k'.disk.fileAt q =
          if q = docsPlace project then some draft.docs.fileText else
            (Tree.ofFiles (pageFiles (r.shippedSetting project) tab.pages) q).or
              (disk.fileAt q) := by
        rw [hdisk, hstore, Disk.fileAt_put_file (docsPlace_ne_nil project), hfiles]
      have hout : k'.out ++ ("\n" ++ rule ++ "\n") ++
          ("✨ Documentation generation complete!" ++ "\n") ++
          ("   📄 Generated " ++ toString count ++ " documentation pages" ++ "\n") ++
          ("   📁 Output directory: " ++ (project / "target/docs/sdk/latest").toString ++ "\n") ++
          ("   📝 Updated navigation in: " ++ (project / "target/docs/docs.json").toString ++ "\n") =
            k'.out ++ completion project count := by
        simp only [completion, String.append_assoc]
      exact .completed houtline hfresh (hframe.symm.trans htext) hconfig hupdate hwritten hout

theorem makeEnd (hr : r.configFile = .holding shippedConfig) (project : Path) (disk : Disk) :
    (r.make project).Ends disk (MakeEnd r project disk) := by
  have hstop (halt : Halt) (k : Desk) (hk : k.disk = disk) :
      MakeEnd r project disk (.error halt) k := .stopped (by rw [hk])
  unfold Reference.make
  refine .print_bind (.print_bind (ends_config_bind hr ?_))
  refine .ofExcept_bind (plan_shipped r project) (.disk_bind ?_)
  dsimp only
  split
  · exact .print_bind fun k hk => hstop _ k hk
  refine .print_bind (.print_bind (.print_bind (.ofExcept_bind (setting_shipped r project) ?_)))
  refine .change_bind hstop fun d hd => ?_
  -- Apart from the directory for the pages, the disk stays as it is until pages are made.
  have hmade (k : Desk) (hk : k.disk = d) (q : List String) : k.disk.fileAt q = disk.fileAt q := by
    rw [hk, Disk.makeDir_eq_ok hd, Disk.fileAt_fill]
  have hstop' (halt : Halt) (k : Desk) (hk : k.disk = d) :
      MakeEnd r project disk (.error halt) k := .stopped (hmade k hk _)
  refine .print_bind (.print_bind (.print_bind (.bind_cases (fun k halt k' hk hload => ?_) ?_)))
  · exact hstop' halt k' (((keepsDisk_load _ _).eq hload).trans hk)
  rintro k (_ | tab) k' hk hload
  · exact hstop' _ _ (((keepsDisk_load _ _).eq hload).trans hk)
  have houtline : Outlined project disk tab := by
    obtain ⟨source, document, hsource, hdocument⟩ := load_eq_ok hload
    exact ⟨source, document, (hmade k hk _).symm.trans hsource, hdocument⟩
  rw [← (keepsDisk_load _ _).eq hload] at hk
  subst hk
  refine Job.Ends.at_desk (.print_bind (.print_bind (.print_bind (.print_bind (.print_bind ?_)))))
  refine Keeping.ends_startingWith_bind (fun k halt kept k₁ hk hrun => ?_)
    (fun k ⟨count, generated⟩ kept k₁ hk hrun => Job.Ends.at_desk ?_)
  · have hdocs : ∀ p ∈ tab.pages, HasPage p →
        docsPlace project ≠ placeOf (r.shippedSetting project) p :=
      fun p _ _ => (place_ne_docsPlace _ _ project).symm
    have hframe := fileAt_generateAll rfl hdocs [] k
    rw [hrun, hmade k hk] at hframe
    exact .stopped hframe
  · obtain ⟨rfl, hfresh, hfiles⟩ := generateAll_eq_ok rfl [] hrun
    refine .print_bind (.print_bind (.print_bind ?_))
    exact ends_publish houtline hfresh (fun q => by rw [hfiles, hmade k hk]) count

theorem keepsDisk_read (m : Manual) (program : String) (args : List String) :
    Job.KeepsDisk (m.read program args) := by
  have hcomplain (line : String) : Job.KeepsDisk (Job.complain line) := fun _ => rfl
  unfold Manual.read
  split
  · exact .pure _
  · exact .bind (.forM .print _) fun _ => .exit 0
  · exact .bind (hcomplain _) fun _ => .bind (hcomplain _) fun _ => .exit 2

/-- How the program that makes the reference can end, by the project that is found. -/
def RunEnd (r : Reference) (disk : Disk) (e : Except Halt Unit) (k' : Desk) : Prop :=
  match nearestProject? disk (Disk.upTo r.cwd.place).reverse with
  | none => (∃ halt, e = .error halt) ∧ k'.disk = disk
  | some place => ∃ r' : Reference, MakeEnd r' ⟨"/", place⟩ disk e k'

theorem runEnd (hr : r.configFile = .holding shippedConfig) (program : String)
    (args : List String) (disk : Disk) : (r.run program args).Ends disk (RunEnd r disk) := by
  have hstop (halt : Halt) (k : Desk) (hk : k.disk = disk) : RunEnd r disk (.error halt) k := by
    unfold RunEnd
    split
    · exact ⟨⟨halt, rfl⟩, hk⟩
    · exact ⟨r, .stopped (by rw [hk])⟩
  unfold Reference.run
  refine .keeping_bind (keepsDisk_read _ _ _) hstop fun given => ?_
  rintro k rfl
  cases hproject : nearestProject? k.disk (Disk.upTo r.cwd.place).reverse with
  | none =>
    have hfind : (findProject r.cwd).result k = (.error (.failed (.givenUp noProject)), k) := by
      unfold findProject
      rw [Job.bind_of_ok (Job.result_disk k), hproject]
      rfl
    rw [Job.bind_of_error hfind]
    exact hstop _ k rfl
  | some place =>
    have hfind : (findProject r.cwd).result k = (.ok ⟨"/", place⟩, k) := by
      unfold findProject
      rw [Job.bind_of_ok (Job.result_disk k), hproject]
      rfl
    have hend := makeEnd (r := r.withOptions given) hr ⟨"/", place⟩ k.disk k rfl
    rw [Job.bind_of_ok hfind, Job.result_tryCatch, RunEnd, hproject]
    refine ⟨r.withOptions given, ?_⟩
    rcases hmake : ((r.withOptions given).make ⟨"/", place⟩).result k with ⟨halt | _, k'⟩
    · rw [hmake] at hend
      cases hend with
      | stopped hdocs => cases halt <;> exact .stopped hdocs
    · rw [hmake] at hend
      exact hend

/-- Whether a run ends normally, with the word that the reference is complete. -/
def Completed (project : Path) (e : Except Halt Unit) (k' : Desk) : Prop :=
  e = .ok () ∧ ∃ told count, k'.out = told ++ completion project count

theorem getLast?_docs (project : Path) :
    (project / "target/docs/docs.json").toString.toList.getLast? = some 'n' := by
  have hparts : (Path.ofString "docs.json").parts = ["docs.json"] := by decide
  rw [docs_eq, Path.child_of_relative _ (Path.root_of_head (by decide)), hparts]
  obtain ⟨before, hbefore⟩ := Path.toString_concat (project / "target/docs").root
    (project / "target/docs").parts "docs.json"
  rw [hbefore, List.getLast?_append]
  rfl

/-- The word that the reference is complete is told apart from one that the configuration cannot
be changed. -/
theorem completion_ne_refusal {fault : Fault} (hfault : fault.EndsApart) (project : Path)
    (count : Nat) (told told' : String) :
    told ++ completion project count ≠
      told' ++ ("❌ Error updating navigation: " ++ fault.message ++ "\n") := by
  intro h
  simp only [completion, ← String.append_assoc] at h
  have hlast := congrArg (fun s : String => s.toList.getLast?) ((String.append_left_inj _).mp h)
  simp only [String.toList_append, List.getLast?_append, getLast?_docs, Option.some_or] at hlast
  cases hmessage : fault.message.toList.getLast? with
  | none =>
    rw [hmessage, Option.none_or] at hlast
    cases hlast
  | some c =>
    rw [hmessage, Option.some_or] at hlast
    exact hfault (hmessage.trans hlast.symm)

theorem not_completed_of_refused {project : Path} {fault : Fault} {told : String}
    {e : Except Halt Unit} {k' : Desk} (hfault : fault.EndsApart)
    (hout : k'.out = told ++ ("❌ Error updating navigation: " ++ fault.message ++ "\n")) :
    ¬ Completed project e k' := by
  rintro ⟨-, told', count, htold⟩
  exact completion_ne_refusal hfault project count told' told (htold.symm.trans hout)

/-- The configuration of a site is written as a whole or not at all: it stays as it was unless the
run ends with the word that the reference is complete, and then it is what was there before, after
one update that succeeded. No page is ever written in its place. -/
theorem docs_all_or_nothing (s : Surroundings) (args : List String) (k : Desk) :
    let (e, k') := (Program.run s args .reference).result k
    match nearestProject? k.disk (Disk.upTo s.cwd.place).reverse with
    | none => e ≠ .ok () ∧ ∀ q, k'.disk.fileAt q = k.disk.fileAt q
    | some place =>
      let project : Path := ⟨"/", place⟩
      let docs := docsPlace project
      (∀ (r : Reference) (name : String), (r.shippedSetting project).place name ≠ docs) ∧
        (¬ Completed project e k' ∧ k'.disk.fileAt docs = k.disk.fileAt docs ∨
          Completed project e k' ∧ ∃ text config version generated tab draft,
            k.disk.fileAt docs = some text ∧
            Json.parseChars (Text.plainNewlines text.toList) = .ok config ∧
            (Navigation.update sdkTab (build version generated tab)).result config =
              (.ok (), draft) ∧
            k'.disk.fileAt docs = some draft.docs.fileText) := by
  have hend : RunEnd _ k.disk ((Program.run s args .reference).result k).1
      ((Program.run s args .reference).result k).2 := runEnd rfl s.program args k.disk k rfl
  rcases hrun : (Program.run s args .reference).result k with ⟨e, k'⟩
  rw [hrun] at hend
  unfold RunEnd at hend
  dsimp only at hend ⊢
  cases hproject : nearestProject? k.disk (Disk.upTo s.cwd.place).reverse with
  | none =>
    rw [hproject] at hend
    obtain ⟨⟨halt, rfl⟩, hdisk⟩ := hend
    exact ⟨nofun, fun q => by rw [hdisk]⟩
  | some place =>
    rw [hproject] at hend
    obtain ⟨r, hend⟩ := hend
    refine ⟨fun r name => place_ne_docsPlace _ name _, ?_⟩
    cases hend with
    | stopped hdocs =>
      refine .inl ⟨?_, hdocs⟩
      rintro ⟨⟨⟩, -⟩
    | refused hdocs hfault hout => exact .inl ⟨not_completed_of_refused hfault hout, hdocs⟩
    | completed houtline hfresh htext hconfig hupdate hfiles hout =>
      refine .inr ⟨⟨rfl, _, _, hout⟩, _, _, _, _, _, _, htext, hconfig, hupdate, ?_⟩
      rw [hfiles, if_pos rfl]

end DocSite.Site
