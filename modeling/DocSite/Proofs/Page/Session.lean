import DocSite.Proofs.Page.Publication

namespace DocSite.Page

variable {s : Setting} {path : String} {m : Api.Module} {kept kept' : List String} {k k' : Desk}

/-- The line of a module page that leads to the page of a class. -/
def classLine (name : String) : String := "- [" ++ name ++ "](./" ++ lowerText name ++ ")\n"

/-- Makes the page of one class and gives the line for it. -/
def linkClass (s : Setting) (path name : String) : PageJob String := do
  Job.print ("      📄 Generating class: " ++ name)
  if !s.makesClasses then Job.fail (α := Unit) (.noAttribute "ModulePageGenerator" "class_gen")
  let page ← classPage s (path ++ "." ++ name) []
  Keeping.keep ((← Keeping.kept) ++ [page])
  return classLine name

theorem classLinks_eq (s : Setting) (path : String) (classes : List String) :
    classLinks s path classes = do
      Keeping.keep []
      let links ← (classes.mergeSort fun a b => a ≤ b).mapM (linkClass s path)
      return String.join links ++ "\n" := rfl

theorem linkClass_eq_ok {name line : String}
    (h : (linkClass s path name).result kept k = ((.ok line, kept'), k')) :
    line = classLine name ∧ ∃ page, kept' = kept ++ [page] := by
  unfold linkClass at h
  obtain ⟨_, kept₁, k₁, hprint, h⟩ := Keeping.bind_eq_ok.mp h
  cases hprint
  simp only at h
  split at h
  · obtain ⟨_, _, _, hfail, -⟩ := Keeping.bind_eq_ok.mp h
    cases hfail
  · obtain ⟨page, kept₂, k₂, hpage, hrest⟩ := Keeping.bind_eq_ok.mp h
    obtain ⟨-, rfl⟩ := Keeping.lift_eq_ok.mp hpage
    cases hrest
    exact ⟨rfl, page, rfl⟩

theorem mapM_linkClass_eq_ok {names lines : List String}
    (h : (names.mapM (linkClass s path)).result kept k = ((.ok lines, kept'), k')) :
    lines = names.map classLine ∧ ∃ pages, pages.length = names.length ∧ kept' = kept ++ pages := by
  induction names generalizing lines kept k with
  | nil =>
    cases h
    exact ⟨rfl, [], rfl, (List.append_nil _).symm⟩
  | cons name names ih =>
    rw [List.mapM_cons] at h
    obtain ⟨line, kept₁, k₁, hline, h⟩ := Keeping.bind_eq_ok.mp h
    obtain ⟨rest, kept₂, k₂, hrest, h⟩ := Keeping.bind_eq_ok.mp h
    cases h
    obtain ⟨rfl, page, rfl⟩ := linkClass_eq_ok hline
    obtain ⟨rfl, pages, hlength, rfl⟩ := ih hrest
    exact ⟨rfl, page :: pages, by simp [hlength], by simp⟩

/-- The links that a page has to the pages of its classes. -/
def classLines (classes : List String) : String :=
  String.join ((classes.mergeSort fun a b => a ≤ b).map classLine) ++ "\n"

theorem classLinks_eq_ok {classes : List String} {links : String}
    (h : (classLinks s path classes).result kept k = ((.ok links, kept'), k')) :
    links = classLines classes ∧ kept'.length = classes.length := by
  rw [classLinks_eq] at h
  obtain ⟨_, kept₁, k₁, hkeep, h⟩ := Keeping.bind_eq_ok.mp h
  cases hkeep
  obtain ⟨lines, kept₂, k₂, hlines, h⟩ := Keeping.bind_eq_ok.mp h
  obtain ⟨rfl, pages, hlength, rfl⟩ := mapM_linkClass_eq_ok hlines
  cases h
  exact ⟨rfl, by simp [hlength]⟩

/-- What the page of a module is asked for with. -/
structure ModuleCall where
  path : String
  children? : Option (List String)
  kinds : OrderedMap String

namespace ModuleCall

variable {c : ModuleCall}

def job (c : ModuleCall) (s : Setting) : PageJob Json := modulePage s c.path c.children? c.kinds

/-- The classes among the names that are listed for a module, by the call or else by the module
itself. -/
def classes (c : ModuleCall) (m : Api.Module) : List String :=
  classNames m ((c.children?.or m.children?).getD [])

/-- What the page holds below its heading. -/
def contents (c : ModuleCall) (s : Setting) (m : Api.Module) : PageJob String :=
  moduleContents s c.path m ((c.children?.or m.children?).getD []) (c.children?.getD []) c.kinds

/-- The text of the page around what the module holds. -/
def text (c : ModuleCall) (s : Setting) (m : Api.Module) (contents : String) : String :=
  frontmatter (Api.lastPart c.path) "square-m" (moduleAddress? s.repository m) ++
    "# " ++ Mdx.label "module" ++ " " ++ c.path ++ "\n\n" ++
    (match m.doc? with
      | some d => "\n" ++ Mdx.escapeText d ++ "\n\n"
      | none => missingNote s.showErrors c.path) ++ contents

/-- What a call gives for the path of its page, with the class pages that are remembered. -/
def entry (kept : List String) (page : String) : Json :=
  if kept.isEmpty then .str page else .ofTexts (page :: kept)

theorem job_of_loaded (hload : s.world.load c.path = .ok m) :
    c.job s = do
      let contents ← c.contents s m
      let page ← s.publish (Api.lastPart c.path) (c.text s m contents)
      return entry (← Keeping.kept) page := by
  unfold job modulePage
  rw [hload]
  rfl

/-- What follows once it is known what the page holds. -/
theorem result_rest (text : String) (name : String) (kept : List String) (k : Desk) :
    (do let page ← s.publish name text
        return entry (← Keeping.kept) page : PageJob Json).result kept k =
      ((((s.publish name text).result k).1.map (entry kept), kept),
        ((s.publish name text).result k).2) := by
  rw [Keeping.result_bind, Keeping.result_lift]
  rcases (s.publish name text).result k with ⟨r, k'⟩
  cases r <;> rfl

/-- The links to the classes that are listed, if there are any. -/
def links (c : ModuleCall) (s : Setting) (m : Api.Module) : PageJob String :=
  if (c.classes m).isEmpty then pure "" else classLinks s c.path (c.classes m)

theorem contents_eq (c : ModuleCall) (s : Setting) (m : Api.Module) :
    c.contents s m = do
      let links ← c.links s m
      let functions ← Job.ofHalting (moduleFunctions s c.path m (c.children?.getD []) c.kinds)
      return links ++ functions := by
  unfold contents moduleContents links classes
  dsimp only
  split <;> rfl

theorem links_of_classes (hclasses : c.classes m ≠ []) (kept : List String) (k : Desk) :
    (c.links s m).result kept k = (c.links s m).result [] k := by
  rw [links, if_neg (by simpa using hclasses)]
  rfl

theorem links_of_no_classes (hclasses : c.classes m = []) : c.links s m = pure "" := by
  rw [links, hclasses]
  rfl

/-- Pages of classes that were made before are forgotten where classes are listed. -/
theorem result_of_classes (hload : s.world.load c.path = .ok m) (hclasses : c.classes m ≠ [])
    (kept : List String) (k : Desk) : (c.job s).result kept k = (c.job s).result [] k := by
  simp only [job_of_loaded hload, contents_eq, Keeping.result_bind, links_of_classes hclasses kept]

/-- Where no class is listed nothing is done but the work on the page itself. Pages of classes that
were made before are remembered, and come with the page. -/
theorem result_of_no_classes (hload : s.world.load c.path = .ok m) (hclasses : c.classes m = []) :
    ∃ x : Job String, ∀ kept k, (c.job s).result kept k =
      (((x.result k).1.map (entry kept), kept), (x.result k).2) := by
  rw [job_of_loaded hload, contents_eq, links_of_no_classes hclasses]
  cases moduleFunctions s c.path m (c.children?.getD []) c.kinds with
  | error halt => exact ⟨throw halt, fun kept k => rfl⟩
  | ok functions => exact ⟨s.publish _ (c.text s m ("" ++ functions)), result_rest _ _⟩

theorem result_of_unloaded {fault : Fault} (hload : s.world.load c.path = .error fault) :
    ∃ x : Job Json, ∀ kept k,
      (c.job s).result kept k = (((x.result k).1, kept), (x.result k).2) := by
  unfold job modulePage
  rw [hload]
  cases fault with
  | noModule reason =>
    let name := Api.lastPart c.path
    refine ⟨.str <$> s.publish name (moduleFailure name c.path reason), fun kept k => ?_⟩
    rw [map_eq_pure_bind, Job.result_bind, Keeping.result_bind, Keeping.result_lift]
    rcases (s.publish name (moduleFailure name c.path reason)).result k with ⟨r, k'⟩
    cases r <;> rfl
  | _ => exact ⟨throw (.failed _), fun kept k => rfl⟩

theorem links_eq_ok {links : String}
    (h : (c.links s m).result kept k = ((.ok links, kept'), k')) :
    links = (if (c.classes m).isEmpty then "" else classLines (c.classes m)) ∧
      (c.classes m ≠ [] → kept' ≠ []) := by
  by_cases hclasses : c.classes m = []
  · rw [links_of_no_classes hclasses] at h
    cases h
    simp [hclasses]
  · rw [ModuleCall.links, if_neg (by simpa using hclasses)] at h
    obtain ⟨rfl, hlength⟩ := classLinks_eq_ok h
    refine ⟨by simp [hclasses], fun hne hnil => hne ?_⟩
    rw [hnil] at hlength
    exact List.length_eq_zero_iff.mp hlength.symm

/-- What a page holds once all class pages that are listed with it have been made. -/
theorem contents_eq_ok {contents : String}
    (h : (c.contents s m).result kept k = ((.ok contents, kept'), k')) :
    (∃ functions, moduleFunctions s c.path m (c.children?.getD []) c.kinds = .ok functions ∧
      contents = (if (c.classes m).isEmpty then "" else classLines (c.classes m)) ++ functions) ∧
      (c.classes m ≠ [] → kept' ≠ []) := by
  rw [contents_eq] at h
  obtain ⟨links, kept₁, k₁, hlinks, hrest⟩ := Keeping.bind_eq_ok.mp h
  obtain ⟨functions, kept₂, k₂, hfunctions, hpure⟩ := Keeping.bind_eq_ok.mp hrest
  cases hpure
  obtain ⟨hhalting, rfl⟩ := Keeping.lift_eq_ok.mp hfunctions
  obtain ⟨hfunctions, -⟩ := Job.ofHalting_eq_ok.mp hhalting
  obtain ⟨rfl, hkept⟩ := links_eq_ok hlinks
  exact ⟨⟨functions, hfunctions, rfl⟩, hkept⟩

/-- The parts of a page that was made for a module. -/
theorem job_eq_ok (hload : s.world.load c.path = .ok m) {nav : Json}
    (h : (c.job s).result kept k = ((.ok nav, kept'), k')) :
    ∃ contents k₁ page, (c.contents s m).result kept k = ((.ok contents, kept'), k₁) ∧
      (s.publish (Api.lastPart c.path) (c.text s m contents)).result k₁ = (.ok page, k') := by
  rw [job_of_loaded hload] at h
  obtain ⟨contents, kept₁, k₁, hcontents, hrest⟩ := Keeping.bind_eq_ok.mp h
  obtain ⟨page, kept₂, k₂, hpublish, hentry⟩ := Keeping.bind_eq_ok.mp hrest
  cases hentry
  obtain ⟨hpage, rfl⟩ := Keeping.lift_eq_ok.mp hpublish
  exact ⟨contents, k₁, page, hcontents, hpage⟩

/-- Where classes are listed and all goes well, their pages are remembered. -/
theorem kept_ne_nil (hload : s.world.load c.path = .ok m) (hclasses : c.classes m ≠ [])
    {nav : Json} (h : (c.job s).result kept k = ((.ok nav, kept'), k')) : kept' ≠ [] := by
  obtain ⟨contents, k₁, page, hcontents, -⟩ := job_eq_ok hload h
  exact (contents_eq_ok hcontents).2 hclasses

/-- The file of a page is the same whenever the page is made. -/
theorem exists_page_text (c : ModuleCall) (s : Setting) :
    ∃ text, ∀ kept k nav kept' k', (c.job s).result kept k = ((.ok nav, kept'), k') →
      k'.disk.fileAt (s.place (Api.lastPart c.path)) = some text := by
  cases hload : s.world.load c.path with
  | error fault =>
    cases fault with
    | noModule reason =>
      refine ⟨moduleFailure (Api.lastPart c.path) c.path reason, fun kept k nav kept' k' h => ?_⟩
      unfold job modulePage at h
      rw [hload] at h
      obtain ⟨page, _, _, hpublish, hpure⟩ := Keeping.bind_eq_ok.mp h
      cases hpure
      exact fileAt_publish (Keeping.lift_eq_ok.mp hpublish).1
    | _ =>
      refine ⟨"", fun kept k nav kept' k' h => ?_⟩
      unfold job modulePage at h
      rw [hload] at h
      cases h
  | ok m =>
    cases hfunctions : moduleFunctions s c.path m (c.children?.getD []) c.kinds with
    | error halt =>
      refine ⟨"", fun kept k nav kept' k' h => ?_⟩
      obtain ⟨contents, k₁, page, hcontents, -⟩ := job_eq_ok hload h
      obtain ⟨⟨functions, hok, -⟩, -⟩ := contents_eq_ok hcontents
      rw [hfunctions] at hok
      cases hok
    | ok functions =>
      refine ⟨c.text s m ((if (c.classes m).isEmpty then "" else classLines (c.classes m)) ++
        functions), fun kept k nav kept' k' h => ?_⟩
      obtain ⟨contents, k₁, page, hcontents, hpublish⟩ := job_eq_ok hload h
      obtain ⟨⟨functions', hok, rfl⟩, -⟩ := contents_eq_ok hcontents
      obtain rfl : functions = functions' := Except.ok.inj (hfunctions.symm.trans hok)
      exact fileAt_publish hpublish

/-- Whether the module of a call can be loaded and classes are listed for it. -/
def ListsClasses (c : ModuleCall) (s : Setting) : Prop :=
  ∃ m, s.world.load c.path = .ok m ∧ c.classes m ≠ []

/-- Whether the module of a call can be loaded and no classes are listed for it. -/
def ListsNone (c : ModuleCall) (s : Setting) : Prop :=
  ∃ m, s.world.load c.path = .ok m ∧ c.classes m = []

/-- A call without classes leaves what is remembered. -/
theorem kept_of_not_listsClasses (h : ¬ c.ListsClasses s) (kept : List String) (k : Desk) :
    ((c.job s).result kept k).1.2 = kept := by
  cases hload : s.world.load c.path with
  | error fault =>
    obtain ⟨x, hx⟩ := result_of_unloaded hload
    rw [hx]
  | ok m =>
    have hclasses : c.classes m = [] := Decidable.byContradiction fun hne => h ⟨m, hload, hne⟩
    obtain ⟨x, hx⟩ := result_of_no_classes hload hclasses
    rw [hx]

/-- The path of a page without classes comes with the class pages that are remembered. -/
theorem result_of_listsNone (h : c.ListsNone s) (kept : List String) {nav : Json}
    (hfresh : ((c.job s).result [] k).1.1 = .ok nav) :
    ∃ page, nav = .str page ∧ ((c.job s).result kept k).1.1 = .ok (entry kept page) := by
  obtain ⟨m, hload, hclasses⟩ := h
  obtain ⟨x, hx⟩ := result_of_no_classes hload hclasses
  rw [hx] at hfresh ⊢
  rcases hpage : (x.result k).1 with halt | page
  · rw [hpage] at hfresh
    cases hfresh
  · rw [hpage] at hfresh
    exact ⟨page, (Except.ok.inj hfresh).symm, rfl⟩

/-- What a call leaves on the desk does not depend on what is remembered. What it gives does if no
class is listed for its module. -/
theorem result_eq_fresh_iff (c : ModuleCall) (s : Setting) (kept : List String) (k : Desk) :
    let used := (c.job s).result kept k
    let fresh := (c.job s).result [] k
    used.2 = fresh.2 ∧
      (used.1.1 = fresh.1.1 ↔ ¬ (c.ListsNone s ∧ kept ≠ [] ∧ ∃ nav, fresh.1.1 = .ok nav)) := by
  intro used fresh
  cases hload : s.world.load c.path with
  | error fault =>
    obtain ⟨x, hx⟩ := result_of_unloaded hload
    have hnone : ¬ c.ListsNone s := by rintro ⟨m, hm, -⟩; simp [hload] at hm
    simp [used, fresh, hx, hnone]
  | ok m =>
    by_cases hclasses : c.classes m = []
    · obtain ⟨x, hx⟩ := result_of_no_classes hload hclasses
      have hnone : c.ListsNone s := ⟨m, hload, hclasses⟩
      simp only [used, fresh, hx, hnone, true_and]
      rcases x.result k with ⟨halt | page, k'⟩
      · simp [Except.map]
      · cases kept <;> simp [Except.map, entry, Json.ofTexts]
    · have hnone : ¬ c.ListsNone s := by
        rintro ⟨m', hm', hempty⟩
        rw [hload] at hm'
        cases hm'
        exact hclasses hempty
      simp [used, fresh, result_of_classes hload hclasses kept k, hnone]

end ModuleCall

/-- What a generator of pages remembers, and its desk, after some calls. Each call is made whatever
became of those before it. -/
def after (s : Setting) (calls : List ModuleCall) (state : List String × Desk) :
    List String × Desk :=
  calls.foldl (fun state c =>
    (((c.job s).result state.1 state.2).1.2, ((c.job s).result state.1 state.2).2)) state

theorem kept_after {calls : List ModuleCall} (h : ∀ c ∈ calls, ¬ c.ListsClasses s)
    (state : List String × Desk) : (after s calls state).1 = state.1 := by
  induction calls generalizing state with
  | nil => rfl
  | cons c calls ih =>
    obtain ⟨hc, hcalls⟩ := List.forall_mem_cons.mp h
    exact (ih hcalls _).trans (c.kept_of_not_listsClasses hc state.1 state.2)

theorem after_append (s : Setting) (before later : List ModuleCall) (state : List String × Desk) :
    after s (before ++ later) state = after s later (after s before state) :=
  List.foldl_append

/-- A call for a module page leaves what it would leave on a generator that has made none before,
and the file of the page is always the same. What the call gives is the same but where no class is
listed for the module and class pages are remembered: then these come with the page. None are
remembered if no call had a class listed, and some are if the last that had did well. -/
theorem module_page_as_fresh_iff (s : Setting) (calls : List ModuleCall) (c : ModuleCall)
    (k : Desk) :
    let state := after s calls ([], k)
    let used := (c.job s).result state.1 state.2
    let fresh := (c.job s).result [] state.2
    used.2 = fresh.2 ∧
      (∃ text, ∀ kept k nav kept' k', (c.job s).result kept k = ((.ok nav, kept'), k') →
        k'.disk.fileAt (s.place (Api.lastPart c.path)) = some text) ∧
      (used.1.1 = fresh.1.1 ↔
        ¬ (c.ListsNone s ∧ state.1 ≠ [] ∧ ∃ nav, fresh.1.1 = .ok nav)) ∧
      (c.ListsNone s → ∀ nav, fresh.1.1 = .ok nav →
        ∃ page, nav = .str page ∧ used.1.1 = .ok (ModuleCall.entry state.1 page)) ∧
      ((∀ e ∈ calls, ¬ e.ListsClasses s) → state.1 = []) ∧
      ∀ before e later nav, calls = before ++ e :: later → e.ListsClasses s →
        (∀ e' ∈ later, ¬ e'.ListsClasses s) →
        ((e.job s).result (after s before ([], k)).1 (after s before ([], k)).2).1.1 = .ok nav →
        state.1 ≠ [] := by
  intro state used fresh
  obtain ⟨hdesk, hnav⟩ := c.result_eq_fresh_iff s state.1 state.2
  refine ⟨hdesk, c.exists_page_text s, hnav, fun h nav => ModuleCall.result_of_listsNone h state.1,
    fun h => kept_after h _, ?_⟩
  rintro before e later nav rfl ⟨m, hload, hclasses⟩ hlater hok
  rcases hresult : (e.job s).result (after s before ([], k)).1 (after s before ([], k)).2 with
    ⟨⟨r, kept⟩, k'⟩
  have hkept : state.1 = kept := by
    simp only [state]
    rw [after_append]
    exact (kept_after hlater _).trans (by simp [hresult])
  rw [hresult] at hok
  obtain rfl : r = .ok nav := hok
  rw [hkept]
  exact ModuleCall.kept_ne_nil hload hclasses hresult

/-- A world of two modules, the first of which has a class. -/
def classAndBare : Setting where
  aids := ⟨fun _ => ⟨none, none, none, [], none, [], []⟩, .absent⟩
  world := [
    ⟨"a", none, [("C", .cls ⟨"C", some "a", .absent, [], .plain, [], []⟩ [])], .refused, none, none,
      []⟩,
    ⟨"b", none, [], .refused, none, none, []⟩]
  version := "latest"
  showErrors := false
  repository := "pixeltable/pixeltable"
  output := ["out"]
  hidden := []
  makesClasses := true

/-- The generator after the page of the first module. -/
def afterClass : List String × Desk :=
  after classAndBare [⟨"a", some ["C"], []⟩] ([], .on .empty)

/-- The page of the second module comes with the class of the first. -/
theorem bare_module_lists_other_class :
    let call : ModuleCall := ⟨"b", none, []⟩
    (((call.job classAndBare).result afterClass.1 afterClass.2).1.1.toOption.map fun nav =>
        nav.items.map Json.str?) = some [some "sdk/latest/b", some "sdk/latest/c"] ∧
      (((call.job classAndBare).result [] afterClass.2).1.1.toOption.bind Json.str?) =
        some "sdk/latest/b" := by
  decide +kernel

end DocSite.Page
