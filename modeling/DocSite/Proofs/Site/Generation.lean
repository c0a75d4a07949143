import DocSite.Proofs.Navigation.Outline
import DocSite.Proofs.Page.Publication
import DocSite.Site.Reference
import Mathlib.Data.List.Count

namespace DocSite

theorem OrderedMap.mapValues_set {α β : Type} (f : α → β) (key : String) (v : α)
    (m : OrderedMap α) : mapValues f (set key v m) = set key (f v) (mapValues f m) := by
  induction m with
  | nil => rfl
  | cons entry rest ih =>
    obtain ⟨k, w⟩ := entry
    by_cases h : k = key
    · simp [mapValues, set, h]
    · simpa [mapValues, set, h] using ih

namespace Site

open Page Outline Navigation

variable {s : Setting} {p : PageItem} {pages : List PageItem} {k k' : Desk} {q : List String}

/-- Whether an item of an outline is of a kind that has pages. -/
def HasPage (p : PageItem) : Prop := p.kind = "module" ∨ p.kind = "class"

instance : DecidablePred HasPage := fun p =>
  inferInstanceAs (Decidable (p.kind = "module" ∨ p.kind = "class"))

/-- The place of the page of an item. -/
def placeOf (s : Setting) (p : PageItem) : List String := s.place (Api.lastPart p.path)

/-- The path of the page of an item on the site. -/
def pathOf (s : Setting) (p : PageItem) : String := sitePath s.version (Api.lastPart p.path)

section Step

theorem makes_generate (hs : s.makesClasses = false) (hp : HasPage p) :
    Makes s (Api.lastPart p.path) (some ∘ Json.str) (generate s p) := by
  unfold generate
  rcases hp with hp | hp
  · rw [hp]
    exact (makes_modulePage hs p.path p.children? _).andThen (g := some) fun _ _ => rfl
  · rw [hp]
    have hpage := Makes.lift (publishes_classPage s p.path (p.children?.getD []))
    exact hpage.andThen (g := some ∘ Json.str) fun _ _ => rfl

theorem generate_of_not_hasPage (hp : ¬ HasPage p) (k : Desk) :
    ∃ k', (generate s p).result [] k = ((.ok none, []), k') ∧ k'.disk = k.disk := by
  obtain ⟨hmodule, hclass⟩ := not_or.mp hp
  unfold generate
  split
  · exact absurd ‹_› hmodule
  · exact absurd ‹_› hclass
  · exact ⟨_, rfl, rfl⟩
  · exact ⟨_, rfl, rfl⟩

/-- The text of the page of an item, as it is written where nothing is. -/
def freshText? (s : Setting) (p : PageItem) : Option String :=
  ((generate s p).result [] (.on .empty)).2.disk.fileAt (placeOf s p)

/-- No file but that of its page changes when an item is worked on, however that ends. -/
theorem fileAt_generate (hs : s.makesClasses = false) (hq : HasPage p → q ≠ placeOf s p)
    (k : Desk) : ((generate s p).result [] k).2.disk.fileAt q = k.disk.fileAt q := by
  by_cases hp : HasPage p
  · rcases makes_generate hs hp with ⟨halt, hhalt⟩ | ⟨text, htext⟩
    · obtain ⟨kept, k₁, hdisk, hk₁⟩ := hhalt k
      rw [hk₁, hdisk]
    · obtain ⟨k₁, hdisk, hk₁⟩ := htext k
      rw [hk₁, ← hdisk]
      exact keepsFile_publish (hq hp) text k₁
  · obtain ⟨k₁, hk₁, hdisk⟩ := generate_of_not_hasPage (s := s) hp k
    rw [hk₁, hdisk]

/-- The page of an item whose work succeeds is there afterwards, with the text that it is given
where nothing is. -/
theorem generate_eq_ok (hs : s.makesClasses = false) (hp : HasPage p) {made : Option Json}
    {kept : List String} (h : (generate s p).result [] k = ((.ok made, kept), k')) :
    kept = [] ∧ made = some (.str (pathOf s p)) ∧
      ∃ text, freshText? s p = some text ∧ k'.disk.fileAt (placeOf s p) = some text := by
  rcases makes_generate hs hp with ⟨halt, hhalt⟩ | ⟨text, htext⟩
  · obtain ⟨_, k₁, -, hk₁⟩ := hhalt k
    rw [hk₁] at h
    cases h
  · obtain ⟨k₁, -, hk₁⟩ := htext k
    rw [hk₁] at h
    rcases hpublish : (s.publish (Api.lastPart p.path) text).result k₁ with ⟨page | page, k₂⟩
    · rw [hpublish] at h
      cases h
    · rw [hpublish] at h
      cases h
      obtain ⟨rfl, -⟩ := publish_eq_ok.mp hpublish
      obtain ⟨k₀, hempty, hk₀⟩ := htext (.on .empty)
      refine ⟨rfl, rfl, text, ?_, fileAt_publish hpublish⟩
      rw [freshText?, hk₀]
      exact publish_empty hpublish hempty

/-- The file that is written for an item. -/
def pageFile (s : Setting) (p : PageItem) : List (List String × String) :=
  if HasPage p then (freshText? s p).toList.map (placeOf s p, ·) else []

theorem generate_step (hs : s.makesClasses = false) {made : Option Json} {kept : List String}
    (h : (generate s p).result [] k = ((.ok made, kept), k')) :
    kept = [] ∧ made = (if HasPage p then some (.str (pathOf s p)) else none) ∧
      (HasPage p → (freshText? s p).isSome) ∧
      ∀ q, k'.disk.fileAt q = (Tree.ofFiles (pageFile s p) q).or (k.disk.fileAt q) := by
  by_cases hp : HasPage p
  · obtain ⟨rfl, rfl, text, hfresh, hfile⟩ := generate_eq_ok hs hp h
    refine ⟨rfl, by rw [if_pos hp], fun _ => by rw [hfresh]; rfl, fun q => ?_⟩
    by_cases hq : q = placeOf s p
    · simp [hq, hfile, pageFile, hp, hfresh, Tree.ofFiles]
    · have hframe := fileAt_generate hs (fun _ => hq) k
      rw [h] at hframe
      simp [hframe, pageFile, hp, hfresh, Tree.ofFiles, Ne.symm hq]
  · obtain ⟨k₁, hk₁, hdisk⟩ := generate_of_not_hasPage (s := s) hp k
    rw [hk₁] at h
    cases h
    refine ⟨rfl, by rw [if_neg hp], fun h => absurd h hp, fun q => ?_⟩
    simp [hdisk, pageFile, hp, Tree.ofFiles]

end Step

section Run

variable {made : OrderedMap Made}

/-- The files that are written for a list of items. -/
def pageFiles (s : Setting) (pages : List PageItem) : List (List String × String) :=
  pages.flatMap (pageFile s)

/-- What was made, with the page of one more item. -/
def record (s : Setting) (made : OrderedMap Made) (p : PageItem) : OrderedMap Made :=
  if HasPage p then made.set p.path (.page (pathOf s p)) else made

/-- No files but those of pages change when items are worked on, however that ends. -/
theorem fileAt_generateAll (hs : s.makesClasses = false)
    (hq : ∀ p ∈ pages, HasPage p → q ≠ placeOf s p) (generated : OrderedMap Json) (k : Desk) :
    ((generateAll s generated pages).result [] k).2.disk.fileAt q = k.disk.fileAt q := by
  induction pages generalizing generated k with
  | nil => rfl
  | cons p ps ih =>
    obtain ⟨hp, hps⟩ := List.forall_mem_cons.mp hq
    have hstep := fileAt_generate hs hp k
    unfold generateAll
    rcases hgenerate : (generate s p).result [] k with ⟨⟨halt | made, kept⟩, k₁⟩
    · rw [hgenerate] at hstep
      rw [Keeping.bind_of_error hgenerate]
      exact hstep
    · obtain ⟨rfl, -⟩ := generate_step hs hgenerate
      rw [hgenerate] at hstep
      rw [Keeping.bind_of_ok hgenerate]
      cases made with
      | none => exact (ih hps generated k₁).trans hstep
      | some page =>
        have hrest := ih hps (generated.set p.path page) k₁
        rcases hps : (generateAll s (generated.set p.path page) ps).result [] k₁
          with ⟨⟨halt | ⟨count, later⟩, kept⟩, k₂⟩
        · rw [hps] at hrest
          rw [Keeping.bind_of_error hps]
          exact hrest.trans hstep
        · rw [hps] at hrest
          rw [Keeping.bind_of_ok hps]
          exact hrest.trans hstep

/-- What is left where all items are worked on without failure: their pages are recorded, and
their files are written over what was there. -/
theorem generateAll_eq_ok (hs : s.makesClasses = false) (made : OrderedMap Made) {count : Nat}
    {generated : OrderedMap Json} {kept : List String}
    (h : (generateAll s (made.mapValues Made.json) pages).result [] k =
      ((.ok (count, generated), kept), k')) :
    generated = (pages.foldl (record s) made).mapValues Made.json ∧
      (∀ p ∈ pages, HasPage p → (freshText? s p).isSome) ∧
      ∀ q, k'.disk.fileAt q = (Tree.ofFiles (pageFiles s pages) q).or (k.disk.fileAt q) := by
  induction pages generalizing made count k with
  | nil =>
    cases h
    exact ⟨rfl, by simp, fun q => rfl⟩
  | cons p ps ih =>
    unfold generateAll at h
    obtain ⟨page?, kept₁, k₁, hgenerate, h⟩ := Keeping.bind_eq_ok.mp h
    obtain ⟨rfl, rfl, hfresh, hdisk⟩ := generate_step hs hgenerate
    -- the items that are left start from what is recorded with this one
    obtain ⟨count', h⟩ : ∃ count',
        (generateAll s ((record s made p).mapValues Made.json) ps).result [] k₁ =
          ((.ok (count', generated), kept), k') := by
      unfold record
      by_cases hp : HasPage p
      · simp only [hp, if_true] at h ⊢
        obtain ⟨⟨count', later⟩, kept₂, k₂, hps, heq⟩ := Keeping.bind_eq_ok.mp h
        cases heq
        rw [OrderedMap.mapValues_set]
        exact ⟨count', hps⟩
      · simp only [hp, if_false] at h ⊢
        exact ⟨count, h⟩
    obtain ⟨hgenerated, hfreshs, hdisks⟩ := ih _ h
    refine ⟨hgenerated, List.forall_mem_cons.mpr ⟨hfresh, hfreshs⟩, fun q => ?_⟩
    have hfiles : pageFiles s (p :: ps) = pageFile s p ++ pageFiles s ps := List.flatMap_cons
    rw [hdisks, hdisk, hfiles, Tree.ofFiles_append, Option.or_assoc]

/-- Of every path, what was recorded for it last counts, and that is its page. -/
theorem get?_foldl_record (path : String) :
    (pages.foldl (record s) made).get? path =
      if ∃ p ∈ pages, HasPage p ∧ p.path = path then
        some (.page (sitePath s.version (Api.lastPart path)))
      else made.get? path := by
  induction pages generalizing made with
  | nil => simp
  | cons p ps ih =>
    rw [List.foldl_cons, ih]
    by_cases hlater : ∃ p ∈ ps, HasPage p ∧ p.path = path
    · obtain ⟨p', hp', hhas, hpath⟩ := hlater
      rw [if_pos ⟨p', hp', hhas, hpath⟩, if_pos ⟨p', List.mem_cons_of_mem _ hp', hhas, hpath⟩]
    · rw [if_neg hlater]
      by_cases hp : HasPage p ∧ p.path = path
      · obtain ⟨hhas, rfl⟩ := hp
        rw [if_pos ⟨p, List.mem_cons_self, hhas, rfl⟩, record, if_pos hhas,
          OrderedMap.get?_set_self, pathOf]
      · have hnone : ¬ ∃ p' ∈ p :: ps, HasPage p' ∧ p'.path = path := by
          rintro ⟨p', hp', h⟩
          rcases List.mem_cons.mp hp' with rfl | hp'
          · exact hp h
          · exact hlater ⟨p', hp', h⟩
        rw [if_neg hnone, record]
        split
        · rename_i hhas
          exact OrderedMap.get?_set_of_ne (fun h => hp ⟨hhas, h.symm⟩) _ _
        · rfl

/-- The paths that are listed are those of the pages. -/
theorem mem_pathsOf_record {path : String} :
    path ∈ pathsOf (pages.foldl (record s) []) pages ↔
      ∃ p ∈ pages, HasPage p ∧ path = pathOf s p := by
  constructor
  · intro h
    obtain ⟨p, -, hpath⟩ := List.mem_flatMap.mp h
    rw [get?_foldl_record] at hpath
    split at hpath
    · rename_i hexists
      obtain ⟨p', hp', hhas, heq⟩ := hexists
      refine ⟨p', hp', hhas, ?_⟩
      rw [pathOf, heq]
      exact List.mem_singleton.mp hpath
    · cases hpath
  · rintro ⟨p, hp, hhas, rfl⟩
    refine List.mem_flatMap.mpr ⟨p, hp, ?_⟩
    rw [get?_foldl_record, if_pos ⟨p, hp, hhas, rfl⟩]
    exact List.mem_singleton.mpr rfl

end Run

section Shipped

theorem setting_eq_ok {r : Reference} {plan : Plan} (h : r.setting plan = .ok s) :
    s.makesClasses = false ∧ s.version = r.version ∧ s.output = plan.output.place := by
  obtain ⟨_, -, h⟩ := Attempt.bind_eq_ok.mp h
  obtain ⟨_, -, h⟩ := Attempt.bind_eq_ok.mp h
  obtain ⟨hidden, -, h⟩ := Attempt.bind_eq_ok.mp h
  dsimp only at h
  split at h
  · obtain ⟨_, -, h⟩ := Attempt.bind_eq_ok.mp h
    cases h
    exact ⟨rfl, rfl, rfl⟩
  · cases h
    exact ⟨rfl, rfl, rfl⟩

theorem resolve_rooted {path rest : String}
    (h : path.startsWith "/" = true ∧ String.ofList (path.toList.dropWhile (· = '/')) = rest)
    (project program : Path) : resolve project program path = project / rest := by
  rw [resolve, if_pos h.1, h.2]

/-- The plan that the settings which come with the program give for a project. -/
def shippedPlan (project : Path) : Plan :=
  ⟨project / "docs/public_api.opml", project / "target/docs/sdk/latest",
    ⟨project / "target/docs/docs.json", "Pixeltable SDK"⟩, shippedConfig⟩

theorem plan_shipped (r : Reference) (project : Path) :
    r.plan project shippedConfig = .ok (shippedPlan project) := by
  have houtline : resolve project r.program "/docs/public_api.opml" =
      project / "docs/public_api.opml" := resolve_rooted (by decide +kernel) _ _
  have houtput : resolve project r.program "/target/docs/sdk/latest" =
      project / "target/docs/sdk/latest" := resolve_rooted (by decide +kernel) _ _
  have hdocs : resolve project r.program "/target/docs/docs.json" =
      project / "target/docs/docs.json" := resolve_rooted (by decide +kernel) _ _
  rw [shippedPlan, ← houtline, ← houtput, ← hdocs]
  rfl

/-- What the pages have in common under the settings that come with the program. -/
def Reference.shippedSetting (r : Reference) (project : Path) : Setting where
  aids := r.aids
  world := r.world
  version := r.version
  showErrors := !r.quiet
  repository := "pixeltable/pixeltable"
  output := (project / "target/docs/sdk/latest").place
  hidden := (shippedConfig.field "internal_blacklist").strings
  makesClasses := false

theorem setting_shipped (r : Reference) (project : Path) :
    r.setting (shippedPlan project) = .ok (r.shippedSetting project) := by
  rw [Reference.shippedSetting, ← Bool.and_true (!r.quiet)]
  rfl

/-- A reference of no modules at all. -/
def emptyReference : Reference :=
  ⟨⟨fun _ => .empty, .absent⟩, [], ⟨"/", ["program"]⟩, .holding shippedConfig, ⟨"/", ["project"]⟩,
    "latest", false⟩

end Shipped

section Overwriting

variable {made : OrderedMap Made}

theorem mem_pageFiles {place : List String} {text : String}
    (h : (place, text) ∈ pageFiles s pages) :
    ∃ p ∈ pages, HasPage p ∧ place = placeOf s p ∧ freshText? s p = some text := by
  obtain ⟨p, hp, hfile⟩ := List.mem_flatMap.mp h
  unfold pageFile at hfile
  split at hfile
  · rename_i hhas
    obtain ⟨text', htext, heq⟩ := List.mem_map.mp hfile
    cases heq
    exact ⟨p, hp, hhas, rfl, Option.mem_toList.mp htext⟩
  · cases hfile

/-- Pages that lie in one place are found under one path. -/
theorem pathOf_eq_of_placeOf_eq {p p' : PageItem} (h : placeOf s p = placeOf s p') :
    pathOf s p = pathOf s p' := by
  have hname := List.singleton_inj.mp (List.append_cancel_left h)
  rw [pathOf, pathOf, sitePath, sitePath, (String.append_left_inj _).mp hname]

/-- Where every page has its text, each is written. -/
theorem map_fst_pageFiles (hfresh : ∀ p ∈ pages, HasPage p → (freshText? s p).isSome) :
    (pageFiles s pages).map Prod.fst = (pages.filter HasPage).map (placeOf s) := by
  induction pages with
  | nil => rfl
  | cons p ps ih =>
    obtain ⟨hp, hps⟩ := List.forall_mem_cons.mp hfresh
    rw [pageFiles, List.flatMap_cons, List.map_append, ← pageFiles, ih hps, pageFile]
    by_cases hhas : HasPage p
    · obtain ⟨text, htext⟩ := Option.isSome_iff_exists.mp (hp hhas)
      simp [hhas, htext]
    · simp [hhas]

/-- A place is written no more often than the path of its page is listed. -/
theorem count_placeOf_le (p : PageItem)
    (hmade : ∀ p ∈ pages, HasPage p → made.get? p.path = some (.page (pathOf s p))) :
    ((pages.filter HasPage).map (placeOf s)).count (placeOf s p) ≤
      (pathsOf made pages).count (pathOf s p) := by
  induction pages with
  | nil => exact Nat.le_refl 0
  | cons p' ps ih =>
    obtain ⟨hp', hps⟩ := List.forall_mem_cons.mp hmade
    rw [pathsOf, List.flatMap_cons, List.count_append, ← pathsOf]
    by_cases hhas : HasPage p'
    · rw [List.filter_cons_of_pos (by simpa using hhas), List.map_cons, List.count_cons, hp' hhas]
      by_cases hplace : placeOf s p' = placeOf s p
      · have hpath := pathOf_eq_of_placeOf_eq hplace
        have hrest := ih hps
        simp only [hplace, hpath, beq_self_eq_true, if_true, Option.map_some, Made.paths,
          Option.getD_some, List.count_singleton_self]
        omega
      · simp only [beq_iff_eq, hplace, if_false]
        exact (ih hps).trans (Nat.le_add_left _ _)
    · rw [List.filter_cons_of_neg (by simpa using hhas)]
      exact (ih hps).trans (Nat.le_add_left _ _)

theorem count_warnings (p : String) (paths : List String) :
    ((repeats paths).map ("Duplicate page path: " ++ ·)).count ("Duplicate page path: " ++ p) =
      paths.count p - 1 := by
  have hinjective : Function.Injective ("Duplicate page path: " ++ ·) := fun _ _ h =>
    (String.append_right_inj _).mp h
  rw [List.count_map_of_injective _ _ hinjective, count_repeats]

/-- A path that is listed more than once is told once for each time but the first. So where two
pages of a run are written to one file, its path is told. -/
theorem overwritten_pages_told :
    (∀ (version : String) (made : OrderedMap Made) (t : Tab), ∃ warnings,
      Navigation.check (build version (made.mapValues Made.json) t) = .ok warnings ∧
        ∀ p, warnings.count ("Duplicate page path: " ++ p) = (pathsOf made t.pages).count p - 1) ∧
    ∀ (r : Reference) (plan : Plan) (s : Setting) (t : Tab) (count : Nat)
      (generated : OrderedMap Json) (kept : List String) (k k' : Desk),
      r.setting plan = .ok s →
      (generateAll s [] t.pages).result [] k = ((.ok (count, generated), kept), k') →
      (∀ q, k'.disk.fileAt q = (Tree.ofFiles (pageFiles s t.pages) q).or (k.disk.fileAt q)) ∧
        ∃ warnings, Navigation.check (build r.version generated t) = .ok warnings ∧
          ∀ place, 2 ≤ ((pageFiles s t.pages).map Prod.fst).count place →
            ∃ name, place = s.place name ∧
              "Duplicate page path: " ++ sitePath r.version name ∈ warnings := by
  constructor
  · intro version made t
    exact ⟨_, check_build version made t, fun p => count_warnings p _⟩
  · intro r plan s t count generated kept k k' hsetting hrun
    obtain ⟨hs, hversion, -⟩ := setting_eq_ok hsetting
    obtain ⟨rfl, hfresh, hdisk⟩ := generateAll_eq_ok hs [] hrun
    refine ⟨hdisk, _, check_build r.version _ t, fun place hplace => ?_⟩
    rw [map_fst_pageFiles hfresh] at hplace
    have hwritten : place ∈ (t.pages.filter HasPage).map (placeOf s) :=
      List.count_pos_iff.mp (by omega)
    obtain ⟨p, -, rfl⟩ := List.mem_map.mp hwritten
    have hrecorded : ∀ p ∈ t.pages, HasPage p →
        (t.pages.foldl (record s) []).get? p.path = some (.page (pathOf s p)) := by
      intro p hp hhas
      rw [get?_foldl_record, if_pos ⟨p, hp, hhas, rfl⟩, pathOf]
    have hlisted := hplace.trans (count_placeOf_le p hrecorded)
    refine ⟨Api.lastPart p.path, rfl, List.count_pos_iff.mp ?_⟩
    rw [← hversion, ← pathOf, count_warnings]
    omega

/-- Two items whose pages are written to one file. -/
def twins : Tab :=
  ⟨"Pixeltable SDK", [.node "Modules" [⟨"a.x", ["Modules"], "module", none, none⟩]
    [.node "More" [⟨"b.x", ["Modules", "More"], "module", none, none⟩] []]]⟩

def twinsSetting : Setting := emptyReference.shippedSetting ⟨"/", ["project"]⟩

theorem overwritten_pages_told_twins : ∃ generated kept k' warnings,
    (generateAll twinsSetting [] twins.pages).result [] (.on .empty) =
      ((.ok (2, generated), kept), k') ∧
    Navigation.check (build "latest" generated twins) = .ok warnings ∧
    ∃ name, ["project", "target", "docs", "sdk", "latest", "x.mdx"] = twinsSetting.place name ∧
      "Duplicate page path: " ++ sitePath "latest" name ∈ warnings := by
  have hcount : ((generateAll twinsSetting [] twins.pages).result []
      (.on .empty)).1.1.toOption.map Prod.fst = some 2 := by decide +kernel
  have htwice : 2 ≤ ((twins.pages.filter HasPage).map (placeOf twinsSetting)).count
      ["project", "target", "docs", "sdk", "latest", "x.mdx"] := by decide +kernel
  rcases hrun : (generateAll twinsSetting [] twins.pages).result [] (.on .empty)
    with ⟨⟨halt | ⟨count, generated⟩, kept⟩, k'⟩
  · rw [hrun] at hcount
    cases hcount
  · rw [hrun] at hcount
    cases hcount
    obtain ⟨-, hfresh, -⟩ := generateAll_eq_ok rfl [] hrun
    rw [← map_fst_pageFiles hfresh] at htwice
    obtain ⟨-, warnings, hwarnings, htold⟩ :=
      overwritten_pages_told.2 _ _ _ _ _ _ _ _ _ (setting_shipped emptyReference _) hrun
    exact ⟨generated, kept, k', warnings, rfl, hwarnings, htold _ htwice⟩

end Overwriting

end Site

end DocSite
