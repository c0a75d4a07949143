import DocSite.Navigation.Build
import DocSite.Proofs.Navigation.Merge

namespace DocSite.Navigation

open OrderedMap

namespace Edit

variable {α β : Type}

def runOn (edit : Edit α) (draft : Draft) : Except Fault α × Draft := (ExceptT.run edit).run draft

theorem result_eq (edit : Edit α) (docs : Json) : edit.result docs = edit.runOn ⟨docs, []⟩ := rfl

theorem runOn_bind (x : Edit α) (f : α → Edit β) (d : Draft) :
    runOn (x >>= f) d =
      match runOn x d with
      | (.ok a, d') => runOn (f a) d'
      | (.error e, d') => (.error e, d') := by
  simp only [runOn, ExceptT.run_bind, StateT.run_bind]
  rcases StateT.run (ExceptT.run x) d with ⟨r, d'⟩
  cases r <;> rfl

theorem runOn_lift (r : Except Fault α) (d : Draft) : runOn (liftM r : Edit α) d = (r, d) := rfl

theorem runOn_docs (d : Draft) : runOn docs d = (.ok d.docs, d) := rfl

theorem runOn_setDocs (v : Json) (d : Draft) :
    runOn (setDocs v) d = (.ok (), { d with docs := v }) := rfl

theorem runOn_tell (line : String) (d : Draft) :
    runOn (tell line) d = (.ok (), { d with lines := d.lines ++ [line] }) := rfl

theorem runOn_throw (e : Fault) (d : Draft) : runOn (throw e : Edit α) d = (.error e, d) := rfl

theorem runOn_bind_lift (r : Except Fault α) (f : α → Edit β) (d : Draft) :
    runOn (liftM r >>= f) d =
      match r with
      | .ok a => runOn (f a) d
      | .error e => (.error e, d) := by
  rw [runOn_bind, runOn_lift]
  cases r <;> rfl

end Edit

open Edit

/-- The navigation of a tab with a single version. -/
def oneVersion (name : String) (version : Json) : Json :=
  .obj [("tab", .str name), ("dropdowns", .arr [version])]

/-- Versions after one of label `l` was put in the place of those with that label. -/
def revised (l : String) (version : Json) (entries : List Json) : List Json :=
  (entries.filter (fun e => !isLabelled l e) ++ [version]).mergeSort notOlder

/-- The tab under a name. -/
def renamed (name : String) (tab : Json) : Json := .obj (set "tab" (.str name) tab.entries)

theorem sortable_revised {l : String} {version : Json} {entries : List Json}
    (hv : label? version = some l) (h : ∀ e ∈ entries, Sortable e) :
    ∀ e ∈ revised l version entries, Sortable e := by
  intro e he
  rcases List.mem_append.mp (List.mem_mergeSort.mp he) with he | he
  · exact h e (List.mem_filter.mp he).1
  · obtain rfl := List.mem_singleton.mp he
    exact sortable_of_label? hv

theorem get_dropdown_same {entry v : Json} (h : entry.get "dropdown" .null = .ok v) (l : String) :
    v.same (.str l) = isLabelled l entry := by
  obtain ⟨fs, rfl, rfl⟩ := Json.get_eq_ok.mp h
  rw [Bool.eq_iff_iff, Json.same_str, isLabelled, decide_eq_true_eq, label?,
    Json.textAt?_eq_some, Json.field?, Json.entries]
  cases get? "dropdown" fs <;> simp

theorem replaceVersion_eq_ok {version : Json} {l : String} {entries versions : List Json} :
    replaceVersion version (.str l) entries = .ok versions ↔
      (∀ e ∈ entries, ∃ fs, e = .obj fs) ∧
        versions = entries.filter (fun e => !isLabelled l e) ++ [version] := by
  have hstep : ∀ (e : Json) (b : Bool),
      (do return !((← e.get "dropdown" .null).same (.str l)) : Except Fault Bool) = .ok b →
        b = !isLabelled l e := by
    intro e b h
    obtain ⟨v, hv, hb⟩ := Attempt.bind_eq_ok.mp h
    rw [← get_dropdown_same hv, ← Except.ok.inj hb]
  have hobj : ∀ e : Json,
      (do return !((← e.get "dropdown" .null).same (.str l)) : Except Fault Bool) =
        .ok (!isLabelled l e) ↔ ∃ fs, e = .obj fs := by
    intro e
    constructor
    · intro h
      obtain ⟨v, hv, -⟩ := Attempt.bind_eq_ok.mp h
      obtain ⟨fs, rfl, -⟩ := Json.get_eq_ok.mp hv
      exact ⟨fs, rfl⟩
    · rintro ⟨fs, rfl⟩
      have hget : (Json.obj fs).get "dropdown" .null = .ok ((get? "dropdown" fs).getD .null) := rfl
      exact Attempt.bind_eq_ok.mpr ⟨_, hget, by rw [get_dropdown_same hget]; rfl⟩
  rw [replaceVersion, Attempt.bind_eq_ok]
  simp only [Attempt.filterM_eq_ok_iff hstep, hobj]
  constructor
  · rintro ⟨others, ⟨hall, rfl⟩, hr⟩
    exact ⟨hall, (Except.ok.inj hr).symm⟩
  · rintro ⟨hall, rfl⟩
    exact ⟨_, ⟨hall, rfl⟩, rfl⟩

/-- The versions of a tab after one was put in place. -/
def revision (l : String) (version tab : Json) : Except Fault (List Json) := do
  sortVersions (← replaceVersion version (.str l) (← (← tab.item "dropdowns").each))

theorem revision_eq_ok {l : String} {version tab : Json} {versions : List Json}
    (hv : label? version = some l) :
    revision l version tab = .ok versions ↔
      ∃ v entries, tab.item "dropdowns" = .ok v ∧ v.each = .ok entries ∧
        (∀ e ∈ entries, Sortable e) ∧ versions = revised l version entries := by
  constructor
  · intro h
    obtain ⟨v, hitem, h⟩ := Attempt.bind_eq_ok.mp h
    obtain ⟨entries, heach, h⟩ := Attempt.bind_eq_ok.mp h
    obtain ⟨replaced, hreplaced, hsort⟩ := Attempt.bind_eq_ok.mp h
    obtain ⟨-, rfl⟩ := replaceVersion_eq_ok.mp hreplaced
    obtain ⟨hsortable, rfl⟩ := sortVersions_eq_ok.mp hsort
    refine ⟨v, entries, hitem, heach, fun e he => ?_, rfl⟩
    cases hl : isLabelled l e with
    | false => exact hsortable e (by simp [he, hl])
    | true => exact sortable_of_label? (by simpa [isLabelled] using hl)
  · rintro ⟨v, entries, hitem, heach, hsortable, rfl⟩
    have hobj : ∀ e ∈ entries, ∃ fs, e = .obj fs := fun e he => by
      obtain ⟨fs, hfs, -⟩ := hsortable e he
      exact ⟨fs, hfs⟩
    refine Attempt.bind_eq_ok.mpr ⟨v, hitem, Attempt.bind_eq_ok.mpr ⟨entries, heach,
      Attempt.bind_eq_ok.mpr ⟨_, replaceVersion_eq_ok.mpr ⟨hobj, rfl⟩,
        sortVersions_eq_ok.mpr ⟨?_, rfl⟩⟩⟩⟩
    intro e he
    rcases List.mem_append.mp he with he | he
    · exact hsortable e ((List.mem_filter.mp he).1)
    · obtain rfl := List.mem_singleton.mp he
      exact sortable_of_label? hv

theorem setTabs_of_tabsOf {docs v : Json} (h : tabsOf docs = .ok v) (tabs : List Json) :
    setTabs tabs docs = .ok (withTabs tabs docs) := by
  obtain ⟨n, hn, hv⟩ := Attempt.bind_eq_ok.mp h
  obtain ⟨fs, rfl, hfs⟩ := Json.item_eq_ok.mp hn
  obtain ⟨ns, rfl, -⟩ := Json.item_eq_ok.mp hv
  simp [setTabs, withTabs, hfs, Json.field, Json.field?, Json.entries, Json.item, Json.put, bind,
    Except.bind]

theorem size_of_each {v : Json} {items : List Json} (h : v.each = .ok items) :
    ∃ n, v.size = .ok n := by
  cases v <;> simp_all [Json.each, Json.size]

theorem runOn_addVersion {docs v version : Json} {l : String} (htabs : tabsOf docs = .ok v)
    (hv : label? version = some l) (name : String) (before : List Json) (tab : Json)
    (after : List Json) (lines : List String) :
    ∃ lines', runOn (addVersion before tab after (oneVersion name version)) ⟨docs, lines⟩ =
      match revision l version tab with
      | .ok versions =>
        (.ok (), ⟨withTabs (before ++ renamed name (withVersions versions tab) :: after) docs,
          lines'⟩)
      | .error e => (.error e, ⟨docs, lines'⟩) := by
  have hitem : version.item "dropdown" = .ok (.str l) := by
    obtain ⟨fs, rfl⟩ := isObject_of_textAt? hv
    exact Json.item_eq_ok.mpr ⟨fs, rfl, Json.textAt?_eq_some.mp hv⟩
  have hfirst : (oneVersion name version).item "dropdowns" = .ok (.arr [version]) := by
    simp [oneVersion, Json.item, get?]
  have hname : (oneVersion name version).item "tab" = .ok (.str name) := by
    simp [oneVersion, Json.item, get?]
  simp only [addVersion, runOn_bind_lift, hfirst, firstOf, hitem]
  cases hold : tab.item "dropdowns" with
  | error e => exact ⟨lines, by simp only [revision, hold, bind, Except.bind]⟩
  | ok old =>
    simp only
    cases heach : old.each with
    | error e => exact ⟨lines, by simp only [revision, hold, heach, bind, Except.bind]⟩
    | ok entries =>
      obtain ⟨n, hsize⟩ := size_of_each heach
      obtain ⟨fs, rfl, -⟩ := Json.item_eq_ok.mp hold
      have hset (tabs tabs' : List Json) :
          setTabs tabs' (withTabs tabs docs) = .ok (withTabs tabs' docs) := by
        rw [(hasTabs_withTabs tabs docs).setTabs_eq, withTabs_withTabs]
      simp only [hsize]
      cases hrep : replaceVersion version (.str l) entries with
      | error e => exact ⟨lines, by simp only [revision, hold, heach, hrep, bind, Except.bind]⟩
      | ok versions =>
        cases hsort : sortVersions versions with
        | error e =>
          have hrev : revision l version (.obj fs) = .error e := by
            simp only [revision, hold, heach, hrep, hsort, bind, Except.bind]
          rw [hrev]
          simp only
          split <;> exact ⟨_, by simp only [runOn_bind, runOn_lift, runOn_tell, hsort]; rfl⟩
        | ok sorted =>
          have hrev : revision l version (.obj fs) = .ok sorted := by
            simp only [revision, hold, heach, hrep, hsort, bind, Except.bind]
          rw [hrev]
          simp only
          -- a version that is new and one that is replaced differ in what is told only
          split <;> exact ⟨_, by
            simp only [runOn_bind, runOn_lift, runOn_tell, runOn_docs, runOn_setDocs, hsort,
              Json.put, setTabs_of_tabsOf htabs, hset, hname]
            rfl⟩

/-- The tabs after the navigation of one version was put among them, under the name `shown`. -/
def placed (name shown l : String) (version tabs : Json) : Except Fault (List Json) := do
  match ← findTab name (← tabs.each) with
  | some (before, tab, after) =>
    if ← tab.has "dropdowns" then
      return before ++ renamed shown (withVersions (← revision l version tab) tab) :: after
    else return before ++ oneVersion shown version :: after
  | none =>
    match tabs with
    | .arr items => return items ++ [oneVersion shown version]
    | v => .error (.noAttribute v.kind "append")

theorem runOn_place {docs v version : Json} {l : String} (htabs : tabsOf docs = .ok v)
    (hv : label? version = some l) (name shown : String) (lines : List String) :
    ∃ lines', runOn (place name (oneVersion shown version)) ⟨docs, lines⟩ =
      match placed name shown l version v with
      | .ok tabs => (.ok (), ⟨withTabs tabs docs, lines'⟩)
      | .error e => (.error e, ⟨docs, lines'⟩) := by
  simp only [place, runOn_bind, runOn_docs, runOn_lift, htabs]
  cases heach : v.each with
  | error e => exact ⟨lines, by simp only [placed, heach, bind, Except.bind]⟩
  | ok items =>
    simp only
    cases hfind : findTab name items with
    | error e => exact ⟨lines, by simp only [placed, heach, hfind, bind, Except.bind]⟩
    | ok found =>
      cases found with
      | none =>
        cases v with
        | arr tabs =>
          have hplaced : placed name shown l version (.arr tabs) =
              .ok (tabs ++ [oneVersion shown version]) := by
            simp only [placed, heach, hfind, bind, Except.bind, pure, Except.pure]
          refine ⟨lines ++ ["📝 Adding new tab: " ++ name], ?_⟩
          rw [hplaced]
          simp only [runOn_bind, runOn_tell, runOn_docs, runOn_lift, setTabs_of_tabsOf htabs]
          rfl
        | _ =>
          refine ⟨lines ++ ["📝 Adding new tab: " ++ name], ?_⟩
          simp only [runOn_bind, runOn_tell, runOn_throw]
          simp only [placed, heach, hfind, bind, Except.bind]
      | some found =>
        obtain ⟨before, tab, after⟩ := found
        obtain ⟨fs, rfl⟩ := isObject_of_textAt? (findTab_eq_some.mp hfind).named
        have hboth : bothVersioned (.obj fs) (oneVersion shown version) =
            .ok (OrderedMap.has "dropdowns" fs) := by
          cases h : OrderedMap.has "dropdowns" fs <;>
            simp [bothVersioned, oneVersion, Json.has, h, bind, Except.bind, pure, Except.pure]
          simp [OrderedMap.has, get?]
        simp only [runOn_bind_lift, hboth]
        cases hhas : OrderedMap.has "dropdowns" fs with
        | true =>
          obtain ⟨lines', hadd⟩ :=
            runOn_addVersion htabs hv shown before (.obj fs) after lines
          refine ⟨lines', ?_⟩
          simp only [if_true, hadd]
          cases hrev : revision l version (.obj fs) <;>
            simp [placed, heach, hfind, Json.has, hhas, hrev, bind, Except.bind, pure, Except.pure]
        | false =>
          have hplaced : placed name shown l version v =
              .ok (before ++ oneVersion shown version :: after) := by
            simp [placed, heach, hfind, Json.has, hhas, bind, Except.bind, pure, Except.pure]
          rw [hplaced]
          exact ⟨_, by
            simp only [Json.get, runOn_bind, runOn_tell, runOn_docs, runOn_lift,
              setTabs_of_tabsOf htabs, Bool.false_eq_true, if_false]
            rfl⟩

/-- What putting the navigation of one version among tabs can do to them: it is added behind them
all, it takes the place of the tab of its name, or its version goes into that tab. -/
inductive Placed (name shown l : String) (version : Json) (tabs : List Json) : List Json → Prop
  | added (h : ∀ t ∈ tabs, (∃ fs, t = .obj fs) ∧ t.textAt? "tab" ≠ some name) :
      Placed name shown l version tabs (tabs ++ [oneVersion shown version])
  | replaced {before after : List Json} {tab : Json} (h : FirstTab name before tab after tabs)
      (hnone : tab.field? "dropdowns" = none) :
      Placed name shown l version tabs (before ++ oneVersion shown version :: after)
  | versioned {before after entries : List Json} {tab v : Json}
      (h : FirstTab name before tab after tabs) (hsome : tab.field? "dropdowns" = some v)
      (heach : v.each = .ok entries) (hsortable : ∀ e ∈ entries, Sortable e) :
      Placed name shown l version tabs
        (before ++ renamed shown (withVersions (revised l version entries) tab) :: after)

theorem placed_eq_ok {name shown l : String} {version v : Json} {tabs' : List Json}
    (hv : label? version = some l) :
    placed name shown l version v = .ok tabs' ↔
      ∃ tabs, v = .arr tabs ∧ Placed name shown l version tabs tabs' := by
  constructor
  · intro h
    obtain ⟨items, heach, hfound⟩ := Attempt.bind_eq_ok.mp h
    obtain ⟨found, hfind, hrest⟩ := Attempt.bind_eq_ok.mp hfound
    cases found with
    | none =>
      cases v with
      | arr tabs =>
        obtain rfl : tabs = items := Except.ok.inj heach
        obtain rfl := Except.ok.inj hrest
        exact ⟨tabs, rfl, .added (findTab_eq_none.mp hfind)⟩
      | _ => cases hrest
    | some found =>
      obtain ⟨before, tab, after⟩ := found
      have hfirst := findTab_eq_some.mp hfind
      have hmem : tab ∈ items := by rw [hfirst.eq]; simp
      have hobj := isObject_of_textAt? hfirst.named
      refine ⟨items, each_eq_arr heach hmem hobj, ?_⟩
      obtain ⟨b, hb, hbranch⟩ := Attempt.bind_eq_ok.mp hrest
      obtain ⟨fs, rfl⟩ := hobj
      obtain rfl : OrderedMap.has "dropdowns" fs = b := Except.ok.inj hb
      cases hhas : OrderedMap.has "dropdowns" fs with
      | false =>
        rw [hhas] at hbranch
        obtain rfl := Except.ok.inj hbranch
        exact .replaced hfirst (has_eq_false.mp hhas)
      | true =>
        rw [hhas] at hbranch
        obtain ⟨versions, hrev, hresult⟩ := Attempt.bind_eq_ok.mp hbranch
        obtain ⟨w, entries, hitem, heach', hsortable, rfl⟩ := (revision_eq_ok hv).mp hrev
        obtain ⟨gs, hgs, hget⟩ := Json.item_eq_ok.mp hitem
        obtain rfl := Json.obj.inj hgs
        obtain rfl := Except.ok.inj hresult
        exact .versioned hfirst hget heach' hsortable
  · rintro ⟨tabs, rfl, hplaced⟩
    refine Attempt.bind_eq_ok.mpr ⟨tabs, rfl, ?_⟩
    cases hplaced with
    | added h => exact Attempt.bind_eq_ok.mpr ⟨none, findTab_eq_none.mpr h, rfl⟩
    | @replaced before after tab h hnone =>
      obtain ⟨fs, rfl⟩ := isObject_of_textAt? h.named
      have hhas : (Json.obj fs).has "dropdowns" = .ok false :=
        congrArg Except.ok (has_eq_false.mpr hnone)
      exact Attempt.bind_eq_ok.mpr ⟨_, findTab_eq_some.mpr h,
        Attempt.bind_eq_ok.mpr ⟨false, hhas, rfl⟩⟩
    | @versioned before after entries tab w h hsome heach hsortable =>
      obtain ⟨fs, rfl⟩ := isObject_of_textAt? h.named
      have hhas : (Json.obj fs).has "dropdowns" = .ok true :=
        congrArg Except.ok (has_eq_true.mpr ⟨w, hsome⟩)
      have hrev : revision l version (.obj fs) = .ok (revised l version entries) :=
        (revision_eq_ok hv).mpr
          ⟨w, entries, Json.item_eq_ok.mpr ⟨fs, rfl, hsome⟩, heach, hsortable, rfl⟩
      exact Attempt.bind_eq_ok.mpr ⟨_, findTab_eq_some.mpr h,
        Attempt.bind_eq_ok.mpr ⟨true, hhas, Attempt.bind_eq_ok.mpr ⟨_, hrev, rfl⟩⟩⟩

theorem runOn_update (name : String) (nav docs : Json) (lines : List String) :
    runOn (update name nav) ⟨docs, lines⟩ =
      if docs.isPresent then
        match ensureTabs docs with
        | .ok docs' => runOn (place name nav) ⟨docs', lines⟩
        | .error e => (.error e, ⟨docs, lines⟩)
      else (.error (.notLoaded "docs.json not loaded. Call load() first."), ⟨docs, lines⟩) := by
  cases hp : docs.isPresent with
  | false =>
    simp only [update, runOn_bind, runOn_docs, hp, Bool.not_false, if_true, runOn_throw]
    rfl
  | true =>
    simp only [update, runOn_bind, runOn_docs, hp, Bool.not_true, Bool.false_eq_true, if_false,
      runOn_lift]
    cases ensureTabs docs <;> rfl

theorem runOn_update_of_hasTabs {docs version : Json} {tabs : List Json} {l : String}
    (htabs : HasTabs docs tabs) (hv : label? version = some l) (name shown : String)
    (lines : List String) :
    ∃ lines', runOn (update name (oneVersion shown version)) ⟨docs, lines⟩ =
      match placed name shown l version (.arr tabs) with
      | .ok tabs' => (.ok (), ⟨withTabs tabs' docs, lines'⟩)
      | .error e => (.error e, ⟨docs, lines'⟩) := by
  obtain ⟨lines', hrun⟩ := runOn_place htabs.tabsOf_eq hv name shown lines
  refine ⟨lines', ?_⟩
  rw [runOn_update, if_pos htabs.isPresent, htabs.ensureTabs_eq]
  exact hrun

end DocSite.Navigation
