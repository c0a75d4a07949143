import DocSite.Proofs.Navigation.Update

namespace DocSite.Navigation

open OrderedMap Edit

variable {name shown l : String} {version : Json} {tabs tabs' : List Json}

theorem filter_not_revised (hv : label? version = some l) (entries : List Json) :
    (revised l version entries).filter (fun e => !isLabelled l e) =
      (entries.filter fun e => !isLabelled l e).mergeSort notOlder := by
  have hin : isLabelled l version = true := by simp [isLabelled, hv]
  rw [revised, StableSort.filter_mergeSort notOlder_trans notOlder_total, List.filter_append]
  simp [hin, List.filter_filter]

/-- A version that is put in place again stays where it is. -/
theorem revised_revised (hv : label? version = some l) (entries : List Json) :
    revised l version (revised l version entries) = revised l version entries := by
  rw [revised, filter_not_revised hv, StableSort.mergeSort_append notOlder_trans notOlder_total]
  rfl

theorem revised_singleton (hv : label? version = some l) : revised l version [version] = [version] := by
  have hin : isLabelled l version = true := by simp [isLabelled, hv]
  simp [revised, hin]

theorem oneVersion_revised (hv : label? version = some l) :
    renamed name (withVersions (revised l version [version]) (oneVersion name version)) =
      oneVersion name version := by
  rw [revised_singleton hv]
  simp [renamed, withVersions, oneVersion, Json.entries, OrderedMap.set]

theorem textAt?_renamed (name : String) (tab : Json) :
    (renamed name tab).textAt? "tab" = some name := by
  simp [renamed, Json.textAt?_obj, Json.str?]

theorem Placed.one_again (hv : label? version = some l) {before after : List Json}
    (hothers : ∀ t ∈ before, (∃ fs, t = .obj fs) ∧ t.textAt? "tab" ≠ some name) :
    Placed name name l version (before ++ oneVersion name version :: after)
      (before ++ oneVersion name version :: after) := by
  have hfirst : FirstTab name before (oneVersion name version) after
      (before ++ oneVersion name version :: after) := ⟨rfl, rfl, hothers⟩
  have hfield : (oneVersion name version).field? "dropdowns" = some (.arr [version]) := rfl
  have hplaced : Placed name name l version (before ++ oneVersion name version :: after)
      (before ++ renamed name (withVersions (revised l version [version])
        (oneVersion name version)) :: after) :=
    .versioned hfirst hfield rfl (by simpa using sortable_of_label? hv)
  rwa [oneVersion_revised hv] at hplaced

/-- Among tabs where a navigation lies already, under the name it is looked up by, putting it there
changes nothing. -/
theorem Placed.again (hv : label? version = some l) (h : Placed name name l version tabs tabs') :
    Placed name name l version tabs' tabs' := by
  cases h with
  | added hothers => exact one_again hv hothers
  | replaced hfirst hnone => exact one_again hv hfirst.others
  | @versioned before after entries tab v hfirst hsome heach hsortable =>
    let versions := revised l version entries
    let tab' := renamed name (withVersions versions tab)
    have hfirst' : FirstTab name before tab' after (before ++ tab' :: after) :=
      ⟨rfl, textAt?_renamed _ _, hfirst.others⟩
    have hne : "dropdowns" ≠ "tab" := by decide
    have hfield : tab'.field? "dropdowns" = some (.arr versions) := by
      simp [tab', renamed, withVersions, Json.field?, Json.entries, get?_set_of_ne hne]
    have hplaced : Placed name name l version (before ++ tab' :: after)
        (before ++ renamed name (withVersions (revised l version versions) tab') :: after) :=
      .versioned hfirst' hfield rfl (sortable_revised hv hsortable)
    have hsame : renamed name (withVersions (revised l version versions) tab') = tab' := by
      have hentries : withVersions versions tab' = tab' :=
        congrArg Json.obj (set_of_get? hfield)
      have hname : tab'.field? "tab" = some (.str name) :=
        Json.textAt?_eq_some.mp (textAt?_renamed _ _)
      rw [revised_revised hv, hentries]
      exact congrArg Json.obj (set_of_get? hname)
    rwa [hsame] at hplaced

/-- A navigation under another name than it is looked up by changes the tabs whenever it is put
among them. -/
theorem Placed.name_eq (h : Placed name shown l version tabs tabs') (heq : tabs' = tabs) :
    shown = name := by
  cases h with
  | added hothers => simp at heq
  | @replaced before after tab hfirst hnone =>
    have htab : oneVersion shown version = tab := by simpa [hfirst.eq] using heq
    have hnamed := hfirst.named
    rw [← htab] at hnamed
    simpa [oneVersion, Json.textAt?_obj, get?, Json.str?] using hnamed
  | @versioned before after entries tab v hfirst hsome heach hsortable =>
    have htab : renamed shown (withVersions (revised l version entries) tab) = tab := by
      simpa [hfirst.eq] using heq
    have hnamed := hfirst.named
    rw [← htab, textAt?_renamed] at hnamed
    exact Option.some.inj hnamed

theorem ensureTabs_cases {docs docs' : Json} (h : ensureTabs docs = .ok docs') :
    docs' = docs ∨ docs' = withTabs [] docs := by
  obtain ⟨b, hb, hrest⟩ := Attempt.bind_eq_ok.mp h
  cases b with
  | false =>
    obtain ⟨fs, rfl, rfl⟩ := Json.put_eq_ok.mp hrest
    have hnone := has_eq_false.mp (Except.ok.inj hb)
    right
    simp [withTabs, Json.field, Json.field?, Json.entries, hnone, OrderedMap.set]
  | true =>
    obtain ⟨n, hn, hrest⟩ := Attempt.bind_eq_ok.mp hrest
    obtain ⟨c, -, hrest⟩ := Attempt.bind_eq_ok.mp hrest
    cases c with
    | true => exact .inl (Except.ok.inj hrest).symm
    | false =>
      obtain ⟨n', hn', hrest⟩ := Attempt.bind_eq_ok.mp hrest
      obtain ⟨fs, rfl, hfs⟩ := Json.item_eq_ok.mp hn
      obtain ⟨ns, rfl, rfl⟩ := Json.put_eq_ok.mp hn'
      right
      rw [← Except.ok.inj hrest]
      simp [withTabs, Json.field, Json.field?, Json.entries, hfs]

theorem ensureTabs_again {docs docs' : Json} (h : ensureTabs docs = .ok docs') :
    ensureTabs docs' = .ok docs' ∧ (docs.isPresent = true → docs'.isPresent = true) := by
  rcases ensureTabs_cases h with rfl | rfl
  · exact ⟨h, id⟩
  · exact ⟨(hasTabs_withTabs [] docs).ensureTabs_eq, fun _ => isPresent_withTabs [] docs⟩

/-- An update either fails, and then leaves a configuration on which it fails in the same way, or
puts the navigation among the tabs. -/
theorem result_update_cases (name shown : String) (hv : label? version = some l) (docs : Json) :
    (∃ e draft, (update name (oneVersion shown version)).result docs = (.error e, draft) ∧
      (update name (oneVersion shown version)).result draft.docs = (.error e, draft)) ∨
    ∃ docs' tabs tabs' lines, Placed name shown l version tabs tabs' ∧
      (update name (oneVersion shown version)).result docs =
        (.ok (), ⟨withTabs tabs' docs', lines⟩) := by
  have hrun : (update name (oneVersion shown version)).result docs = _ :=
    runOn_update name (oneVersion shown version) docs []
  cases hp : docs.isPresent with
  | false =>
    simp only [hp, Bool.false_eq_true, if_false] at hrun
    exact .inl ⟨_, _, hrun, hrun⟩
  | true =>
    cases hensure : ensureTabs docs with
    | error e =>
      simp only [hp, if_true, hensure] at hrun
      exact .inl ⟨_, _, hrun, hrun⟩
    | ok docs' =>
      simp only [hp, if_true, hensure] at hrun
      obtain ⟨hensure', hpresent⟩ := ensureTabs_again hensure
      have hrun' : (update name (oneVersion shown version)).result docs' = _ :=
        runOn_update name (oneVersion shown version) docs' []
      simp only [hpresent hp, if_true, hensure'] at hrun'
      cases htabs : tabsOf docs' with
      | error e =>
        have hplace : runOn (place name (oneVersion shown version)) ⟨docs', []⟩ =
            (.error e, ⟨docs', []⟩) := by
          simp only [place, runOn_bind, runOn_docs, runOn_lift, htabs]
        exact .inl ⟨e, _, hrun.trans hplace, hrun'.trans hplace⟩
      | ok v =>
        obtain ⟨lines, hplace⟩ := runOn_place htabs hv name shown []
        cases hplaced : placed name shown l version v with
        | error e =>
          simp only [hplaced] at hplace
          exact .inl ⟨e, _, hrun.trans hplace, hrun'.trans hplace⟩
        | ok tabs' =>
          simp only [hplaced] at hplace
          obtain ⟨tabs, -, hp'⟩ := (placed_eq_ok hv).mp hplaced
          exact .inr ⟨docs', tabs, tabs', lines, hp', hrun.trans hplace⟩

theorem build_eq_oneVersion (version : String) (generated : OrderedMap Json) (t : Outline.Tab) :
    ∃ entry, build version generated t = oneVersion t.name entry ∧
      label? entry = some version := ⟨_, rfl, rfl⟩

/-- Putting a navigation that was built from an outline into a configuration a second time changes
nothing, and fails if it failed before, where the outline names its tab as it is looked up. It
changes the configuration, or fails, in all other cases. -/
theorem update_again_iff (name version : String) (generated : OrderedMap Json) (t : Outline.Tab)
    (docs : Json) :
    let edit := update name (build version generated t)
    let once := edit.result docs
    let twice := edit.result once.2.docs
    (t.name = name → twice.1 = once.1 ∧ twice.2.docs = once.2.docs) ∧
      (once.1 = .ok () → (twice.1 = .ok () ∧ twice.2.docs = once.2.docs ↔ t.name = name)) := by
  obtain ⟨entry, hbuild, hv⟩ := build_eq_oneVersion version generated t
  simp only [hbuild]
  rcases result_update_cases name t.name hv docs with ⟨e, draft, honce, htwice⟩ | h
  · rw [honce, htwice]
    simp
  · obtain ⟨docs', tabs, tabs', lines, hplaced, honce⟩ := h
    rw [honce]
    have htabs := hasTabs_withTabs tabs' docs'
    obtain ⟨lines', htwice⟩ := runOn_update_of_hasTabs htabs hv name t.name []
    rw [← result_eq] at htwice
    have hsame (h : t.name = name) : placed name t.name version entry (.arr tabs') = .ok tabs' := by
      rw [h] at hplaced ⊢
      exact (placed_eq_ok hv).mpr ⟨tabs', rfl, hplaced.again hv⟩
    constructor
    · intro h
      rw [htwice, hsame h]
      simp [htabs.withTabs_eq]
    · intro _
      constructor
      · rintro ⟨hok, hdocs⟩
        cases hp : placed name t.name version entry (.arr tabs') with
        | error e => simp [htwice, hp] at hok
        | ok tabs'' =>
          simp only [htwice, hp] at hdocs
          have heq : tabs'' = tabs' := by
            rw [← (hasTabs_withTabs tabs'' (withTabs tabs' docs')).tabsIn_eq, hdocs,
              htabs.tabsIn_eq]
          obtain ⟨_, hinj, hplaced'⟩ := (placed_eq_ok hv).mp hp
          obtain rfl := Json.arr.inj hinj
          exact hplaced'.name_eq heq
      · intro h
        rw [htwice, hsame h]
        simp [htabs.withTabs_eq]

theorem update_again_same_name :
    let edit := update sdkTab (build latest [] ⟨sdkTab, []⟩)
    let once := edit.result (.obj [("name", .null)])
    let twice := edit.result once.2.docs
    once.1 = .ok () ∧ twice.1 = .ok () ∧ twice.2.docs = once.2.docs := by
  have hok : ((update sdkTab (build latest [] ⟨sdkTab, []⟩)).result
      (.obj [("name", .null)])).1 = .ok () := rfl
  exact ⟨hok, ((update_again_iff sdkTab latest [] ⟨sdkTab, []⟩ _).2 hok).mpr rfl⟩

/-- Under another name than it is looked up by, a navigation that is put in place again stands
there twice. -/
theorem update_again_adds_tab :
    let edit := update sdkTab (build latest [] ⟨"API", []⟩)
    let once := (edit.result (.obj [("navigation", .obj [("tabs", .arr [])])])).2.docs
    let twice := (edit.result once).2.docs
    (tabsIn once).map (·.textAt? "tab") = [some "API"] ∧
      (tabsIn twice).map (·.textAt? "tab") = [some "API", some "API"] := by
  decide

end DocSite.Navigation
