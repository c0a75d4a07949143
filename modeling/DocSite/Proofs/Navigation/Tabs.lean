import DocSite.Navigation.Update
import DocSite.Proofs.Fields

namespace DocSite.Navigation

open OrderedMap

/-- The tabs of a configuration, none if it has no place for them. -/
def tabsIn (docs : Json) : List Json := ((docs.field "navigation").field "tabs").items

/-- The configuration with other tabs, and with a place for them if it had none. -/
def withTabs (tabs : List Json) (docs : Json) : Json :=
  .obj (set "navigation"
    (.obj (set "tabs" (.arr tabs) (docs.field "navigation").entries)) docs.entries)

/-- A configuration that has its tabs in place. -/
def HasTabs (docs : Json) (tabs : List Json) : Prop :=
  ∃ fs ns, docs = .obj fs ∧ get? "navigation" fs = some (.obj ns) ∧
    get? "tabs" ns = some (.arr tabs)

theorem hasTabs_withTabs (tabs : List Json) (docs : Json) : HasTabs (withTabs tabs docs) tabs :=
  ⟨_, _, rfl, get?_set_self _ _ _, get?_set_self _ _ _⟩

theorem withTabs_withTabs (tabs tabs' : List Json) (docs : Json) :
    withTabs tabs' (withTabs tabs docs) = withTabs tabs' docs := by
  simp [withTabs, Json.entries, Json.field, Json.field?]

@[simp] theorem isPresent_withTabs (tabs : List Json) (docs : Json) :
    (withTabs tabs docs).isPresent = true := by
  simp [withTabs, Json.isPresent, set_ne_nil]

/-- Other fields of the configuration stay. -/
theorem field?_withTabs {key : String} (h : key ≠ "navigation") (tabs : List Json) (docs : Json) :
    (withTabs tabs docs).field? key = docs.field? key := by
  simp [withTabs, Json.field?, Json.entries, get?_set_of_ne h]

namespace HasTabs

variable {docs : Json} {tabs : List Json}

theorem tabsIn_eq (h : HasTabs docs tabs) : tabsIn docs = tabs := by
  obtain ⟨fs, ns, rfl, hn, ht⟩ := h
  simp [tabsIn, Json.field, Json.field?, Json.entries, hn, ht, Json.items]

theorem withTabs_eq (h : HasTabs docs tabs) : withTabs tabs docs = docs := by
  obtain ⟨fs, ns, rfl, hn, ht⟩ := h
  simp [withTabs, Json.field, Json.field?, Json.entries, hn, set_of_get? ht, set_of_get? hn]

theorem isPresent (h : HasTabs docs tabs) : docs.isPresent = true := by
  rw [← h.withTabs_eq, isPresent_withTabs]

theorem ensureTabs_eq (h : HasTabs docs tabs) : ensureTabs docs = .ok docs := by
  obtain ⟨fs, ns, rfl, hn, ht⟩ := h
  simp [ensureTabs, Json.has, OrderedMap.has, hn, ht, Json.item, bind, Except.bind, pure,
    Except.pure]

theorem tabsOf_eq (h : HasTabs docs tabs) : tabsOf docs = .ok (.arr tabs) := by
  obtain ⟨fs, ns, rfl, hn, ht⟩ := h
  simp [tabsOf, hn, ht, Json.item, bind, Except.bind]

theorem tabs?_eq (h : HasTabs docs tabs) : tabs? docs = .ok (some tabs) := by
  obtain ⟨fs, ns, rfl, hn, ht⟩ := h
  simp [tabs?, Json.has, OrderedMap.has, hn, ht, Json.item, Json.each, bind, Except.bind, pure,
    Except.pure]

theorem setTabs_eq (h : HasTabs docs tabs) (tabs' : List Json) :
    setTabs tabs' docs = .ok (withTabs tabs' docs) := by
  obtain ⟨fs, ns, rfl, hn, ht⟩ := h
  simp [setTabs, withTabs, hn, Json.field, Json.field?, Json.entries, Json.item, Json.put, bind,
    Except.bind]

end HasTabs

/-- A tab and the tabs around it, where none before it is of its name. -/
structure FirstTab (name : String) (before : List Json) (tab : Json) (after tabs : List Json) :
    Prop where
  eq : tabs = before ++ tab :: after
  named : tab.textAt? "tab" = some name
  others : ∀ t ∈ before, (∃ fs, t = .obj fs) ∧ t.textAt? "tab" ≠ some name

theorem get_tab_same {tab v : Json} (h : tab.get "tab" .null = .ok v) (name : String) :
    v.same (.str name) = true ↔ tab.textAt? "tab" = some name := by
  obtain ⟨fs, rfl, rfl⟩ := Json.get_eq_ok.mp h
  rw [Json.same_str, Json.textAt?_eq_some, Json.field?, Json.entries]
  cases get? "tab" fs <;> simp

theorem get_tab_isOk {tab : Json} : (∃ v, tab.get "tab" .null = .ok v) ↔ ∃ fs, tab = .obj fs := by
  constructor
  · rintro ⟨v, hv⟩
    obtain ⟨fs, rfl, -⟩ := Json.get_eq_ok.mp hv
    exact ⟨fs, rfl⟩
  · rintro ⟨fs, rfl⟩
    exact ⟨_, rfl⟩

theorem isObject_of_textAt? {v : Json} {key s : String} (h : v.textAt? key = some s) :
    ∃ fs, v = .obj fs := by
  rw [Json.textAt?_eq_some] at h
  cases v <;> simp_all [Json.field?, Json.entries, get?]

theorem findTab_cons (name : String) (tab : Json) (tabs : List Json) :
    findTab name (tab :: tabs) = do
      if (← tab.get "tab" .null).same (.str name) then return some ([], tab, tabs)
      else return (← findTab name tabs).map fun (b, t, a) => (tab :: b, t, a) := rfl

theorem findTab_eq_some {name : String} {before after tabs : List Json} {tab : Json} :
    findTab name tabs = .ok (some (before, tab, after)) ↔
      FirstTab name before tab after tabs := by
  induction tabs generalizing before with
  | nil =>
    constructor
    · intro h
      simp [findTab] at h
    · rintro ⟨heq, -, -⟩
      simp at heq
  | cons t ts ih =>
    rw [findTab_cons, Attempt.bind_eq_ok]
    constructor
    · rintro ⟨v, hv, h⟩
      by_cases hs : v.same (.str name) = true
      · simp only [hs, if_true] at h
        obtain ⟨rfl, rfl, rfl⟩ : [] = before ∧ t = tab ∧ ts = after := by
          simpa [pure, Except.pure] using h
        exact ⟨rfl, (get_tab_same hv name).mp hs, by simp⟩
      · simp only [hs] at h
        obtain ⟨r, hr, he⟩ := Attempt.bind_eq_ok.mp h
        obtain ⟨⟨b, t', a⟩, rfl, hm⟩ := Option.map_eq_some_iff.mp (Except.ok.inj he)
        obtain ⟨rfl, rfl, rfl⟩ : t :: b = before ∧ t' = tab ∧ a = after := by simpa using hm
        obtain ⟨heq, hnamed, hothers⟩ := ih.mp hr
        refine ⟨by rw [heq, List.cons_append], hnamed, ?_⟩
        intro u hu
        rcases List.mem_cons.mp hu with rfl | hu
        · exact ⟨get_tab_isOk.mp ⟨v, hv⟩, fun hn => hs ((get_tab_same hv name).mpr hn)⟩
        · exact hothers u hu
    · rintro ⟨heq, hnamed, hothers⟩
      cases before with
      | nil =>
        obtain ⟨rfl, rfl⟩ : t = tab ∧ ts = after := by simpa using heq
        obtain ⟨v, hv⟩ := get_tab_isOk.mpr (isObject_of_textAt? hnamed)
        refine ⟨v, hv, ?_⟩
        rw [if_pos ((get_tab_same hv name).mpr hnamed)]
        rfl
      | cons b bs =>
        obtain ⟨rfl, hts⟩ : t = b ∧ ts = bs ++ tab :: after := by simpa using heq
        obtain ⟨hobj, hne⟩ := hothers t (by simp)
        obtain ⟨v, hv⟩ := get_tab_isOk.mpr hobj
        have hr := ih.mpr ⟨hts, hnamed, fun u hu => hothers u (by simp [hu])⟩
        refine ⟨v, hv, ?_⟩
        rw [if_neg (mt (get_tab_same hv name).mp hne), hr]
        rfl

/-- The search for a tab comes back without one if all tabs are objects of other names. -/
theorem findTab_eq_none {name : String} {tabs : List Json} :
    findTab name tabs = .ok none ↔
      ∀ t ∈ tabs, (∃ fs, t = .obj fs) ∧ t.textAt? "tab" ≠ some name := by
  induction tabs with
  | nil => simp [findTab]
  | cons t ts ih =>
    rw [findTab_cons, Attempt.bind_eq_ok, List.forall_mem_cons, ← ih]
    constructor
    · rintro ⟨v, hv, h⟩
      by_cases hs : v.same (.str name) = true
      · simp [hs, pure, Except.pure] at h
      · simp only [hs] at h
        obtain ⟨r, hr, he⟩ := Attempt.bind_eq_ok.mp h
        have hnone : r = none := Option.map_eq_none_iff.mp (Except.ok.inj he)
        subst hnone
        exact ⟨⟨get_tab_isOk.mp ⟨v, hv⟩, mt (get_tab_same hv name).mpr hs⟩, hr⟩
    · rintro ⟨⟨hobj, hne⟩, hr⟩
      obtain ⟨v, hv⟩ := get_tab_isOk.mpr hobj
      refine ⟨v, hv, ?_⟩
      rw [if_neg (mt (get_tab_same hv name).mp hne), hr]
      rfl

theorem FirstTab.unique {name : String} {before after before' after' tabs : List Json}
    {tab tab' : Json} (h : FirstTab name before tab after tabs)
    (h' : FirstTab name before' tab' after' tabs) :
    before = before' ∧ tab = tab' ∧ after = after' := by
  have hsame := (findTab_eq_some.mpr h).symm.trans (findTab_eq_some.mpr h')
  simpa using hsame

theorem exists_firstTab {tabs : List Json} (hobj : ∀ t ∈ tabs, ∃ fs, t = .obj fs) (name : String) :
    (∀ t ∈ tabs, (∃ fs, t = .obj fs) ∧ t.textAt? "tab" ≠ some name) ∨
      ∃ before tab after, FirstTab name before tab after tabs := by
  induction tabs with
  | nil => simp
  | cons t ts ih =>
    by_cases hname : t.textAt? "tab" = some name
    · exact .inr ⟨[], t, ts, rfl, hname, by simp⟩
    · have ht : (∃ fs, t = .obj fs) ∧ t.textAt? "tab" ≠ some name := ⟨hobj t (by simp), hname⟩
      rcases ih fun u hu => hobj u (by simp [hu]) with h | ⟨before, tab, after, h⟩
      · exact .inl (List.forall_mem_cons.mpr ⟨ht, h⟩)
      · refine .inr ⟨t :: before, tab, after, by rw [h.eq]; rfl, h.named, ?_⟩
        exact List.forall_mem_cons.mpr ⟨ht, h.others⟩

end DocSite.Navigation
