import DocSite.Proofs.Navigation.Order
import DocSite.Proofs.Navigation.Tabs

namespace DocSite.Navigation

open OrderedMap

/-- The versions of a tab, none if it has no list of them. -/
def versionsIn (tab : Json) : List Json := (tab.field "dropdowns").items

/-- The tab with other versions. -/
def withVersions (entries : List Json) (tab : Json) : Json :=
  .obj (set "dropdowns" (.arr entries) tab.entries)

/-- A version marked as archived. -/
def archived (entry : Json) : Json := .obj (set "icon" (.str "archive") entry.entries)

def isLabelled (l : String) (entry : Json) : Bool := label? entry = some l

/-- The last of several versions with a given label. -/
def lastLabelled (l : String) (entries : List Json) : Option Json :=
  (entries.filter (isLabelled l)).getLast?

/-- A tab whose versions, if it has any, stand in a list, each labelled by a text. -/
structure Labelled (tab : Json) : Prop where
  listed : ∀ v, tab.field? "dropdowns" = some v → ∃ es, v = .arr es
  labels : ∀ e ∈ versionsIn tab, ∃ l, label? e = some l

theorem label?_archived (entry : Json) : label? (archived entry) = label? entry := by
  have hne : "dropdown" ≠ "icon" := by decide
  simp [label?, archived, Json.textAt?, Json.field, Json.field?, Json.entries,
    get?_set_of_ne hne]

theorem archived_archived (entry : Json) : archived (archived entry) = archived entry := by
  simp [archived, Json.entries]

theorem lastLabelled_append (l : String) (es fs : List Json) :
    lastLabelled l (es ++ fs) = (lastLabelled l fs).or (lastLabelled l es) := by
  simp [lastLabelled, List.filter_append, List.getLast?_append]

theorem lastLabelled_map_archived (l : String) (es : List Json) :
    lastLabelled l (es.map archived) = (lastLabelled l es).map archived := by
  have hcomp : isLabelled l ∘ archived = isLabelled l := by
    funext e
    simp [isLabelled, label?_archived]
  simp [lastLabelled, List.filter_map, hcomp, List.getLast?_map]

theorem archive_eq_ok {entry : Json} {l : String} (h : label? entry = some l) :
    archive entry = .ok (archived entry) := by
  obtain ⟨fs, rfl⟩ := isObject_of_textAt? h
  rfl

theorem labelOf_eq_ok {entry : Json} {l : String} (h : label? entry = some l) :
    labelOf entry = .ok (.str l) := by
  have hitem : entry.item "dropdown" = .ok (.str l) := by
    obtain ⟨fs, rfl⟩ := isObject_of_textAt? h
    exact Json.item_eq_ok.mpr ⟨fs, rfl, Json.textAt?_eq_some.mp h⟩
  simp [labelOf, hitem, bind, Except.bind, pure, Except.pure]

/-- What a collection by labels holds: under every label the entry that `found` gives. -/
structure Holds (m : List (Json × Json)) (found : String → Option Json) : Prop where
  keyed : ∀ p ∈ m, ∃ l, p.1 = .str l ∧ label? p.2 = some l
  entries : ∀ l, (m.map Prod.snd).filter (isLabelled l) = (found l).toList

theorem keyed_putLabelled {m : List (Json × Json)} {l : String} {entry : Json}
    (hm : ∀ p ∈ m, ∃ l, p.1 = .str l ∧ label? p.2 = some l) (he : label? entry = some l) :
    ∀ p ∈ putLabelled (.str l) entry m, ∃ l, p.1 = .str l ∧ label? p.2 = some l := by
  induction m with
  | nil =>
    intro p hp
    obtain rfl := List.mem_singleton.mp hp
    exact ⟨l, rfl, he⟩
  | cons q rest ih =>
    obtain ⟨k, x⟩ := q
    have hrest := ih fun p hp => hm p (by simp [hp])
    by_cases hk : k.alike (.str l) = true
    · have hks := Json.alike_str.mp hk
      intro p hp
      simp only [putLabelled, hk, if_true, List.mem_cons] at hp
      rcases hp with rfl | hp
      · exact ⟨l, hks, he⟩
      · exact hm p (by simp [hp])
    · intro p hp
      simp only [putLabelled, hk, Bool.false_eq_true, if_false, List.mem_cons] at hp
      rcases hp with rfl | hp
      · exact hm _ (by simp)
      · exact hrest p hp

/-- Putting an entry under its label leaves other labels alone. -/
theorem filter_putLabelled_of_ne {m : List (Json × Json)} {l k : String} {entry : Json}
    (hm : ∀ p ∈ m, ∃ l, p.1 = .str l ∧ label? p.2 = some l) (he : label? entry = some l)
    (hk : k ≠ l) :
    ((putLabelled (.str l) entry m).map Prod.snd).filter (isLabelled k) =
      (m.map Prod.snd).filter (isLabelled k) := by
  have hout : isLabelled k entry = false := by simp [isLabelled, he, Ne.symm hk]
  induction m with
  | nil => simp [putLabelled, hout]
  | cons q rest ih =>
    obtain ⟨key, x⟩ := q
    obtain ⟨a, rfl, hxa⟩ : ∃ a, key = .str a ∧ label? x = some a := hm (key, x) (by simp)
    have hrest := ih fun p hp => hm p (by simp [hp])
    by_cases ha : (Json.str a).alike (.str l) = true
    · have hal : a = l := Json.str.inj (Json.alike_str.mp ha)
      have hxout : isLabelled k x = false := by simp [isLabelled, hxa, hal, Ne.symm hk]
      simp [putLabelled, ha, hout, hxout]
    · simp only [putLabelled, ha, Bool.false_eq_true, if_false, List.map_cons, List.filter_cons,
        hrest]

/-- Putting an entry under its label takes the place of the one that was there. -/
theorem filter_putLabelled_self {m : List (Json × Json)} {l : String} {entry : Json}
    (hm : ∀ p ∈ m, ∃ l, p.1 = .str l ∧ label? p.2 = some l) (he : label? entry = some l)
    (hone : ((m.map Prod.snd).filter (isLabelled l)).length ≤ 1) :
    ((putLabelled (.str l) entry m).map Prod.snd).filter (isLabelled l) = [entry] := by
  have hin : isLabelled l entry = true := by simp [isLabelled, he]
  induction m with
  | nil => simp [putLabelled, hin]
  | cons q rest ih =>
    obtain ⟨key, x⟩ := q
    obtain ⟨a, rfl, hxa⟩ : ∃ a, key = .str a ∧ label? x = some a := hm (key, x) (by simp)
    by_cases ha : (Json.str a).alike (.str l) = true
    · have hal : a = l := Json.str.inj (Json.alike_str.mp ha)
      have hxin : isLabelled l x = true := by simp [isLabelled, hxa, hal]
      have hnone : (rest.map Prod.snd).filter (isLabelled l) = [] := by
        simp only [List.map_cons, List.filter_cons, hxin, if_true, List.length_cons] at hone
        exact List.length_eq_zero_iff.mp (by omega)
      simp only [putLabelled, ha, if_true, List.map_cons, List.filter_cons, hin, hnone]
    · have hal : a ≠ l := by
        intro h
        exact ha (Json.alike_str.mpr (by rw [h]))
      have hxout : isLabelled l x = false := by simp [isLabelled, hxa, hal]
      have hrest := ih (fun p hp => hm p (by simp [hp])) (by simpa [hxout] using hone)
      simp only [putLabelled, ha, Bool.false_eq_true, if_false, List.map_cons, List.filter_cons,
        hxout, hrest]

theorem Holds.put {m : List (Json × Json)} {found : String → Option Json} (h : Holds m found)
    {l : String} {entry : Json} (he : label? entry = some l) :
    Holds (putLabelled (.str l) entry m) (fun k => (lastLabelled k [entry]).or (found k)) where
  keyed := keyed_putLabelled h.keyed he
  entries k := by
    by_cases hk : k = l
    · subst hk
      have hone : ((m.map Prod.snd).filter (isLabelled k)).length ≤ 1 := by
        rw [h.entries k]
        cases found k <;> simp
      have hself : isLabelled k entry = true := by simp [isLabelled, he]
      rw [filter_putLabelled_self h.keyed he hone]
      simp [lastLabelled, hself]
    · have hout : isLabelled k entry = false := by simp [isLabelled, he, Ne.symm hk]
      rw [filter_putLabelled_of_ne h.keyed he hk, h.entries k]
      simp [lastLabelled, hout]

/-- Entries that are added in turn: the last one with a label is the one that is held. -/
theorem Holds.addLabelled {m : List (Json × Json)} {found : String → Option Json}
    (h : Holds m found) {es : List Json} (hes : ∀ e ∈ es, ∃ l, label? e = some l) :
    ∃ m', addLabelled m es = .ok m' ∧
      Holds m' (fun l => (lastLabelled l es).or (found l)) := by
  induction es generalizing m found with
  | nil => exact ⟨m, rfl, by simpa [lastLabelled] using h⟩
  | cons e es ih =>
    obtain ⟨l, hl⟩ := hes e (by simp)
    obtain ⟨m', hm', hheld⟩ := ih (h.put hl) fun x hx => hes x (by simp [hx])
    refine ⟨m', ?_, ?_⟩
    · have hstep : Navigation.addLabelled m (e :: es) =
          Navigation.addLabelled (putLabelled (.str l) e m) es := by
        simp [Navigation.addLabelled, List.foldlM_cons, labelOf_eq_ok hl, bind, Except.bind, pure,
          Except.pure]
      rw [hstep, hm']
    · have hcons (k : String) : lastLabelled k (e :: es) =
          (lastLabelled k es).or (lastLabelled k [e]) := lastLabelled_append k [e] es
      simpa only [hcons, Option.or_assoc] using hheld

theorem tabs?_eq_some {docs : Json} {tabs : List Json} (h : tabs? docs = .ok (some tabs)) :
    ∃ fs ns v, docs = .obj fs ∧ get? "navigation" fs = some (.obj ns) ∧
      get? "tabs" ns = some v ∧ v.each = .ok tabs := by
  obtain ⟨b, -, h⟩ := Attempt.bind_eq_ok.mp h
  cases b with
  | false => cases h
  | true =>
    obtain ⟨n, hn, h⟩ := Attempt.bind_eq_ok.mp h
    obtain ⟨c, -, h⟩ := Attempt.bind_eq_ok.mp h
    cases c with
    | false => cases h
    | true =>
      obtain ⟨v, hv, h⟩ := Attempt.bind_eq_ok.mp h
      obtain ⟨ts, hts, h⟩ := Attempt.bind_eq_ok.mp h
      obtain rfl : ts = tabs := Option.some.inj (Except.ok.inj h)
      obtain ⟨fs, rfl, hfs⟩ := Json.item_eq_ok.mp hn
      obtain ⟨ns, rfl, hns⟩ := Json.item_eq_ok.mp hv
      exact ⟨fs, ns, v, rfl, hfs, hns, hts⟩

/-- Items that are objects come from a list. -/
theorem each_eq_arr {v : Json} {items : List Json} (h : v.each = .ok items) {x : Json}
    (hx : x ∈ items) (hobj : ∃ fs, x = .obj fs) : v = .arr items := by
  obtain ⟨fs, rfl⟩ := hobj
  cases v with
  | arr xs => rw [Except.ok.inj h]
  | obj gs => rw [← Except.ok.inj h] at hx; simp at hx
  | str s => rw [← Except.ok.inj h] at hx; simp at hx
  | _ => cases h

/-- The reference tab of a configuration, with the tabs around it. -/
def ReferenceTab (docs : Json) (before : List Json) (tab : Json) (after : List Json) : Prop :=
  ∃ tabs, HasTabs docs tabs ∧ FirstTab sdkTab before tab after tabs

theorem sdkTab?_eq_some {docs tab : Json} :
    sdkTab? docs = .ok (some tab) ↔ ∃ before after, ReferenceTab docs before tab after := by
  constructor
  · intro h
    obtain ⟨r, hr, h⟩ := Attempt.bind_eq_ok.mp h
    cases r with
    | none => cases h
    | some tabs =>
      obtain ⟨found, hfound, h⟩ := Attempt.bind_eq_ok.mp h
      obtain ⟨⟨before, t, after⟩, rfl, ht⟩ := Option.map_eq_some_iff.mp (Except.ok.inj h)
      obtain rfl : t = tab := ht
      have hfirst := findTab_eq_some.mp hfound
      obtain ⟨fs, ns, v, rfl, hfs, hns, hv⟩ := tabs?_eq_some hr
      have hmem : t ∈ tabs := by rw [hfirst.eq]; simp
      rw [each_eq_arr hv hmem (isObject_of_textAt? hfirst.named)] at hns
      exact ⟨before, after, tabs, ⟨fs, ns, rfl, hfs, hns⟩, hfirst⟩
  · rintro ⟨before, after, tabs, htabs, hfirst⟩
    simp [sdkTab?, htabs.tabs?_eq, findTab_eq_some.mpr hfirst, bind, Except.bind, pure,
      Except.pure]

theorem setSdkTab_eq {docs tab : Json} {before after : List Json}
    (h : ReferenceTab docs before tab after) (tab' : Json) :
    setSdkTab tab' docs = .ok (withTabs (before ++ tab' :: after) docs) := by
  obtain ⟨tabs, htabs, hfirst⟩ := h
  have hset := htabs.setTabs_eq (before ++ tab' :: after)
  simp only [setTabs] at hset
  simpa [setSdkTab, htabs.tabs?_eq, findTab_eq_some.mpr hfirst, bind, Except.bind] using hset

/-- The versions that a tab is gone through for. -/
def Lists (tab : Json) (entries : List Json) : Prop :=
  ∃ v, tab.get "dropdowns" (.arr []) = .ok v ∧ v.each = .ok entries

theorem Labelled.lists {tab : Json} (h : Labelled tab) (hobj : ∃ fs, tab = .obj fs) :
    Lists tab (versionsIn tab) := by
  obtain ⟨fs, rfl⟩ := hobj
  refine ⟨_, Json.get_eq_ok.mpr ⟨fs, rfl, rfl⟩, ?_⟩
  cases hf : get? "dropdowns" fs with
  | none => simp [versionsIn, Json.field, Json.field?, Json.entries, hf, Json.items, Json.each]
  | some v =>
    obtain ⟨es, rfl⟩ := h.listed v (by simpa [Json.field?, Json.entries] using hf)
    simp [versionsIn, Json.field, Json.field?, Json.entries, hf, Json.items, Json.each]

theorem sortable_of_label? {entry : Json} {l : String} (h : label? entry = some l) :
    Sortable entry := by
  obtain ⟨fs, rfl⟩ := isObject_of_textAt? h
  refine ⟨fs, rfl, fun v hv => ⟨l, ?_⟩⟩
  have hl := Json.textAt?_eq_some.mp h
  rw [Json.field?, Json.entries, hv] at hl
  exact Option.some.inj hl

/-- What is made of the versions `es` of an existing tab and the versions `ns` of a new one. -/
structure Merged (es ns merged : List Json) : Prop where
  labels : ∀ e ∈ merged, ∃ l, label? e = some l
  entries : ∀ l, merged.filter (isLabelled l) =
    ((lastLabelled l ns).or ((lastLabelled l es).map archived)).toList
  order : merged.Pairwise fun a b => notOlder a b = true

theorem Merged.latest_first {es ns merged : List Json} (h : Merged es ns merged) {e : Json}
    (he : e ∈ merged) (hl : label? e = some latest) : merged.head? = some e := by
  have horder := h.order
  have hfilter := h.entries latest
  cases merged with
  | nil => simp at he
  | cons first rest =>
    have hfirst : label? first = some latest := by
      rcases List.mem_cons.mp he with rfl | hm
      · exact hl
      · exact Navigation.latest_first ((List.pairwise_cons.mp horder).1 e hm) hl
    -- Both are labelled as the latest, and only one entry is.
    have hmem : e ∈ (first :: rest).filter (isLabelled latest) :=
      List.mem_filter.mpr ⟨he, by simp [isLabelled, hl]⟩
    have hfmem : first ∈ (first :: rest).filter (isLabelled latest) :=
      List.mem_filter.mpr ⟨by simp, by simp [isLabelled, hfirst]⟩
    rw [hfilter] at hmem hfmem
    have heq : some first = some e := by
      rw [Option.mem_toList] at hmem hfmem
      rw [← hmem, hfmem]
    simpa using heq

/-- The collection of all versions by their labels, in order. -/
theorem exists_merged {es ns : List Json} (hes : ∀ e ∈ es, ∃ l, label? e = some l)
    (hns : ∀ e ∈ ns, ∃ l, label? e = some l) :
    ∃ m m' merged, addLabelled [] (es.map archived) = .ok m ∧ addLabelled m ns = .ok m' ∧
      sortVersions (m'.map Prod.snd) = .ok merged ∧ Merged es ns merged := by
  have hempty : Holds [] (fun _ => none) := ⟨by simp, by simp⟩
  have harchived : ∀ e ∈ es.map archived, ∃ l, label? e = some l := by
    intro e he
    obtain ⟨x, hx, rfl⟩ := List.mem_map.mp he
    rw [label?_archived]
    exact hes x hx
  obtain ⟨m, hm, hheld⟩ := hempty.addLabelled harchived
  obtain ⟨m', hm', hheld'⟩ := hheld.addLabelled hns
  have hlabels : ∀ e ∈ m'.map Prod.snd, ∃ l, label? e = some l := by
    intro e he
    obtain ⟨p, hp, rfl⟩ := List.mem_map.mp he
    obtain ⟨l, -, hl⟩ := hheld'.keyed p hp
    exact ⟨l, hl⟩
  refine ⟨m, m', _, hm, hm', sortVersions_eq_ok.mpr ⟨?_, rfl⟩, ?_, ?_, ?_⟩
  · intro e he
    obtain ⟨l, hl⟩ := hlabels e he
    exact sortable_of_label? hl
  · intro e he
    exact hlabels e (List.mem_mergeSort.mp he)
  · intro l
    rw [StableSort.filter_mergeSort notOlder_trans notOlder_total, hheld'.entries l,
      lastLabelled_map_archived, Option.or_none]
    cases (lastLabelled l ns).or ((lastLabelled l es).map archived) <;> simp
  · exact List.pairwise_mergeSort notOlder_trans notOlder_total _

/-- Merging two configurations whose versions are labelled never fails, and changes the versions
of the new one only. -/
theorem mergeVersions_eq_ok {existing new oldTab tab : Json} {before₀ after₀ before after es ns :
    List Json} (hold : ReferenceTab existing before₀ oldTab after₀)
    (hnew : ReferenceTab new before tab after) (hes : Lists oldTab es) (hns : Lists tab ns)
    (hesl : ∀ e ∈ es, ∃ l, label? e = some l) (hnsl : ∀ e ∈ ns, ∃ l, label? e = some l) :
    ∃ existing' merged, mergeVersions existing new =
      .ok (existing', withTabs (before ++ withVersions merged tab :: after) new) ∧
        Merged es ns merged := by
  obtain ⟨ov, hov, hoe⟩ := hes
  obtain ⟨nv, hnv, hne⟩ := hns
  obtain ⟨m, m', merged, hm, hm', hsort, hmerged⟩ := exists_merged hesl hnsl
  have harch : es.mapM archive = .ok (es.map archived) :=
    Attempt.mapM_eq_ok_map fun e he => by
      obtain ⟨l, hl⟩ := hesl e he
      exact archive_eq_ok hl
  have hput : tab.put "dropdowns" (.arr merged) = .ok (withVersions merged tab) := by
    obtain ⟨fs, rfl, -⟩ := Json.get_eq_ok.mp hnv
    rfl
  have hput₀ : oldTab.put "dropdowns" (.arr (es.map archived)) =
      .ok (withVersions (es.map archived) oldTab) := by
    obtain ⟨fs, rfl, -⟩ := Json.get_eq_ok.mp hov
    rfl
  have hold' := sdkTab?_eq_some.mpr ⟨_, _, hold⟩
  have hnew' := sdkTab?_eq_some.mpr ⟨_, _, hnew⟩
  have hrun : ∃ existing', mergeVersions existing new =
      .ok (existing', withTabs (before ++ withVersions merged tab :: after) new) := by
    simp only [mergeVersions, hold', hnew', needTab, hov, hnv, hoe, hne, harch, hm, hm', hsort,
      hput, hput₀, setSdkTab_eq hnew, setSdkTab_eq hold, bind, Except.bind, pure, Except.pure]
    split <;> exact ⟨_, rfl⟩
  obtain ⟨existing', hrun⟩ := hrun
  exact ⟨existing', merged, hrun, hmerged⟩

/-- The versions in the reference tab of a configuration. -/
def publishedIn (docs : Json) : List Json :=
  ((tabsIn docs).find? fun t => t.textAt? "tab" = some sdkTab).elim [] versionsIn

/-- A configuration with a reference tab whose versions are labelled. -/
def HasReference (docs : Json) : Prop :=
  ∃ before tab after, ReferenceTab docs before tab after ∧ Labelled tab

/-- Merges one configuration after another, each into what came of those before it. -/
def mergeAll (docs : Json) (news : List Json) : Except Fault Json :=
  news.foldlM (fun docs new => return (← mergeVersions docs new).2) docs

/-- The version of a label in the last of several configurations that has one. -/
def lastSupplied (l : String) (docs : List Json) : Option Json :=
  (docs.filterMap fun d => lastLabelled l (publishedIn d)).getLast?

theorem ReferenceTab.publishedIn_eq {docs tab : Json} {before after : List Json}
    (h : ReferenceTab docs before tab after) : publishedIn docs = versionsIn tab := by
  obtain ⟨tabs, htabs, hfirst⟩ := h
  have hfind : tabs.find? (fun t => t.textAt? "tab" = some sdkTab) = some tab := by
    rw [hfirst.eq, List.find?_append,
      List.find?_eq_none.mpr fun t ht => by simpa using (hfirst.others t ht).2]
    simp [hfirst.named]
  rw [publishedIn, htabs.tabsIn_eq, hfind]
  rfl

theorem ReferenceTab.isObject {docs tab : Json} {before after : List Json}
    (h : ReferenceTab docs before tab after) : ∃ fs, tab = .obj fs := by
  obtain ⟨tabs, -, hfirst⟩ := h
  exact isObject_of_textAt? hfirst.named

theorem versionsIn_withVersions (entries : List Json) (tab : Json) :
    versionsIn (withVersions entries tab) = entries := by
  simp [versionsIn, withVersions, Json.field, Json.field?, Json.entries, Json.items]

/-- The reference tab stays where it is when it gets other versions. -/
theorem ReferenceTab.withVersions {docs tab : Json} {before after : List Json}
    (h : ReferenceTab docs before tab after) (entries : List Json) :
    ReferenceTab (withTabs (before ++ withVersions entries tab :: after) docs) before
      (withVersions entries tab) after := by
  obtain ⟨tabs, -, hfirst⟩ := h
  refine ⟨_, hasTabs_withTabs _ _, rfl, ?_, hfirst.others⟩
  have hne : "tab" ≠ "dropdowns" := by decide
  have hnamed := Json.textAt?_eq_some.mp hfirst.named
  exact Json.textAt?_eq_some.mpr ((get?_set_of_ne hne _ _).trans hnamed)

theorem lastLabelled_eq_of_merged {es ns merged : List Json} (h : Merged es ns merged)
    (l : String) :
    lastLabelled l merged = (lastLabelled l ns).or ((lastLabelled l es).map archived) := by
  rw [lastLabelled, h.entries l]
  cases (lastLabelled l ns).or ((lastLabelled l es).map archived) <;> rfl

theorem mergeVersions_step {docs new : Json} (hdocs : HasReference docs)
    (hnew : HasReference new) :
    ∃ existing' new', mergeVersions docs new = .ok (existing', new') ∧ HasReference new' ∧
      Merged (publishedIn docs) (publishedIn new) (publishedIn new') := by
  obtain ⟨before₀, oldTab, after₀, hold, hlabelled₀⟩ := hdocs
  obtain ⟨before, tab, after, href, hlabelled⟩ := hnew
  obtain ⟨existing', merged, hrun, hmerged⟩ := mergeVersions_eq_ok hold href
    (hlabelled₀.lists hold.isObject) (hlabelled.lists href.isObject) hlabelled₀.labels
    hlabelled.labels
  have href' := href.withVersions merged
  refine ⟨existing', _, hrun, ⟨before, _, after, href', ?_, ?_⟩, ?_⟩
  · intro v hv
    refine ⟨merged, Option.some.inj (hv.symm.trans ?_)⟩
    exact get?_set_self _ _ _
  · rw [versionsIn_withVersions]
    exact hmerged.labels
  · rw [hold.publishedIn_eq, href.publishedIn_eq, href'.publishedIn_eq, versionsIn_withVersions]
    exact hmerged

theorem lastSupplied_cons (l : String) (d : Json) (docs : List Json) :
    lastSupplied l (d :: docs) = (lastSupplied l docs).or (lastLabelled l (publishedIn d)) := by
  cases h : lastLabelled l (publishedIn d) <;>
    simp [lastSupplied, h, List.getLast?_cons]

theorem mergeAll_cons (docs new : Json) (news : List Json) :
    mergeAll docs (new :: news) = (mergeVersions docs new >>= fun r => mergeAll r.2 news) := by
  cases h : mergeVersions docs new <;> simp [mergeAll, List.foldlM_cons, h, bind, Except.bind,
    pure, Except.pure]

theorem mergeAll_append (docs : Json) (news more : List Json) :
    mergeAll docs (news ++ more) = (mergeAll docs news >>= fun d => mergeAll d more) := by
  simp [mergeAll, List.foldlM_append]

/-- In a run of merges every version stays as it was supplied last, but for the mark of archived
ones. -/
theorem mergeAll_eq_ok {docs : Json} {news : List Json} (hdocs : HasReference docs)
    (hnews : ∀ n ∈ news, HasReference n) :
    ∃ final, mergeAll docs news = .ok final ∧ HasReference final ∧ ∀ l,
      (lastLabelled l (publishedIn final)).map archived =
        (lastSupplied l (docs :: news)).map archived := by
  induction news generalizing docs with
  | nil => exact ⟨docs, rfl, hdocs, fun l => by rw [lastSupplied_cons]; rfl⟩
  | cons new news ih =>
    obtain ⟨existing', new', hrun, hnew', hmerged⟩ :=
      mergeVersions_step hdocs (hnews new (by simp))
    obtain ⟨final, hfinal, href, hkept⟩ := ih hnew' fun n hn => hnews n (by simp [hn])
    refine ⟨final, ?_, href, fun l => ?_⟩
    · rw [mergeAll_cons, hrun]
      exact hfinal
    · rw [hkept l]
      simp only [lastSupplied_cons, lastLabelled_eq_of_merged hmerged]
      cases lastSupplied l news with
      | some e => rfl
      | none =>
        cases lastLabelled l (publishedIn new) with
        | some e => rfl
        | none => cases lastLabelled l (publishedIn docs) <;> simp [archived_archived]

/-- No published version is lost. A merge leaves one version for every label of either side: that
of the new configuration as it is, else that of the existing one marked as archived. Nothing else
in the new configuration changes. After a run of merges every label is there, with what the last
configuration that had it supplied. -/
theorem mergeVersions_keeps_published {existing new tab : Json} {before after news : List Json}
    (hexisting : HasReference existing) (hnew : ReferenceTab new before tab after)
    (hlabelled : Labelled tab) (hnews : ∀ n ∈ news, HasReference n) :
    (∃ existing' merged, mergeVersions existing new =
        .ok (existing', withTabs (before ++ withVersions merged tab :: after) new) ∧
      (∀ e ∈ merged, ∃ l, label? e = some l) ∧
      (∀ l, merged.filter (isLabelled l) = ((lastLabelled l (versionsIn tab)).or
        ((lastLabelled l (publishedIn existing)).map archived)).toList) ∧
      ∀ e ∈ merged, label? e = some latest → merged.head? = some e) ∧
    ∃ final, mergeAll existing (news ++ [new]) = .ok final ∧ ∀ l,
      (publishedIn final).filter (isLabelled l) = ((lastLabelled l (versionsIn tab)).or
        ((lastSupplied l (existing :: news)).map archived)).toList := by
  constructor
  · obtain ⟨before₀, oldTab, after₀, hold, hlabelled₀⟩ := hexisting
    obtain ⟨existing', merged, hrun, hmerged⟩ := mergeVersions_eq_ok hold hnew
      (hlabelled₀.lists hold.isObject) (hlabelled.lists hnew.isObject) hlabelled₀.labels
      hlabelled.labels
    refine ⟨existing', merged, hrun, hmerged.labels, ?_, fun e he hl => hmerged.latest_first he hl⟩
    rw [hold.publishedIn_eq]
    exact hmerged.entries
  · obtain ⟨docs, hdocs, href, hkept⟩ := mergeAll_eq_ok hexisting hnews
    obtain ⟨docs', final, hrun, -, hmerged⟩ :=
      mergeVersions_step href ⟨before, tab, after, hnew, hlabelled⟩
    refine ⟨final, ?_, fun l => ?_⟩
    · have hlast : mergeAll docs [new] = .ok final := by
        rw [mergeAll_cons, hrun]
        rfl
      exact (mergeAll_append _ _ _).trans (Attempt.bind_eq_ok.mpr ⟨docs, hdocs, hlast⟩)
    · rw [hmerged.entries l, hkept l, hnew.publishedIn_eq]

/-- A configuration with versions that have labels only. -/
def bareSite (labels : List String) : Json :=
  withTabs [.obj [("tab", .str sdkTab),
    ("dropdowns", .arr (labels.map fun l => .obj [("dropdown", .str l)]))]] (.obj [])

theorem hasReference_bareSite (labels : List String) : ∃ tab,
    ReferenceTab (bareSite labels) [] tab [] ∧ Labelled tab ∧
      versionsIn tab = labels.map fun l => .obj [("dropdown", .str l)] := by
  refine ⟨_, ⟨_, hasTabs_withTabs _ _, rfl, rfl, by simp⟩, ⟨?_, ?_⟩, rfl⟩
  · intro v hv
    exact ⟨_, (Option.some.inj hv).symm⟩
  · intro e he
    obtain ⟨l, -, rfl⟩ := List.mem_map.mp he
    exact ⟨l, rfl⟩

theorem mergeVersions_keeps_archived :
    ∃ final, mergeAll (bareSite ["v0.1"]) [bareSite [latest, "v0.2"], bareSite [latest]] =
        .ok final ∧
      (publishedIn final).filter (isLabelled "v0.1") =
        [.obj [("dropdown", .str "v0.1"), ("icon", .str "archive")]] := by
  obtain ⟨tab₁, href₁, hlabelled₁, -⟩ := hasReference_bareSite ["v0.1"]
  obtain ⟨tab₂, href₂, hlabelled₂, -⟩ := hasReference_bareSite [latest, "v0.2"]
  obtain ⟨tab₃, href₃, hlabelled₃, hversions⟩ := hasReference_bareSite [latest]
  have hnews : ∀ n ∈ [bareSite [latest, "v0.2"]], HasReference n := by
    intro n hn
    obtain rfl := List.mem_singleton.mp hn
    exact ⟨_, _, _, href₂, hlabelled₂⟩
  obtain ⟨-, final, hfinal, hkept⟩ :=
    mergeVersions_keeps_published ⟨_, _, _, href₁, hlabelled₁⟩ href₃ hlabelled₃ hnews
  refine ⟨final, hfinal, (hkept "v0.1").trans ?_⟩
  rw [hversions]
  rfl

end DocSite.Navigation
