import DocSite.Proofs.Navigation.Update

namespace DocSite.Navigation

open OrderedMap Edit

variable {name l : String} {d docs base : Json} {versions tabs before after entries : List Json}

/-- A configuration that is not empty, whose tabs are objects with versions that can be sorted.
The places for tabs and for versions may be missing. -/
structure WellFormed (docs : Json) : Prop where
  present : ∃ fs, docs = .obj fs ∧ fs ≠ []
  navigation : ∀ v, docs.field? "navigation" = some v → ∃ ns, v = .obj ns
  listed : ∀ v, (docs.field "navigation").field? "tabs" = some v → ∃ ts, v = .arr ts
  objects : ∀ t ∈ tabsIn docs, ∃ fs, t = .obj fs
  versions : ∀ t ∈ tabsIn docs, ∀ v, t.field? "dropdowns" = some v →
    ∃ es, v = .arr es ∧ ∀ e ∈ es, Sortable e

/-- Versions after several were put in place, one after another. -/
def revisedAll (entries versions : List Json) : List Json :=
  versions.foldl (fun es d => revised ((label? d).getD "") d es) entries

/-- Whether an entry has a label that none of the given versions has, or none at all. -/
def unusedIn (versions : List Json) (entry : Json) : Bool :=
  versions.all fun d => label? d ≠ label? entry

theorem revised_perm (l : String) (d : Json) (entries : List Json) :
    (revised l d entries).Perm (entries.filter (fun e => !isLabelled l e) ++ [d]) :=
  List.mergeSort_perm _ _

theorem filter_revised_perm {p : Json → Bool} (hd : label? d = some l)
    (hp : ∀ e, label? e = label? d → p e = false) (entries : List Json) :
    ((revised l d entries).filter p).Perm (entries.filter p) := by
  have hkeep : (fun e => p e && !isLabelled l e) = p := by
    funext e
    cases he : isLabelled l e with
    | false => simp
    | true =>
      have hl : label? e = label? d := by simpa [isLabelled, hd] using he
      simp [hp e hl]
  have hsort := (revised_perm l d entries).filter p
  simpa [List.filter_append, List.filter_filter, hkeep, hp d rfl] using hsort

theorem filter_revised_self (hd : label? d = some l) (entries : List Json) :
    (revised l d entries).filter (isLabelled l) = [d] := by
  have hin : isLabelled l d = true := by simp [isLabelled, hd]
  have hsort := (revised_perm l d entries).filter (isLabelled l)
  have hout : entries.filter (fun e => isLabelled l e && !isLabelled l e) = [] := by simp
  rw [List.filter_append, List.filter_filter, hout] at hsort
  exact List.perm_singleton.mp (by simpa [hin] using hsort)

/-- What has none of the labels that are put in place stays, as often as it was there. -/
theorem filter_revisedAll_perm {p : Json → Bool} (hlabels : ∀ d ∈ versions, ∃ l, label? d = some l)
    (hp : ∀ d ∈ versions, ∀ e, label? e = label? d → p e = false) (entries : List Json) :
    ((revisedAll entries versions).filter p).Perm (entries.filter p) := by
  induction versions generalizing entries with
  | nil => exact .refl _
  | cons d ds ih =>
    obtain ⟨l, hl⟩ := hlabels d (by simp)
    have hrest := ih (fun x hx => hlabels x (by simp [hx])) (fun x hx => hp x (by simp [hx]))
      (revised l d entries)
    simpa [revisedAll, hl] using hrest.trans (filter_revised_perm hl (hp d (by simp)) entries)

/-- Of all that are put in place under a label the last one is there, and only that. -/
theorem filter_revisedAll_last (hlabels : ∀ d ∈ versions, ∃ l, label? d = some l)
    (hlast : lastLabelled l versions = some d) (entries : List Json) :
    (revisedAll entries versions).filter (isLabelled l) = [d] := by
  induction versions generalizing entries with
  | nil => simp [lastLabelled] at hlast
  | cons x xs ih =>
    obtain ⟨k, hk⟩ := hlabels x (by simp)
    have hxs : ∀ y ∈ xs, ∃ l, label? y = some l := fun y hy => hlabels y (by simp [hy])
    have hstep : revisedAll entries (x :: xs) = revisedAll (revised k x entries) xs := by
      simp [revisedAll, hk]
    have hor : (lastLabelled l xs).or (lastLabelled l [x]) = some d := by
      rw [← lastLabelled_append]
      exact hlast
    rw [hstep]
    cases hlater : lastLabelled l xs with
    | some y =>
      obtain rfl : y = d := by simpa [hlater] using hor
      exact ih hxs hlater _
    | none =>
      -- No later version has this label, so what the first one left is kept.
      have hone : lastLabelled l [x] = some d := by simpa [hlater] using hor
      have hx : isLabelled l x = true := by
        cases hx : isLabelled l x with
        | false => simp [lastLabelled, hx] at hone
        | true => rfl
      obtain rfl : x = d := by simpa [lastLabelled, hx] using hone
      obtain rfl : k = l := by simpa [isLabelled, hk] using hx
      have hnone : ∀ y ∈ xs, ∀ e, label? e = label? y → isLabelled k e = false := by
        intro y hy e he
        have hout := List.filter_eq_nil_iff.mp (List.getLast?_eq_none_iff.mp hlater) y hy
        simpa [isLabelled, he] using hout
      have hperm := filter_revisedAll_perm hxs hnone (revised k x entries)
      rw [filter_revised_self hk] at hperm
      exact List.perm_singleton.mp hperm

/-- A tab without versions. -/
def bareTab (name : String) : Json := .obj [("tab", .str name)]

/-- The tab that versions are going to be put into, with the tabs around it: the first one of its
name if that has versions, else a new one in its place or behind all others. -/
inductive Opened (name : String) (tabs : List Json) : List Json → Json → List Json → Prop
  | added (h : ∀ t ∈ tabs, (∃ fs, t = .obj fs) ∧ t.textAt? "tab" ≠ some name) :
      Opened name tabs tabs (bareTab name) []
  | replaced {before after : List Json} {tab : Json} (h : FirstTab name before tab after tabs)
      (hnone : tab.field? "dropdowns" = none) : Opened name tabs before (bareTab name) after
  | kept {before after entries : List Json} {tab : Json}
      (h : FirstTab name before tab after tabs)
      (hsome : tab.field? "dropdowns" = some (.arr entries))
      (hsortable : ∀ e ∈ entries, Sortable e) : Opened name tabs before tab after

theorem withVersions_withVersions (es es' : List Json) (tab : Json) :
    withVersions es' (withVersions es tab) = withVersions es' tab := by
  simp [withVersions, Json.entries]

theorem textAt?_withVersions (es : List Json) (tab : Json) :
    (withVersions es tab).textAt? "tab" = tab.textAt? "tab" := by
  have hne : "tab" ≠ "dropdowns" := by decide
  simp [withVersions, Json.textAt?, Json.field, Json.field?, Json.entries, get?_set_of_ne hne]

theorem field?_dropdowns_withVersions (es : List Json) (tab : Json) :
    (withVersions es tab).field? "dropdowns" = some (.arr es) := by
  simp [withVersions, Json.field?, Json.entries]

theorem renamed_of_textAt? {tab : Json} (h : tab.textAt? "tab" = some name) :
    renamed name tab = tab := by
  obtain ⟨fs, rfl⟩ := isObject_of_textAt? h
  exact congrArg Json.obj (set_of_get? (Json.textAt?_eq_some.mp h))

theorem revised_nil (l : String) (d : Json) : revised l d [] = [d] := by
  simp [revised]

theorem withVersions_bareTab (name l : String) (d : Json) :
    withVersions (revised l d (versionsIn (bareTab name))) (bareTab name) = oneVersion name d :=
  congrArg (withVersions · (bareTab name)) (revised_nil l d)

namespace Opened

theorem others (h : Opened name tabs before base after) :
    ∀ t ∈ before, (∃ fs, t = .obj fs) ∧ t.textAt? "tab" ≠ some name := by
  cases h with
  | added hothers => exact hothers
  | replaced hfirst => exact hfirst.others
  | kept hfirst => exact hfirst.others

theorem named (h : Opened name tabs before base after) : base.textAt? "tab" = some name := by
  cases h with
  | added => rfl
  | replaced => rfl
  | kept hfirst => exact hfirst.named

theorem sortable (h : Opened name tabs before base after) : ∀ e ∈ versionsIn base, Sortable e := by
  cases h with
  | added => exact fun e he => by cases he
  | replaced => exact fun e he => by cases he
  | kept hfirst hsome hsortable => simpa [versionsIn, Json.field, hsome, Json.items] using hsortable

theorem placed (h : Opened name tabs before base after) :
    Placed name name l d tabs
      (before ++ withVersions (revised l d (versionsIn base)) base :: after) := by
  cases h with
  | added hothers =>
    rw [withVersions_bareTab]
    exact .added hothers
  | replaced hfirst hnone =>
    rw [withVersions_bareTab]
    exact .replaced hfirst hnone
  | @kept _ _ entries _ hfirst hsome hsortable =>
    have hentries : versionsIn base = entries := by simp [versionsIn, Json.field, hsome, Json.items]
    have hplaced : Placed name name l d tabs _ := .versioned hfirst hsome rfl hsortable
    rwa [renamed_of_textAt? ((textAt?_withVersions _ _).trans hfirst.named), ← hentries] at hplaced

theorem first (h : Opened name tabs before base after) (entries : List Json) :
    FirstTab name before (withVersions entries base) after
      (before ++ withVersions entries base :: after) :=
  ⟨rfl, (textAt?_withVersions _ _).trans h.named, h.others⟩

/-- The tab stays the one that versions are put into. -/
theorem next (h : Opened name tabs before base after) (hsortable : ∀ e ∈ entries, Sortable e) :
    Opened name (before ++ withVersions entries base :: after) before
      (withVersions entries base) after :=
  .kept (h.first entries) (field?_dropdowns_withVersions _ _) hsortable

end Opened

theorem runOn_update_opened (htabs : HasTabs docs tabs) (h : Opened name tabs before base after)
    (hd : label? d = some l) (lines : List String) :
    ∃ lines', runOn (update name (oneVersion name d)) ⟨docs, lines⟩ = (.ok (),
      ⟨withTabs (before ++ withVersions (revised l d (versionsIn base)) base :: after) docs,
        lines'⟩) := by
  obtain ⟨lines', hrun⟩ := runOn_update_of_hasTabs htabs hd name name lines
  have hplaced := (placed_eq_ok hd).mpr ⟨tabs, rfl, h.placed⟩
  exact ⟨lines', by rw [hrun, hplaced]⟩

/-- Puts versions into the tab of a name, one after another. -/
def updates (name : String) (versions : List Json) : Edit Unit :=
  forM versions fun d => update name (oneVersion name d)

theorem updates_cons (name : String) (d : Json) (versions : List Json) :
    updates name (d :: versions) =
      (update name (oneVersion name d) >>= fun _ => updates name versions) :=
  List.forM_cons

theorem runOn_updates (htabs : HasTabs docs tabs) (h : Opened name tabs before base after)
    (hlabels : ∀ x ∈ d :: versions, ∃ l, label? x = some l) (lines : List String) :
    ∃ lines', runOn (updates name (d :: versions)) ⟨docs, lines⟩ = (.ok (), ⟨withTabs
      (before ++ withVersions (revisedAll (versionsIn base) (d :: versions)) base :: after) docs,
      lines'⟩) := by
  obtain ⟨l, hl⟩ := hlabels d (by simp)
  obtain ⟨lines', hrun⟩ := runOn_update_opened htabs h hl lines
  induction versions generalizing d docs tabs base l lines lines' with
  | nil =>
    refine ⟨lines', ?_⟩
    rw [updates_cons, runOn_bind, hrun]
    simp only [revisedAll, List.foldl_cons, List.foldl_nil, hl, Option.getD_some]
    rfl
  | cons x xs ih =>
    have hrest : ∀ y ∈ x :: xs, ∃ l, label? y = some l :=
      fun y hy => hlabels y (List.mem_cons_of_mem _ hy)
    have htabs' := hasTabs_withTabs
      (before ++ withVersions (revised l d (versionsIn base)) base :: after) docs
    have hnext := h.next (sortable_revised hl h.sortable)
    obtain ⟨k, hk⟩ := hrest x (by simp)
    obtain ⟨lines₂, hrun₂⟩ := runOn_update_opened htabs' hnext hk lines'
    obtain ⟨lines₃, hrun₃⟩ := ih htabs' hnext hrest lines' k hk lines₂ hrun₂
    refine ⟨lines₃, ?_⟩
    rw [updates_cons, runOn_bind, hrun]
    simp only [hrun₃, withTabs_withTabs, versionsIn_withVersions, withVersions_withVersions]
    simp only [revisedAll, List.foldl_cons, hl, Option.getD_some]

theorem WellFormed.ensureTabs_eq (h : WellFormed docs) :
    ensureTabs docs = .ok (withTabs (tabsIn docs) docs) := by
  obtain ⟨fs, rfl, -⟩ := h.present
  cases hn : get? "navigation" fs with
  | none =>
    simp [ensureTabs, Json.has, OrderedMap.has, hn, withTabs, tabsIn, Json.field, Json.field?,
      Json.entries, get?, OrderedMap.set, Json.items, Json.put, bind, Except.bind]
  | some n =>
    obtain ⟨ns, rfl⟩ := h.navigation n hn
    cases ht : get? "tabs" ns with
    | none =>
      simp [ensureTabs, Json.has, OrderedMap.has, hn, ht, withTabs, tabsIn, Json.field,
        Json.field?, Json.entries, Json.items, Json.item, Json.put, bind, Except.bind]
    | some v =>
      have hfield : (Json.field "navigation" (.obj fs)).field? "tabs" = some v := by
        simp [Json.field, Json.field?, Json.entries, hn, ht]
      obtain ⟨ts, rfl⟩ := h.listed v hfield
      have htabs : HasTabs (.obj fs) ts := ⟨fs, ns, rfl, hn, ht⟩
      rw [htabs.tabsIn_eq, htabs.withTabs_eq, htabs.ensureTabs_eq]

theorem WellFormed.isPresent (h : WellFormed docs) : docs.isPresent = true := by
  obtain ⟨fs, rfl, hne⟩ := h.present
  simpa [Json.isPresent] using hne

theorem WellFormed.exists_opened (h : WellFormed docs) (name : String) :
    ∃ before base after, Opened name (tabsIn docs) before base after ∧
      (∀ before₀ tab after₀, FirstTab name before₀ tab after₀ (tabsIn docs) →
        before = before₀ ∧ after = after₀ ∧
          ∀ v, tab.field? "dropdowns" = some v → base = tab) ∧
      ((∀ t ∈ tabsIn docs, t.textAt? "tab" ≠ some name) → before = tabsIn docs ∧ after = []) := by
  rcases exists_firstTab h.objects name with hothers | ⟨before, tab, after, hfirst⟩
  · refine ⟨_, _, _, .added hothers, fun b t a hfirst => ?_, fun _ => ⟨rfl, rfl⟩⟩
    have hmem : t ∈ tabsIn docs := by rw [hfirst.eq]; simp
    exact absurd hfirst.named (hothers t hmem).2
  · have hmem : tab ∈ tabsIn docs := by rw [hfirst.eq]; simp
    have hnamed (hnone : ∀ t ∈ tabsIn docs, t.textAt? "tab" ≠ some name) :
        before = tabsIn docs ∧ after = [] := absurd hfirst.named (hnone tab hmem)
    cases hfield : tab.field? "dropdowns" with
    | none =>
      refine ⟨_, _, _, .replaced hfirst hfield, fun b t a hfirst' => ?_, hnamed⟩
      obtain ⟨rfl, rfl, rfl⟩ := hfirst.unique hfirst'
      exact ⟨rfl, rfl, by simp [hfield]⟩
    | some v =>
      obtain ⟨es, rfl, hsortable⟩ := h.versions tab hmem v hfield
      refine ⟨_, _, _, .kept hfirst hfield hsortable, fun b t a hfirst' => ?_, hnamed⟩
      obtain ⟨rfl, rfl, rfl⟩ := hfirst.unique hfirst'
      exact ⟨rfl, rfl, fun _ _ => rfl⟩

theorem result_updates (h : WellFormed docs) (hopened : Opened name (tabsIn docs) before base after)
    (hne : versions ≠ []) (hlabels : ∀ d ∈ versions, ∃ l, label? d = some l) :
    ∃ lines, (updates name versions).result docs = (.ok (), ⟨withTabs
      (before ++ withVersions (revisedAll (versionsIn base) versions) base :: after) docs,
      lines⟩) := by
  cases versions with
  | nil => exact absurd rfl hne
  | cons d ds =>
    have htabs := hasTabs_withTabs (tabsIn docs) docs
    obtain ⟨lines, hrun⟩ := runOn_updates htabs hopened hlabels []
    refine ⟨lines, ?_⟩
    -- The first update makes a place for the tabs, where all others find it.
    have hfirst : runOn (updates name (d :: ds)) ⟨docs, []⟩ =
        runOn (updates name (d :: ds)) ⟨withTabs (tabsIn docs) docs, []⟩ := by
      simp only [updates_cons, runOn_bind, runOn_update, h.isPresent, h.ensureTabs_eq,
        htabs.isPresent, htabs.ensureTabs_eq, if_true]
    rw [result_eq, hfirst, hrun, withTabs_withTabs]

/-- Whatever versions are put into a configuration, the last one of every label is there
afterwards. Versions of other labels stay, and so does all else, but that a tab without versions
gives way to one with them. -/
theorem updates_last_wins (hdocs : WellFormed docs) (hne : versions ≠ [])
    (hlabels : ∀ d ∈ versions, ∃ l, label? d = some l) :
    ∃ before tab after lines, (updates name versions).result docs =
        (.ok (), ⟨withTabs (before ++ tab :: after) docs, lines⟩) ∧
      FirstTab name before tab after (before ++ tab :: after) ∧
      (∀ l d, lastLabelled l versions = some d → (versionsIn tab).filter (isLabelled l) = [d]) ∧
      (∀ before₀ tab₀ after₀, FirstTab name before₀ tab₀ after₀ (tabsIn docs) →
        before = before₀ ∧ after = after₀ ∧ ∀ v, tab₀.field? "dropdowns" = some v →
          tab = withVersions (versionsIn tab) tab₀ ∧
          ((versionsIn tab).filter (unusedIn versions)).Perm
            ((versionsIn tab₀).filter (unusedIn versions))) ∧
      ((∀ t ∈ tabsIn docs, t.textAt? "tab" ≠ some name) → before = tabsIn docs ∧ after = []) ∧
      ∀ key ≠ "navigation",
        (withTabs (before ++ tab :: after) docs).field? key = docs.field? key := by
  have hunused : ∀ d ∈ versions, ∀ e, label? e = label? d → unusedIn versions e = false := by
    intro d hd e he
    simpa [unusedIn, he] using ⟨d, hd, rfl⟩
  obtain ⟨before, base, after, hopened, hkept, hnew⟩ := hdocs.exists_opened name
  obtain ⟨lines, hrun⟩ := result_updates hdocs hopened hne hlabels
  have hversions := versionsIn_withVersions (revisedAll (versionsIn base) versions) base
  refine ⟨before, _, after, lines, hrun, hopened.first _, ?_, ?_, hnew, ?_⟩
  · intro l d hlast
    rw [hversions]
    exact filter_revisedAll_last hlabels hlast _
  · intro before₀ tab₀ after₀ hfirst
    obtain ⟨hbefore, hafter, hbase⟩ := hkept before₀ tab₀ after₀ hfirst
    refine ⟨hbefore, hafter, fun v hv => ?_⟩
    rw [hversions, hbase v hv]
    exact ⟨rfl, filter_revisedAll_perm hlabels hunused _⟩
  · intro key hkey
    exact field?_withTabs hkey _ _

theorem updates_last_wins_twice :
    let old := Json.obj [("dropdown", .str "v0.1"), ("icon", .str "archive")]
    let first := Json.obj [("dropdown", .str "v0.2")]
    let second := Json.obj [("dropdown", .str "v0.2"), ("groups", .arr [])]
    let docs := Json.obj [("navigation", .obj [("tabs", .arr
      [bareTab "Guides", .obj [("tab", .str sdkTab), ("dropdowns", .arr [old])]])])]
    WellFormed docs ∧ ∃ tab lines, (updates sdkTab [first, second]).result docs =
        (.ok (), ⟨withTabs [bareTab "Guides", tab] docs, lines⟩) ∧
      (versionsIn tab).filter (isLabelled "v0.2") = [second] ∧
      ((versionsIn tab).filter (unusedIn [first, second])).Perm [old] := by
  intro old first second docs
  have hdocs : WellFormed docs := by
    refine ⟨⟨_, rfl, by simp⟩, ?_, ?_, ?_, ?_⟩
    · intro v hv
      exact ⟨_, (Option.some.inj hv).symm⟩
    · intro v hv
      exact ⟨_, (Option.some.inj hv).symm⟩
    · exact List.forall_mem_cons.mpr ⟨⟨_, rfl⟩, List.forall_mem_singleton.mpr ⟨_, rfl⟩⟩
    · refine List.forall_mem_cons.mpr ⟨fun v hv => (by cases hv), ?_⟩
      refine List.forall_mem_singleton.mpr fun v hv => ⟨[old], (Option.some.inj hv).symm, ?_⟩
      exact List.forall_mem_singleton.mpr (sortable_of_label? (l := "v0.1") rfl)
  have hlabels : ∀ d ∈ [first, second], ∃ l, label? d = some l :=
    List.forall_mem_cons.mpr ⟨⟨_, rfl⟩, List.forall_mem_singleton.mpr ⟨_, rfl⟩⟩
  obtain ⟨before, tab, after, lines, hrun, -, hlast, hkept, -⟩ :=
    updates_last_wins hdocs (List.cons_ne_nil _ _) hlabels
  obtain ⟨rfl, rfl, hversions⟩ := hkept [bareTab "Guides"] _ []
    ⟨rfl, rfl, List.forall_mem_singleton.mpr ⟨⟨_, rfl⟩, by decide⟩⟩
  exact ⟨hdocs, tab, lines, hrun, hlast "v0.2" second rfl, (hversions _ rfl).2⟩

theorem versionKey_of_label? (hd : label? d = some l) : versionKey d = labelKey l := by
  simp [versionKey, hd]

theorem revised_revised_of_ne {d₁ d₂ : Json} {l₁ l₂ : String} (h₁ : label? d₁ = some l₁)
    (hne : l₁ ≠ l₂) (entries : List Json) :
    revised l₂ d₂ (revised l₁ d₁ entries) =
      (entries.filter (fun e => !isLabelled l₁ e && !isLabelled l₂ e) ++ [d₁, d₂]).mergeSort
        notOlder := by
  have hkept : isLabelled l₂ d₁ = false := by simpa [isLabelled, h₁] using hne
  rw [revised, revised, StableSort.filter_mergeSort notOlder_trans notOlder_total,
    StableSort.mergeSort_append notOlder_trans notOlder_total, List.filter_append]
  simp [hkept, List.filter_filter, Bool.and_comm]

theorem revised_comm {d₁ d₂ : Json} {l₁ l₂ : String} (h₁ : label? d₁ = some l₁)
    (h₂ : label? d₂ = some l₂) (hkeys : labelKey l₁ ≠ labelKey l₂) (entries : List Json) :
    revised l₂ d₂ (revised l₁ d₁ entries) = revised l₁ d₁ (revised l₂ d₂ entries) := by
  have hne : l₁ ≠ l₂ := fun h => hkeys (congrArg labelKey h)
  have htied : StableSort.tied notOlder d₁ d₂ = false := tied_notOlder_eq_false (by
    rwa [versionKey_of_label? h₁, versionKey_of_label? h₂])
  rw [revised_revised_of_ne h₁ hne, revised_revised_of_ne h₂ hne.symm,
    StableSort.mergeSort_swap notOlder_trans notOlder_total htied]
  simp only [Bool.and_comm]

/-- Where a version goes among tabs, whichever it is: into the tab `base`, beside the versions
`entries` that the tab has by then. -/
structure Receives (name : String) (tabs before : List Json) (base : Json)
    (after entries : List Json) : Prop where
  others : ∀ t ∈ before, (∃ fs, t = .obj fs) ∧ t.textAt? "tab" ≠ some name
  named : base.textAt? "tab" = some name
  sortable : ∀ e ∈ entries, Sortable e
  placed : ∀ l d, Placed name name l d tabs
    (before ++ withVersions (revised l d entries) base :: after)

theorem Placed.exists_receives {tabs' : List Json} (h : Placed name name l d tabs tabs') :
    ∃ before base after entries, Receives name tabs before base after entries := by
  have hnew (l : String) (d : Json) :
      withVersions (revised l d []) (bareTab name) = oneVersion name d :=
    withVersions_bareTab name l d
  cases h with
  | added hothers =>
    refine ⟨tabs, bareTab name, [], [], hothers, rfl, nofun, fun l d => ?_⟩
    rw [hnew]
    exact .added hothers
  | @replaced before after tab hfirst hnone =>
    refine ⟨before, bareTab name, after, [], hfirst.others, rfl, nofun, fun l d => ?_⟩
    rw [hnew]
    exact .replaced hfirst hnone
  | @versioned before after entries tab v hfirst hsome heach hsortable =>
    refine ⟨before, tab, after, entries, hfirst.others, hfirst.named, hsortable, fun l d => ?_⟩
    have hplaced : Placed name name l d tabs _ := .versioned hfirst hsome heach hsortable
    rwa [renamed_of_textAt? ((textAt?_withVersions _ _).trans hfirst.named)] at hplaced

theorem Receives.next (h : Receives name tabs before base after entries)
    {es : List Json} (hsortable : ∀ e ∈ es, Sortable e) :
    Receives name (before ++ withVersions es base :: after) before base after es := by
  have hnamed (es : List Json) : (withVersions es base).textAt? "tab" = some name :=
    (textAt?_withVersions es base).trans h.named
  refine ⟨h.others, h.named, hsortable, fun l d => ?_⟩
  have hplaced : Placed name name l d (before ++ withVersions es base :: after) _ :=
    .versioned ⟨rfl, hnamed es, h.others⟩ (field?_dropdowns_withVersions es base) rfl hsortable
  rwa [withVersions_withVersions, renamed_of_textAt? (hnamed _)] at hplaced

/-- Whether an update of one version succeeds does not depend on the version, nor does what it
leaves if it fails. -/
theorem update_cases (name : String) (docs : Json) :
    (∃ docs', ∀ l d, label? d = some l → ∃ e lines,
      (update name (oneVersion name d)).result docs = (.error e, ⟨docs', lines⟩)) ∨
    ∃ docs' tabs before base after entries, Receives name tabs before base after entries ∧
      ∀ l d, label? d = some l → ∃ lines, (update name (oneVersion name d)).result docs = (.ok (),
        ⟨withTabs (before ++ withVersions (revised l d entries) base :: after) docs', lines⟩) := by
  cases hp : docs.isPresent with
  | false =>
    refine .inl ⟨docs, fun l d _ =>
      ⟨.notLoaded "docs.json not loaded. Call load() first.", [], ?_⟩⟩
    rw [result_eq, runOn_update, if_neg (by simp [hp])]
  | true =>
    cases hensure : ensureTabs docs with
    | error e =>
      refine .inl ⟨docs, fun l d _ => ⟨e, [], ?_⟩⟩
      rw [result_eq, runOn_update, if_pos hp, hensure]
    | ok docs' =>
      have hrun (d : Json) : (update name (oneVersion name d)).result docs =
          runOn (place name (oneVersion name d)) ⟨docs', []⟩ := by
        rw [result_eq, runOn_update, if_pos hp, hensure]
      simp only [hrun]
      cases htabs : tabsOf docs' with
      | error e =>
        refine .inl ⟨docs', fun l d _ => ⟨e, [], ?_⟩⟩
        simp only [place, runOn_bind, runOn_docs, runOn_lift, htabs]
      | ok v =>
        by_cases hreceives : ∃ tabs before base after entries, v = .arr tabs ∧
            Receives name tabs before base after entries
        · obtain ⟨tabs, before, base, after, entries, rfl, h⟩ := hreceives
          refine .inr ⟨docs', tabs, before, base, after, entries, h, fun l d hd => ?_⟩
          obtain ⟨lines, hplace⟩ := runOn_place htabs hd name name []
          rw [(placed_eq_ok hd).mpr ⟨tabs, rfl, h.placed l d⟩] at hplace
          exact ⟨lines, hplace⟩
        · refine .inl ⟨docs', fun l d hd => ?_⟩
          obtain ⟨lines, hplace⟩ := runOn_place htabs hd name name []
          cases hplaced : placed name name l d v with
          | error e => exact ⟨e, lines, by rw [hplace, hplaced]⟩
          | ok tabs' =>
            obtain ⟨tabs, rfl, h⟩ := (placed_eq_ok hd).mp hplaced
            obtain ⟨before, base, after, entries, hr⟩ := h.exists_receives
            exact absurd ⟨tabs, before, base, after, entries, rfl, hr⟩ hreceives

theorem updates_pair_cases (name : String) (docs : Json) :
    (∃ docs', ∀ l₁ l₂ d₁ d₂, label? d₁ = some l₁ → label? d₂ = some l₂ → ∃ e lines,
      (updates name [d₁, d₂]).result docs = (.error e, ⟨docs', lines⟩)) ∨
    ∃ docs' before base after entries, ∀ l₁ l₂ d₁ d₂, label? d₁ = some l₁ → label? d₂ = some l₂ →
      ∃ lines, (updates name [d₁, d₂]).result docs = (.ok (), ⟨withTabs
        (before ++ withVersions (revised l₂ d₂ (revised l₁ d₁ entries)) base :: after) docs',
        lines⟩) := by
  rcases update_cases name docs with
    ⟨docs', hfail⟩ | ⟨docs', tabs, before, base, after, entries, h, hok⟩
  · refine .inl ⟨docs', fun l₁ l₂ d₁ d₂ h₁ h₂ => ?_⟩
    obtain ⟨e, lines, hrun⟩ := hfail l₁ d₁ h₁
    exact ⟨e, lines, by rw [result_eq, updates_cons, runOn_bind, ← result_eq, hrun]⟩
  · refine .inr ⟨docs', before, base, after, entries, fun l₁ l₂ d₁ d₂ h₁ h₂ => ?_⟩
    obtain ⟨lines, hrun⟩ := hok l₁ d₁ h₁
    let tabs₁ := before ++ withVersions (revised l₁ d₁ entries) base :: after
    have hnext := (h.next (sortable_revised h₁ h.sortable)).placed l₂ d₂
    obtain ⟨lines', hrun'⟩ :=
      runOn_update_of_hasTabs (hasTabs_withTabs tabs₁ docs') h₂ name name lines
    rw [(placed_eq_ok h₂).mpr ⟨tabs₁, rfl, hnext⟩] at hrun'
    refine ⟨lines', ?_⟩
    rw [result_eq, updates_cons, runOn_bind, ← result_eq, hrun]
    simp only
    rw [updates_cons, runOn_bind, hrun']
    simp only [withTabs_withTabs]
    rfl

/-- Versions whose keys differ may be put into a configuration in either order. Both orders leave
the same configuration, and both fail if one does; neither fails on a configuration that is well
formed. -/
theorem updates_commute {d₁ d₂ : Json} {l₁ l₂ : String} (h₁ : label? d₁ = some l₁)
    (h₂ : label? d₂ = some l₂) (hkeys : labelKey l₁ ≠ labelKey l₂) (name : String) (docs : Json) :
    let one := (updates name [d₁, d₂]).result docs
    let other := (updates name [d₂, d₁]).result docs
    one.2.docs = other.2.docs ∧ (one.1 = .ok () ↔ other.1 = .ok ()) ∧
      (WellFormed docs → one.1 = .ok ()) := by
  intro one other
  have hwell (h : WellFormed docs) : one.1 = .ok () := by
    obtain ⟨before, base, after, hopened, -⟩ := h.exists_opened name
    have hlabels : ∀ d ∈ [d₁, d₂], ∃ l, label? d = some l :=
      List.forall_mem_cons.mpr ⟨⟨l₁, h₁⟩, List.forall_mem_singleton.mpr ⟨l₂, h₂⟩⟩
    obtain ⟨lines, hrun⟩ := result_updates h hopened (List.cons_ne_nil _ _) hlabels
    exact congrArg Prod.fst hrun
  rcases updates_pair_cases name docs with
    ⟨docs', hfail⟩ | ⟨docs', before, base, after, entries, hok⟩
  · obtain ⟨e, lines, hone⟩ := hfail l₁ l₂ d₁ d₂ h₁ h₂
    obtain ⟨e', lines', hother⟩ := hfail l₂ l₁ d₂ d₁ h₂ h₁
    refine ⟨?_, ?_, hwell⟩ <;> simp only [one, other, hone, hother, reduceCtorEq]
  · obtain ⟨lines, hone⟩ := hok l₁ l₂ d₁ d₂ h₁ h₂
    obtain ⟨lines', hother⟩ := hok l₂ l₁ d₂ d₁ h₂ h₁
    refine ⟨?_, ?_, hwell⟩
    · simp only [one, other, hone, hother, revised_comm h₁ h₂ hkeys]
    · simp only [one, other, hone, hother]

theorem updates_commute_tied :
    let old (label : String) := Json.obj [("dropdown", .str label), ("icon", .str "archive")]
    let first := Json.obj [("dropdown", .str "v0.4")]
    let second := Json.obj [("dropdown", .str "v0.10"), ("groups", .arr [])]
    let docs := Json.obj [("navigation", .obj [("tabs", .arr [.obj [("tab", .str sdkTab),
      ("dropdowns", .arr [old "0.10", old "v0.4", old "0.4", old latest])]])])]
    labelKey "v0.4" ≠ labelKey "v0.10" ∧ WellFormed docs ∧
      ((updates sdkTab [first, second]).result docs).1 = .ok () ∧
      ((updates sdkTab [first, second]).result docs).2.docs =
        ((updates sdkTab [second, first]).result docs).2.docs := by
  intro old first second docs
  have hkeys : labelKey "v0.4" ≠ labelKey "v0.10" := by decide
  have hold (label : String) : Sortable (old label) := sortable_of_label? (l := label) rfl
  have hdocs : WellFormed docs := by
    refine ⟨⟨_, rfl, by simp⟩, ?_, ?_, List.forall_mem_singleton.mpr ⟨_, rfl⟩, ?_⟩
    · intro v hv
      exact ⟨_, (Option.some.inj hv).symm⟩
    · intro v hv
      exact ⟨_, (Option.some.inj hv).symm⟩
    · refine List.forall_mem_singleton.mpr fun v hv => ⟨_, (Option.some.inj hv).symm, ?_⟩
      exact List.forall_mem_cons.mpr ⟨hold _, List.forall_mem_cons.mpr ⟨hold _,
        List.forall_mem_cons.mpr ⟨hold _, List.forall_mem_singleton.mpr (hold _)⟩⟩⟩
  have hfirst : label? first = some "v0.4" := rfl
  have hsecond : label? second = some "v0.10" := rfl
  obtain ⟨hsame, -, hok⟩ := updates_commute hfirst hsecond hkeys sdkTab docs
  exact ⟨hkeys, hdocs, hok hdocs, hsame⟩

end DocSite.Navigation
