import DocSite.Proofs.Navigation.Merge

namespace DocSite.Navigation

open OrderedMap

variable {m m' : List (Json × Json)} {es : List Json} {e l v tab : Json}

def IsText (v : Json) : Prop := ∃ s, v = .str s

theorem IsText.of_alike (h : e.alike v = true) : IsText e ↔ IsText v := by
  constructor
  · rintro ⟨s, rfl⟩
    refine ⟨s, ?_⟩
    cases v <;> simp_all [Json.alike, Json.same, Json.isUndefined]
  · rintro ⟨s, rfl⟩
    exact ⟨s, Json.alike_str.mp h⟩

theorem label?_of_labelOf (h : labelOf e = .ok v) : IsText v ↔ ∃ s, label? e = some s := by
  obtain ⟨w, hw, h⟩ := Attempt.bind_eq_ok.mp h
  obtain ⟨fs, rfl, hget⟩ := Json.item_eq_ok.mp hw
  have hwv : w = v := by
    cases w <;> simp_all [pure, Except.pure]
  subst hwv
  simp only [label?, Json.textAt?_eq_some, Json.field?, Json.entries, hget, Option.some.injEq]
  rfl

/-- Entries under keys that are texts where the labels of the entries are. -/
def Tracks (m : List (Json × Json)) : Prop :=
  ∀ p ∈ m, ∃ v, labelOf p.2 = .ok v ∧ (IsText v → IsText p.1)

theorem Tracks.putLabelled (h : Tracks m) (he : labelOf e = .ok l) :
    Tracks (putLabelled l e m) := by
  induction m with
  | nil =>
    intro p hp
    obtain rfl := List.mem_singleton.mp hp
    exact ⟨l, he, id⟩
  | cons q rest ih =>
    obtain ⟨k, x⟩ := q
    obtain ⟨hq, hrest⟩ := List.forall_mem_cons.mp h
    by_cases hk : k.alike l = true
    · rw [Navigation.putLabelled, if_pos hk]
      exact List.forall_mem_cons.mpr ⟨⟨l, he, (IsText.of_alike hk).mpr⟩, hrest⟩
    · rw [Navigation.putLabelled, if_neg hk]
      exact List.forall_mem_cons.mpr ⟨hq, ih hrest⟩

/-- No key vanishes, and there is one for the label that is put. -/
theorem keys_putLabelled (l e : Json) (m : List (Json × Json)) :
    (∀ k ∈ m.map Prod.fst, k ∈ (putLabelled l e m).map Prod.fst) ∧
      ∃ k ∈ (putLabelled l e m).map Prod.fst, IsText k → IsText l := by
  induction m with
  | nil => exact ⟨by simp, l, by simp [putLabelled], id⟩
  | cons q rest ih =>
    obtain ⟨k, x⟩ := q
    by_cases hk : k.alike l = true
    · rw [putLabelled, if_pos hk]
      exact ⟨fun _ hmem => hmem, k, by simp, (IsText.of_alike hk).mp⟩
    · rw [putLabelled, if_neg hk]
      obtain ⟨hkeys, key, hkey, htext⟩ := ih
      refine ⟨fun a ha => ?_, key, List.mem_cons_of_mem _ hkey, htext⟩
      rcases List.mem_cons.mp ha with rfl | ha
      · simp
      · exact List.mem_cons_of_mem _ (hkeys a ha)

theorem addLabelled_tracks (hm : Tracks m) (h : addLabelled m es = .ok m') :
    Tracks m' ∧ (∀ k ∈ m.map Prod.fst, k ∈ m'.map Prod.fst) ∧
      ∀ e ∈ es, ∃ v, labelOf e = .ok v ∧ ∃ k ∈ m'.map Prod.fst, IsText k → IsText v := by
  induction es generalizing m with
  | nil =>
    cases h
    exact ⟨hm, fun _ hk => hk, by simp⟩
  | cons e es ih =>
    rw [addLabelled, List.foldlM_cons] at h
    obtain ⟨m₁, hput, hrest⟩ := Attempt.bind_eq_ok.mp h
    obtain ⟨l, hl, hm₁⟩ := Attempt.bind_eq_ok.mp hput
    cases hm₁
    obtain ⟨hkept, key, hkey, htext⟩ := keys_putLabelled l e m
    obtain ⟨htracks, hkeys, hes⟩ := ih (hm.putLabelled hl) hrest
    refine ⟨htracks, fun k hk => hkeys k (hkept k hk), List.forall_mem_cons.mpr ⟨?_, hes⟩⟩
    exact ⟨l, hl, key, hkeys key hkey, htext⟩

/-- Entries that were sorted by their labels all had texts for labels. -/
theorem labels_of_sorted {sorted : List Json} (h : addLabelled [] es = .ok m)
    (hsort : sortVersions (m.map Prod.snd) = .ok sorted) : ∀ e ∈ es, ∃ s, label? e = some s := by
  obtain ⟨htracks, -, hes⟩ := addLabelled_tracks (by simp [Tracks]) h
  have hsortable := (sortVersions_eq_ok.mp hsort).1
  have hkeys : ∀ k ∈ m.map Prod.fst, IsText k := by
    intro k hk
    obtain ⟨p, hp, rfl⟩ := List.mem_map.mp hk
    obtain ⟨v, hv, htext⟩ := htracks p hp
    obtain ⟨fs, hfs, hlabel⟩ := hsortable p.2 (List.mem_map_of_mem hp)
    obtain ⟨w, hw, hvw⟩ := Attempt.bind_eq_ok.mp hv
    obtain ⟨gs, hgs, hget⟩ := Json.item_eq_ok.mp hw
    obtain rfl : fs = gs := by simpa [hfs] using hgs
    obtain ⟨s, rfl⟩ := hlabel w hget
    cases hvw
    exact htext ⟨s, rfl⟩
  intro e he
  obtain ⟨v, hv, k, hk, htext⟩ := hes e he
  exact (label?_of_labelOf hv).mp (htext (hkeys k hk))

theorem archive_eq_archived {e' : Json} (h : archive e = .ok e') : e' = archived e := by
  obtain ⟨fs, rfl, rfl⟩ := Json.put_eq_ok.mp h
  rfl

theorem mapM_archive_eq {es' : List Json} (h : es.mapM archive = .ok es') :
    es' = es.map archived := by
  induction es generalizing es' with
  | nil =>
    cases h
    rfl
  | cons e es ih =>
    obtain ⟨e', rest, he, hrest, rfl⟩ := Attempt.mapM_cons_eq_ok.mp h
    rw [archive_eq_archived he, ih hrest, List.map_cons]

theorem needTab_eq_ok {tab? : Option Json} {tab : Json} (h : needTab tab? = .ok tab) :
    tab? = some tab := by
  cases tab? with
  | none => cases h
  | some t => rw [Except.ok.inj h]

theorem items_of_each {xs : List Json} (h : v.each = .ok xs)
    (hobj : ∀ x ∈ xs, ∃ fs, x = .obj fs) : v.items = xs := by
  cases xs with
  | nil =>
    cases v with
    | arr ys => exact Except.ok.inj h
    | _ => rfl
  | cons x xs => rw [each_eq_arr h List.mem_cons_self (hobj x List.mem_cons_self), Json.items]

theorem Lists.versionsIn_eq (h : Lists tab es)
    (hlabels : ∀ e ∈ es, ∃ s, label? e = some s) : versionsIn tab = es := by
  obtain ⟨v, hv, heach⟩ := h
  obtain ⟨fs, rfl, rfl⟩ := Json.get_eq_ok.mp hv
  have hitems := items_of_each heach fun e he => by
    obtain ⟨s, hs⟩ := hlabels e he
    exact isObject_of_textAt? hs
  rw [← hitems, versionsIn, Json.field, Json.field?, Json.entries]
  cases get? "dropdowns" fs <;> rfl

/-- What comes of a merge that succeeds: the versions of both reference tabs, all of which are
labelled by texts. -/
theorem mergeVersions_inv {existing new : Json} {r : Json × Json}
    (h : mergeVersions existing new = .ok r) :
    ∃ before₀ oldTab after₀ before tab after merged,
      ReferenceTab existing before₀ oldTab after₀ ∧ ReferenceTab new before tab after ∧
      Merged (versionsIn oldTab) (versionsIn tab) merged ∧
      r.2 = withTabs (before ++ withVersions merged tab :: after) new := by
  have hrun := h
  obtain ⟨oldTab?, hold, h⟩ := Attempt.bind_eq_ok.mp h
  obtain ⟨newTab?, hnew, h⟩ := Attempt.bind_eq_ok.mp h
  obtain ⟨oldTab, hneed₀, h⟩ := Attempt.bind_eq_ok.mp h
  obtain ⟨oldEntries, hold', h⟩ := Attempt.bind_eq_ok.mp h
  obtain ⟨tab, hneed, h⟩ := Attempt.bind_eq_ok.mp h
  obtain ⟨newEntries, hnew', h⟩ := Attempt.bind_eq_ok.mp h
  obtain ⟨es, hes, h⟩ := Attempt.bind_eq_ok.mp h
  obtain ⟨es', hes', h⟩ := Attempt.bind_eq_ok.mp h
  obtain ⟨m, hm, h⟩ := Attempt.bind_eq_ok.mp h
  obtain ⟨ns, hns, h⟩ := Attempt.bind_eq_ok.mp h
  obtain ⟨m', hm', h⟩ := Attempt.bind_eq_ok.mp h
  obtain ⟨sorted, hsorted, -⟩ := Attempt.bind_eq_ok.mp h
  rw [mapM_archive_eq hes'] at hm
  rw [needTab_eq_ok hneed₀] at hold
  rw [needTab_eq_ok hneed] at hnew
  have hall : addLabelled [] (es.map archived ++ ns) = .ok m' := by
    rw [addLabelled, List.foldlM_append]
    exact Attempt.bind_eq_ok.mpr ⟨m, hm, hm'⟩
  -- the merge has come to sort the versions, which takes labels
  have hlabels := labels_of_sorted hall hsorted
  have hesl : ∀ e ∈ es, ∃ s, label? e = some s := by
    intro e he
    rw [← label?_archived]
    exact hlabels _ (List.mem_append_left _ (List.mem_map_of_mem he))
  have hnsl : ∀ e ∈ ns, ∃ s, label? e = some s := fun e he =>
    hlabels e (List.mem_append_right _ he)
  obtain ⟨before₀, after₀, href₀⟩ := sdkTab?_eq_some.mp hold
  obtain ⟨before, after, href⟩ := sdkTab?_eq_some.mp hnew
  have hlists₀ : Lists oldTab es := ⟨_, hold', hes⟩
  have hlists : Lists tab ns := ⟨_, hnew', hns⟩
  obtain ⟨existing', merged, hmerge, hmerged⟩ :=
    mergeVersions_eq_ok href₀ href hlists₀ hlists hesl hnsl
  rw [hmerge] at hrun
  cases hrun
  rw [← hlists₀.versionsIn_eq hesl, ← hlists.versionsIn_eq hnsl] at hmerged
  exact ⟨before₀, oldTab, after₀, before, tab, after, merged, href₀, href, hmerged, rfl⟩

/-- A merged version is one of the new ones, or an existing one marked as archived whose label no
new one has. -/
theorem Merged.cases {es ns merged : List Json} (h : Merged es ns merged) {e : Json} {s : String}
    (he : e ∈ merged) (hs : label? e = some s) :
    e ∈ ns ∨ (∃ x ∈ es, label? x = some s ∧ e = archived x) ∧ ∀ x ∈ ns, label? x ≠ some s := by
  have hmem : e ∈ merged.filter (isLabelled s) := List.mem_filter.mpr ⟨he, by simp [isLabelled, hs]⟩
  rw [h.entries s, Option.mem_toList] at hmem
  have hlast {xs : List Json} {x : Json} (hx : lastLabelled s xs = some x) :
      x ∈ xs ∧ label? x = some s := by
    simpa [isLabelled] using List.mem_of_getLast? hx
  cases hn : lastLabelled s ns with
  | some x =>
    rw [hn] at hmem
    obtain rfl : x = e := by simpa using hmem
    exact .inl (hlast hn).1
  | none =>
    rw [hn, Option.none_or] at hmem
    obtain ⟨x, hx, rfl⟩ := Option.map_eq_some_iff.mp hmem
    refine .inr ⟨⟨x, (hlast hx).1, (hlast hx).2, rfl⟩, fun y hy hlabel => ?_⟩
    have hnone := List.getLast?_eq_none_iff.mp hn
    have hmem : y ∈ ns.filter (isLabelled s) :=
      List.mem_filter.mpr ⟨hy, by simp [isLabelled, hlabel]⟩
    rw [hnone] at hmem
    cases hmem

end DocSite.Navigation
