import DocSite.Json.Access
import DocSite.Json.View

namespace DocSite

namespace Attempt

variable {ε α β : Type}

theorem bind_eq_ok {x : Except ε α} {f : α → Except ε β} {b : β} :
    x >>= f = .ok b ↔ ∃ a, x = .ok a ∧ f a = .ok b := by
  cases x <;> simp [bind, Except.bind]

theorem check_eq_ok {x : Except ε Unit} {y : Except ε β} {b : β} :
    (x >>= fun _ => y) = .ok b ↔ x = .ok () ∧ y = .ok b := by
  cases x <;> simp [bind, Except.bind]

theorem eq_ok_of_toOption {x : Except ε α} {a : α} (h : x.toOption = some a) : x = .ok a := by
  cases x with
  | error e => cases h
  | ok b => exact congrArg Except.ok (Option.some.inj h)

theorem exists_error_of_toOption {x : Except ε α} (h : x.toOption = none) : ∃ e, x = .error e := by
  cases x with
  | error e => exact ⟨e, rfl⟩
  | ok a => cases h

theorem map_eq_ok {x : Except ε α} {f : α → β} {b : β} :
    x.map f = .ok b ↔ ∃ a, x = .ok a ∧ f a = b := by
  cases x <;> simp [Except.map]

theorem mapError_eq_ok {ε' : Type} {x : Except ε α} {f : ε → ε'} {a : α} :
    x.mapError f = .ok a ↔ x = .ok a := by
  cases x with
  | error e => exact ⟨nofun, nofun⟩
  | ok b => constructor <;> rintro ⟨⟩ <;> rfl

theorem mapM_cons_eq_ok {f : α → Except ε β} {x : α} {xs : List α} {ys : List β} :
    (x :: xs).mapM f = .ok ys ↔ ∃ y zs, f x = .ok y ∧ xs.mapM f = .ok zs ∧ ys = y :: zs := by
  rw [List.mapM_cons, bind_eq_ok]
  constructor
  · rintro ⟨y, hy, hr⟩
    obtain ⟨zs, hz, he⟩ := bind_eq_ok.mp hr
    exact ⟨y, zs, hy, hz, (Except.ok.inj he).symm⟩
  · rintro ⟨y, zs, hy, hz, rfl⟩
    exact ⟨y, hy, bind_eq_ok.mpr ⟨zs, hz, rfl⟩⟩

/-- A step that succeeds on every item gives the results of all items, in order. -/
theorem mapM_eq_ok_map {f : α → Except ε β} {g : α → β} {xs : List α}
    (h : ∀ x ∈ xs, f x = .ok (g x)) : xs.mapM f = .ok (xs.map g) := by
  induction xs with
  | nil => rfl
  | cons x xs ih =>
    have hx := h x (by simp)
    have hr := ih fun y hy => h y (by simp [hy])
    exact mapM_cons_eq_ok.mpr ⟨g x, xs.map g, hx, hr, rfl⟩

theorem forall_ok_of_mapM {f : α → Except ε β} {xs : List α} {ys : List β}
    (h : xs.mapM f = .ok ys) : ∀ x ∈ xs, ∃ y ∈ ys, f x = .ok y := by
  induction xs generalizing ys with
  | nil => simp
  | cons x xs ih =>
    obtain ⟨y, zs, hy, hz, rfl⟩ := mapM_cons_eq_ok.mp h
    intro a ha
    rcases List.mem_cons.mp ha with rfl | ha
    · exact ⟨y, by simp, hy⟩
    · obtain ⟨b, hb, hab⟩ := ih hz a ha
      exact ⟨b, by simp [hb], hab⟩

theorem exists_mapM_eq_ok_iff {f : α → Except ε β} {xs : List α} :
    (∃ ys, xs.mapM f = .ok ys) ↔ ∀ x ∈ xs, ∃ y, f x = .ok y := by
  induction xs with
  | nil => exact iff_of_true ⟨[], rfl⟩ (by simp)
  | cons x xs ih =>
    rw [List.forall_mem_cons, ← ih]
    constructor
    · rintro ⟨ys, h⟩
      obtain ⟨y, zs, hy, hz, -⟩ := mapM_cons_eq_ok.mp h
      exact ⟨⟨y, hy⟩, zs, hz⟩
    · rintro ⟨⟨y, hy⟩, zs, hz⟩
      exact ⟨y :: zs, mapM_cons_eq_ok.mpr ⟨y, zs, hy, hz, rfl⟩⟩

theorem filterAuxM_eq_ok_iff {f : α → Except ε Bool} {g : α → Bool} {xs acc ys : List α}
    (h : ∀ x b, f x = .ok b → b = g x) :
    List.filterAuxM f xs acc = .ok ys ↔
      (∀ x ∈ xs, f x = .ok (g x)) ∧ ys = (xs.filter g).reverse ++ acc := by
  induction xs generalizing acc with
  | nil => simp [List.filterAuxM, pure, Except.pure, eq_comm]
  | cons x xs ih =>
    rw [List.filterAuxM, bind_eq_ok, List.forall_mem_cons]
    constructor
    · rintro ⟨b, hb, hr⟩
      obtain rfl := h x b hb
      obtain ⟨hxs, rfl⟩ := ih.mp hr
      refine ⟨⟨hb, hxs⟩, ?_⟩
      cases hg : g x <;> simp [hg]
    · rintro ⟨⟨hx, hxs⟩, rfl⟩
      refine ⟨g x, hx, ih.mpr ⟨hxs, ?_⟩⟩
      cases hg : g x <;> simp [hg]

/-- A choice that is made of every item, where it can be made, is a filter. -/
theorem filterM_eq_ok_iff {f : α → Except ε Bool} {g : α → Bool} {xs ys : List α}
    (h : ∀ x b, f x = .ok b → b = g x) :
    xs.filterM f = .ok ys ↔ (∀ x ∈ xs, f x = .ok (g x)) ∧ ys = xs.filter g := by
  rw [List.filterM, bind_eq_ok]
  constructor
  · rintro ⟨zs, hzs, hr⟩
    obtain ⟨hxs, rfl⟩ := (filterAuxM_eq_ok_iff h).mp hzs
    exact ⟨hxs, by simpa [pure, Except.pure] using hr.symm⟩
  · rintro ⟨hxs, rfl⟩
    exact ⟨_, (filterAuxM_eq_ok_iff h).mpr ⟨hxs, rfl⟩, by simp [pure, Except.pure]⟩

end Attempt

namespace OrderedMap

variable {α : Type} {key k : String} {v w : α} {m : OrderedMap α}

attribute [local simp] get? set

@[simp] theorem get?_set_self (key : String) (v : α) (m : OrderedMap α) :
    get? key (set key v m) = some v := by
  induction m with
  | nil => simp
  | cons entry rest ih =>
    by_cases h : entry.1 = key
    · simp [h]
    · simp [h, ih]

theorem get?_set_of_ne (h : k ≠ key) (v : α) (m : OrderedMap α) :
    get? k (set key v m) = get? k m := by
  induction m with
  | nil => simp [Ne.symm h]
  | cons entry rest ih =>
    by_cases he : entry.1 = key
    · simp [he, Ne.symm h]
    · simp only [set, he, if_false, get?, ih]

/-- Putting back what is there changes nothing, not even the order. -/
theorem set_of_get? (h : get? key m = some v) : set key v m = m := by
  induction m with
  | nil => simp at h
  | cons entry rest ih =>
    obtain ⟨k, u⟩ := entry
    by_cases he : k = key
    · simp only [get?, he, if_true, Option.some.injEq] at h
      simp [he, h]
    · simp only [get?, he, if_false] at h
      simp [he, ih h]

@[simp] theorem set_set (key : String) (v w : α) (m : OrderedMap α) :
    set key w (set key v m) = set key w m := by
  induction m with
  | nil => simp
  | cons entry rest ih =>
    by_cases h : entry.1 = key
    · simp [h]
    · simp [h, ih]

theorem set_ne_nil (key : String) (v : α) (m : OrderedMap α) : set key v m ≠ [] := by
  cases m with
  | nil => simp
  | cons entry rest => by_cases h : entry.1 = key <;> simp [h]

theorem has_eq_true : has key m = true ↔ ∃ v, get? key m = some v := by
  simp [has, Option.isSome_iff_exists]

theorem has_eq_false : has key m = false ↔ get? key m = none := by
  simp [has]

theorem mem_set {f : String × α} (h : f ∈ set key v m) : f ∈ m ∨ f = (key, v) := by
  induction m with
  | nil => exact .inr (List.mem_singleton.mp h)
  | cons entry rest ih =>
    by_cases he : entry.1 = key
    · simp only [set, he, if_true, List.mem_cons] at h
      rcases h with rfl | h
      · exact .inr rfl
      · exact .inl (List.mem_cons_of_mem _ h)
    · simp only [set, he, if_false, List.mem_cons] at h
      rcases h with rfl | h
      · exact .inl (by simp)
      · rcases ih h with h | h
        · exact .inl (List.mem_cons_of_mem _ h)
        · exact .inr h

theorem mem_of_get? (h : get? key m = some v) : (key, v) ∈ m := by
  induction m with
  | nil => cases h
  | cons entry rest ih =>
    obtain ⟨k, w⟩ := entry
    by_cases hk : k = key
    · simp only [get?, hk, if_true, Option.some.injEq] at h
      simp [hk, h]
    · simp only [get?, hk, if_false] at h
      exact List.mem_cons_of_mem _ (ih h)

theorem get?_of_mem (hm : (m.map Prod.fst).Nodup) (h : (key, v) ∈ m) : get? key m = some v := by
  induction m with
  | nil => cases h
  | cons entry rest ih =>
    obtain ⟨hnew, hrest⟩ := List.nodup_cons.mp hm
    rcases List.mem_cons.mp h with rfl | h
    · simp
    · have hne : entry.1 ≠ key := fun he => hnew (he ▸ List.mem_map_of_mem h)
      simpa [get?, hne] using ih hrest h

/-- Putting a value under a key leaves every key in its place and adds no second one. -/
theorem nodup_set (h : (m.map Prod.fst).Nodup) (key : String) (v : α) :
    ((set key v m).map Prod.fst).Nodup := by
  induction m with
  | nil => simp
  | cons entry rest ih =>
    obtain ⟨hnew, hrest⟩ := List.nodup_cons.mp h
    by_cases he : entry.1 = key
    · simpa [set, he] using h
    · simp only [set, he, if_false, List.map_cons, List.nodup_cons]
      refine ⟨fun hmem => ?_, ih hrest⟩
      obtain ⟨f, hf, hkey⟩ := List.mem_map.mp hmem
      rcases mem_set hf with hold | rfl
      · exact hnew (hkey ▸ List.mem_map_of_mem hold)
      · exact he hkey.symm

theorem nodup_ofEntries (entries : List (String × α)) :
    ((ofEntries entries).map Prod.fst).Nodup := by
  have hfold (m : OrderedMap α) (hm : (m.map Prod.fst).Nodup) :
      ((entries.foldl (fun m f => m.set f.1 f.2) m).map Prod.fst).Nodup := by
    induction entries generalizing m with
    | nil => exact hm
    | cons f fs ih => exact ih _ (nodup_set hm f.1 f.2)
  exact hfold [] List.nodup_nil

theorem mem_ofEntries {entries : List (String × α)} {f : String × α} (h : f ∈ ofEntries entries) :
    f ∈ entries := by
  have hfold (m : OrderedMap α) (hf : f ∈ entries.foldl (fun m e => m.set e.1 e.2) m) :
      f ∈ m ∨ f ∈ entries := by
    clear h
    induction entries generalizing m with
    | nil => exact .inl hf
    | cons g gs ih =>
      rcases ih _ hf with hmem | hmem
      · rcases mem_set hmem with hold | rfl
        · exact .inl hold
        · exact .inr (by simp)
      · exact .inr (List.mem_cons_of_mem _ hmem)
  exact (hfold [] h).resolve_left (by simp)

/-- The value that a sequence of entries gives a key last. -/
def lastValue? (key : String) (entries : List (String × α)) : Option α :=
  ((entries.filter fun e => e.1 = key).getLast?).map Prod.snd

theorem get?_foldl_set (key : String) (entries : List (String × α)) (m : OrderedMap α) :
    get? key (entries.foldl (fun m e => m.set e.1 e.2) m) =
      (lastValue? key entries).or (get? key m) := by
  induction entries generalizing m with
  | nil => rfl
  | cons e es ih =>
    rw [List.foldl_cons, ih, lastValue?, lastValue?]
    by_cases h : e.1 = key
    · rw [List.filter_cons_of_pos (by simpa using h), List.getLast?_cons, ← h, get?_set_self]
      cases (es.filter fun e' => e'.1 = e.1).getLast? <;> rfl
    · rw [List.filter_cons_of_neg (by simpa using h), get?_set_of_ne (Ne.symm h)]

theorem get?_ofEntries (key : String) (entries : List (String × α)) :
    get? key (ofEntries entries) = lastValue? key entries := by
  have h := get?_foldl_set key entries []
  rwa [get?, Option.or_none] at h

theorem get?_ofEntries_eq_none {entries : List (String × α)} :
    get? key (ofEntries entries) = none ↔ key ∉ entries.map Prod.fst := by
  rw [get?_ofEntries, lastValue?, Option.map_eq_none_iff, List.getLast?_eq_none_iff,
    List.filter_eq_nil_iff]
  constructor
  · intro h hmem
    obtain ⟨e, he, hkey⟩ := List.mem_map.mp hmem
    exact h e he (by simpa using hkey)
  · intro h e he hkey
    exact h (List.mem_map.mpr ⟨e, he, by simpa using hkey⟩)

theorem get?_ofEntries_of_nodup {entries : List (String × α)} (h : (entries.map Prod.fst).Nodup)
    (hmem : (key, v) ∈ entries) : get? key (ofEntries entries) = some v := by
  cases hget : get? key (ofEntries entries) with
  | none => exact absurd (List.mem_map_of_mem hmem) (get?_ofEntries_eq_none.mp hget)
  | some w =>
    have hw := get?_of_mem h (mem_ofEntries (mem_of_get? hget))
    rw [← hw, get?_of_mem h hmem]

theorem get?_mapValues {β : Type} (f : α → β) (key : String) (m : OrderedMap α) :
    get? key (mapValues f m) = (get? key m).map f := by
  induction m with
  | nil => rfl
  | cons entry rest ih =>
    obtain ⟨k, v⟩ := entry
    by_cases h : k = key
    · simp [mapValues, h]
    · simpa [mapValues, h] using ih

end OrderedMap

namespace Json

/-- Only a text agrees with a text. -/
theorem same_str {v : Json} {s : String} : v.same (.str s) = true ↔ v = .str s := by
  cases v with
  | float x => cases x <;> simp [same, sameNumber, ratio?, Double.ratio?]
  | _ => simp [same, sameNumber, ratio?]

theorem alike_str {v : Json} {s : String} : v.alike (.str s) = true ↔ v = .str s := by
  simp [alike, same_str, isUndefined]

theorem textAt?_eq_some {v : Json} {key s : String} :
    v.textAt? key = some s ↔ v.field? key = some (.str s) := by
  unfold textAt? field
  cases hf : v.field? key with
  | none => simp [str?]
  | some w => cases w <;> simp [str?]

theorem textAt?_obj (key : String) (fs : List (String × Json)) :
    (Json.obj fs).textAt? key = (OrderedMap.get? key fs).bind str? := by
  cases h : OrderedMap.get? key fs <;> simp [textAt?, field, field?, entries, h, str?]

theorem item_eq_ok {v w : Json} {key : String} :
    v.item key = .ok w ↔ ∃ fs, v = .obj fs ∧ OrderedMap.get? key fs = some w := by
  cases v with
  | obj fs => cases h : OrderedMap.get? key fs <;> simp [item, h]
  | _ => simp [item]

theorem get_eq_ok {v w d : Json} {key : String} :
    v.get key d = .ok w ↔ ∃ fs, v = .obj fs ∧ (OrderedMap.get? key fs).getD d = w := by
  cases v <;> simp [get]

theorem put_eq_ok {v w u : Json} {key : String} :
    v.put key u = .ok w ↔ ∃ fs, v = .obj fs ∧ w = .obj (OrderedMap.set key u fs) := by
  cases v <;> simp [put, eq_comm]

end Json

end DocSite
