import DocSite.Sorting

namespace DocSite.StableSort

variable {α : Type} {le : α → α → Bool}

/-- Whether two values stand side by side in the order. -/
def tied (le : α → α → Bool) (a b : α) : Bool := le a b && le b a

theorem tied_symm {a b : α} (h : tied le a b = true) : tied le b a = true := by
  simp only [tied, Bool.and_eq_true] at *
  exact h.symm

theorem mem_insert {x y : α} {ys : List α} (h : y ∈ insert le x ys) : y = x ∨ y ∈ ys := by
  induction ys with
  | nil => exact .inl (List.mem_singleton.mp h)
  | cons z zs ih =>
    rw [insert] at h
    split at h
    · exact List.mem_cons.mp h
    · rcases List.mem_cons.mp h with rfl | h
      · exact .inr List.mem_cons_self
      · rcases ih h with hx | hzs
        · exact .inl hx
        · exact .inr (List.mem_cons_of_mem z hzs)

variable (htrans : ∀ a b c, le a b = true → le b c = true → le a c = true)

include htrans

theorem tied_trans {a b c : α} (hab : tied le a b = true) (hbc : tied le b c = true) :
    tied le a c = true := by
  simp only [tied, Bool.and_eq_true] at *
  exact ⟨htrans a b c hab.1 hbc.1, htrans c b a hbc.2 hab.2⟩

/-- A value passes only values that it is not tied with. -/
theorem filter_tied_insert (a x : α) (ys : List α) :
    (insert le x ys).filter (tied le a) = (x :: ys).filter (tied le a) := by
  induction ys with
  | nil => rfl
  | cons y ys ih =>
    rw [insert]
    split
    · rfl
    · rename_i hxy
      by_cases hx : tied le a x = true
      · have hy : tied le a y ≠ true := fun hy => hxy (by
          have hxy := tied_trans htrans (tied_symm hx) hy
          simp only [tied, Bool.and_eq_true] at hxy
          exact hxy.1)
        simp [ih, hx, hy]
      · simp [List.filter_cons, ih, hx]

theorem filter_tied_sort (a : α) (l : List α) :
    (sort le l).filter (tied le a) = l.filter (tied le a) := by
  induction l with
  | nil => rfl
  | cons x xs ih =>
    rw [sort, List.foldr_cons, filter_tied_insert htrans, List.filter_cons, List.filter_cons]
    rw [sort] at ih
    rw [ih]

omit htrans

variable (htotal : ∀ a b, (le a b || le b a) = true)

include htotal

theorem tied_refl (a : α) : tied le a a = true := by
  have h := htotal a a
  simpa [tied] using h

/-- A list in order is determined by what is tied with each value. -/
theorem eq_of_filter_tied {l l' : List α} (hl : l.Pairwise (fun x y => le x y = true))
    (hl' : l'.Pairwise (fun x y => le x y = true))
    (h : ∀ a, l.filter (tied le a) = l'.filter (tied le a)) : l = l' := by
  induction l generalizing l' with
  | nil =>
    cases l' with
    | nil => rfl
    | cons y t => have hy := h y; simp [tied_refl htotal] at hy
  | cons x s ih =>
    cases l' with
    | nil => have hx := h x; simp [tied_refl htotal] at hx
    | cons y t =>
      rw [List.pairwise_cons] at hl hl'
      have hx : x ∈ (y :: t).filter (tied le x) := by
        rw [← h x]; simp [tied_refl htotal]
      have hy : y ∈ (x :: s).filter (tied le y) := by
        rw [h y]; simp [tied_refl htotal]
      have hyx : le y x = true := by
        rcases List.mem_cons.mp (List.mem_filter.mp hx).1 with rfl | hm
        · have := tied_refl htotal x
          simpa [tied] using this
        · exact hl'.1 x hm
      have hxy : le x y = true := by
        rcases List.mem_cons.mp (List.mem_filter.mp hy).1 with rfl | hm
        · exact hyx
        · exact hl.1 y hm
      have htied : tied le x y = true := by simp [tied, hxy, hyx]
      have hhead := h x
      rw [List.filter_cons_of_pos (tied_refl htotal x), List.filter_cons_of_pos htied] at hhead
      obtain ⟨rfl, -⟩ := List.cons.inj hhead
      -- The heads agree, and each class of the tails is that of the lists less the head.
      have htail : s = t := ih hl.2 hl'.2 fun a => by
        have ha := h a
        by_cases hax : tied le a x = true
        · rw [List.filter_cons_of_pos hax, List.filter_cons_of_pos hax] at ha
          exact (List.cons.inj ha).2
        · rw [List.filter_cons_of_neg hax, List.filter_cons_of_neg hax] at ha
          exact ha
      rw [htail]

include htrans

/-- The values tied with one keep their order. -/
theorem filter_tied_mergeSort (a : α) (l : List α) :
    (l.mergeSort le).filter (tied le a) = l.filter (tied le a) := by
  have hpair : (l.filter (tied le a)).Pairwise (fun x y => le x y = true) := by
    rw [List.pairwise_filter]
    apply List.pairwise_of_forall
    intro x y hx hy
    have hxy := tied_trans htrans (tied_symm hx) hy
    simp only [tied, Bool.and_eq_true] at hxy
    exact hxy.1
  have hsub := (List.sublist_mergeSort htrans htotal hpair List.filter_sublist).filter (tied le a)
  rw [List.filter_filter] at hsub
  simp only [Bool.and_self] at hsub
  have hlen : ((l.mergeSort le).filter (tied le a)).length = (l.filter (tied le a)).length :=
    ((List.mergeSort_perm l le).filter (tied le a)).length_eq
  exact (hsub.eq_of_length hlen.symm).symm

/-- Nothing but the order of tied values counts for a sort. -/
theorem mergeSort_eq_of_filter_tied {l m : List α}
    (h : ∀ a, l.filter (tied le a) = m.filter (tied le a)) : l.mergeSort le = m.mergeSort le := by
  apply eq_of_filter_tied htotal
  · exact List.pairwise_mergeSort htrans htotal l
  · exact List.pairwise_mergeSort htrans htotal m
  · intro a
    rw [filter_tied_mergeSort htrans htotal, filter_tied_mergeSort htrans htotal, h a]

theorem pairwise_insert (x : α) {ys : List α} (h : ys.Pairwise fun a b => le a b = true) :
    (insert le x ys).Pairwise fun a b => le a b = true := by
  induction ys with
  | nil => exact List.pairwise_singleton _ _
  | cons y ys ih =>
    obtain ⟨hy, hys⟩ := List.pairwise_cons.mp h
    rw [insert]
    split
    · rename_i hxy
      refine List.pairwise_cons.mpr ⟨fun z hz => ?_, h⟩
      rcases List.mem_cons.mp hz with rfl | hz
      · exact hxy
      · exact htrans x y z hxy (hy z hz)
    · rename_i hxy
      refine List.pairwise_cons.mpr ⟨fun z hz => ?_, ih hys⟩
      rcases mem_insert hz with rfl | hz
      · simpa [hxy] using htotal z y
      · exact hy z hz

theorem pairwise_sort (l : List α) : (sort le l).Pairwise fun a b => le a b = true := by
  induction l with
  | nil => exact .nil
  | cons x xs ih => exact pairwise_insert htrans htotal x ih

/-- There is one stable sort. -/
theorem sort_eq_mergeSort (l : List α) : sort le l = l.mergeSort le := by
  apply eq_of_filter_tied htotal
  · exact pairwise_sort htrans htotal l
  · exact List.pairwise_mergeSort htrans htotal l
  · intro a
    rw [filter_tied_sort htrans, filter_tied_mergeSort htrans htotal]

/-- Leaving values out before sorting or after it comes to the same. -/
theorem filter_mergeSort (p : α → Bool) (l : List α) :
    (l.mergeSort le).filter p = (l.filter p).mergeSort le := by
  apply eq_of_filter_tied htotal
  · exact (List.pairwise_mergeSort htrans htotal l).filter p
  · exact List.pairwise_mergeSort htrans htotal _
  · intro a
    have hcomm (m : List α) :
        (m.filter p).filter (tied le a) = (m.filter (tied le a)).filter p := by
      simp only [List.filter_filter, Bool.and_comm]
    rw [filter_tied_mergeSort htrans htotal, hcomm, hcomm, filter_tied_mergeSort htrans htotal]

/-- What is in order already may be sorted beforehand. -/
theorem mergeSort_append (l m : List α) :
    (l.mergeSort le ++ m).mergeSort le = (l ++ m).mergeSort le := by
  refine mergeSort_eq_of_filter_tied htrans htotal fun a => ?_
  simp only [filter_tied_mergeSort htrans htotal, List.filter_append]

/-- Two values that are not tied may change places beforehand. -/
theorem mergeSort_swap {x y : α} (h : tied le x y = false) (l : List α) :
    (l ++ [x, y]).mergeSort le = (l ++ [y, x]).mergeSort le := by
  refine mergeSort_eq_of_filter_tied htrans htotal fun a => ?_
  simp only [List.filter_append]
  -- a value cannot be tied with both
  by_cases hx : tied le a x = true
  · have hy : tied le a y ≠ true := fun hy => by
      rw [tied_trans htrans (tied_symm hx) hy] at h
      cases h
    simp [hx, hy]
  · simp [List.filter_cons, hx]

/-- Where no two values are tied there is nothing that the order beforehand could decide. -/
theorem mergeSort_eq_of_perm {l l' : List α} (h : l.Perm l')
    (htied : ∀ a ∈ l, ∀ b ∈ l, tied le a b = true → a = b) : l.mergeSort le = l'.mergeSort le := by
  refine List.Perm.eq_of_pairwise ?_
    (List.pairwise_mergeSort htrans htotal l) (List.pairwise_mergeSort htrans htotal l')
    ((List.mergeSort_perm l le).trans (h.trans (List.mergeSort_perm l' le).symm))
  intro a b ha hb hab hba
  refine htied a (List.mem_mergeSort.mp ha) b (h.mem_iff.mpr (List.mem_mergeSort.mp hb)) ?_
  rw [tied, hab, hba, Bool.and_self]

end DocSite.StableSort
