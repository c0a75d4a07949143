import DocSite.Path
import DocSite.Proofs.Text

namespace DocSite.Path

/-- A text that names something in a directory. -/
def IsName (s : String) : Prop := '/' ∉ s.toList ∧ s ≠ "" ∧ s ≠ "." ∧ s ≠ ".."

instance (s : String) : Decidable (IsName s) :=
  inferInstanceAs (Decidable ('/' ∉ s.toList ∧ s ≠ "" ∧ s ≠ "." ∧ s ≠ ".."))

theorem parts_append (as bs : List Char) :
    (ofChars (as ++ '/' :: bs)).parts = (ofChars as).parts ++ (ofChars bs).parts := by
  simp [ofChars, Text.splitChar_append]

theorem parts_slash (s t : String) :
    (ofString (s ++ "/" ++ t)).parts = (ofString s).parts ++ (ofString t).parts := by
  have htext : (s ++ "/" ++ t).toList = s.toList ++ '/' :: t.toList := by simp
  rw [ofString, htext, parts_append]
  rfl

/-- The names of a path of which none vanishes give it back. -/
theorem intercalate_parts {s : String} (h : ∀ p ∈ Text.splitChar '/' s.toList, p ≠ [] ∧ p ≠ ['.']) :
    "/".intercalate (ofString s).parts = s := by
  have hall : (Text.splitChar '/' s.toList).filter (fun p => !p.isEmpty && p ≠ ['.']) =
      Text.splitChar '/' s.toList :=
    List.filter_eq_self.mpr fun p hp => by simpa using h p hp
  rw [ofString, ofChars, hall]
  exact Text.intercalate_ofList_splitChar rfl s

theorem parts_of_not_mem {s : String} (h : '/' ∉ s.toList) :
    (ofString s).parts = if s = "" ∨ s = "." then [] else [s] := by
  have hempty : s.toList = [] ↔ s = "" := by simp
  have hpoint : s.toList = ['.'] ↔ s = "." := by
    rw [← String.toList_inj]
    rfl
  by_cases hs : s = "" ∨ s = "."
  · rcases hs with rfl | rfl <;> rfl
  · obtain ⟨hne, hpt⟩ := not_or.mp hs
    simp [ofString, ofChars, Text.splitChar_of_not_mem h, hne, hpt, mt hpoint.mp hpt]

/-- A text that does not begin with a slash gives a path without a root. -/
theorem root_of_head {s : String} (h : s.toList.head? ≠ some '/') : (ofString s).root = "" := by
  have hslashes : s.toList.takeWhile (· = '/') = [] := by
    cases hs : s.toList with
    | nil => rfl
    | cons c cs =>
      have hc : c ≠ '/' := by
        rintro rfl
        simp [hs] at h
      simp [hc]
  simp [ofString, ofChars, hslashes]

theorem root_of_not_mem {s : String} (h : '/' ∉ s.toList) : (ofString s).root = "" :=
  root_of_head fun hhead => h (List.mem_of_mem_head? hhead)

theorem placeFrom_concat {s : String} (h : s ≠ "..") (above parts : List String) :
    placeFrom above (parts ++ [s]) = placeFrom above parts ++ [s] := by
  induction above, parts using placeFrom.induct with
  | case1 above => simp [placeFrom]
  | case2 above parts ih => simpa [placeFrom] using ih
  | case3 above p parts hp ih => simpa [placeFrom] using ih

/-- What is reached without a step up lies below. -/
theorem place_join (p : Path) {parts : List String} (h : ".." ∉ parts) :
    (p.join ⟨"", parts⟩).place = p.place ++ parts := by
  rw [join, if_pos rfl]
  change placeFrom [] (p.parts ++ parts) = placeFrom [] p.parts ++ parts
  generalize p.parts = front
  induction parts generalizing front with
  | nil => simp
  | cons s parts ih =>
    obtain ⟨hs, hparts⟩ : ".." ≠ s ∧ ".." ∉ parts := by simpa using h
    rw [List.append_cons, ih hparts, placeFrom_concat hs.symm, ← List.append_cons]

theorem child_of_relative (p : Path) {s : String} (h : (ofString s).root = "") :
    p / s = ⟨p.root, p.parts ++ (ofString s).parts⟩ := by
  change p.join (ofString s) = _
  rw [join, if_pos h]

/-- The place of something in a directory lies right below the directory. -/
theorem place_child (p : Path) {s : String} (h : IsName s) : (p / s).place = p.place ++ [s] := by
  obtain ⟨hslash, hempty, hpoint, hup⟩ := h
  have hparts : (ofString s).parts = [s] := by simp [parts_of_not_mem hslash, hempty, hpoint]
  rw [child_of_relative p (root_of_not_mem hslash), hparts, place, placeFrom_concat hup]
  rfl

/-- Two steps along paths without a root are one. -/
theorem child_child (p : Path) {s t : String} (hs : s.toList.head? ≠ some '/') (hempty : s ≠ "")
    (ht : t.toList.head? ≠ some '/') : p / s / t = p / (s ++ "/" ++ t) := by
  have hhead : (s ++ "/" ++ t).toList.head? ≠ some '/' := by
    obtain ⟨c, cs, hcs⟩ := List.exists_cons_of_ne_nil (mt String.toList_eq_nil_iff.mp hempty)
    rw [hcs] at hs
    simpa [hcs] using hs
  rw [child_of_relative _ (root_of_head ht), child_of_relative p (root_of_head hs),
    child_of_relative p (root_of_head hhead), parts_slash, List.append_assoc]

theorem intercalate_concat {α : Type} (sep x : List α) (xs : List (List α)) :
    ∃ before, sep.intercalate (xs ++ [x]) = before ++ x := by
  induction xs with
  | nil => exact ⟨[], by simp [List.intercalate]⟩
  | cons y ys ih =>
    obtain ⟨before, hbefore⟩ := ih
    refine ⟨y ++ sep ++ before, ?_⟩
    rw [List.cons_append, List.intercalate_cons_of_ne_nil (by simp), hbefore]
    simp only [List.append_assoc]

/-- A path is written with its last part at the end. -/
theorem toString_concat (root : String) (parts : List String) (name : String) :
    ∃ before, (Path.mk root (parts ++ [name])).toString.toList = before ++ name.toList := by
  obtain ⟨before, hbefore⟩ := intercalate_concat "/".toList name.toList (parts.map String.toList)
  refine ⟨root.toList ++ before, ?_⟩
  have hparts : (parts ++ [name]).isEmpty = false := by simp
  rw [toString, hparts, Bool.and_false, if_neg Bool.false_ne_true, String.toList_append,
    String.toList_intercalate, List.map_append, List.map_singleton, hbefore, List.append_assoc]

end DocSite.Path
