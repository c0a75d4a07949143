import DocSite.Text.Basic
import DocSite.Text.Lines
import DocSite.Text.Search

namespace DocSite.Text

variable {old new cs : List Char}

attribute [local simp] splitChar consPiece afterStart? cutAt? substituteFrom

section Written

/-- What is computed from a text that is written out, where evaluation would turn the text into
bytes and back. -/
theorem apply_ofList {α : Type} {f : List Char → α} {a : α} (h : f cs = a) :
    f (String.ofList cs).toList = a := by
  rwa [String.toList_ofList]

theorem all_ofList {p : Char → Bool} (h : cs.all p = true) :
    (String.ofList cs).toList.all p = true := apply_ofList (f := (·.all p)) h

theorem toList_append_ofList (as bs : List Char) :
    (String.ofList as ++ String.ofList bs).toList = as ++ bs := by
  rw [String.toList_append, String.toList_ofList, String.toList_ofList]

theorem not_mem_ofList {c : Char} (h : cs.contains c = false) : c ∉ (String.ofList cs).toList := by
  rw [String.toList_ofList]
  simpa using h

end Written

section Strip

variable {c : Char} {as bs : List Char}

theorem dropTail_append_cons {p : Char → Bool} (h : p c = false) (as bs : List Char) :
    dropTail p (as ++ c :: bs) = as ++ c :: dropTail p bs := by
  have hreverse : (as ++ c :: bs).reverse = bs.reverse ++ c :: as.reverse := by simp
  rw [dropTail, hreverse, List.dropWhile_append, dropTail]
  cases hdrop : bs.reverse.dropWhile p <;> simp [h]

/-- Nothing is lost in front of a character that is not white space, if the text starts with
another one. -/
theorem strip_append_cons (hhead : ∀ a ∈ as.head?, isBlank a = false) (hc : isBlank c = false)
    (bs : List Char) : strip (as ++ c :: bs) = as ++ c :: stripRight bs := by
  have hleft : stripLeft (as ++ c :: bs) = as ++ c :: bs := by
    cases as with
    | nil => simp [stripLeft, hc]
    | cons a as =>
      have ha : isBlank a = false := hhead a rfl
      simp [stripLeft, ha]
  rw [strip, hleft, stripRight, dropTail_append_cons hc, stripRight]

theorem dropTail_isPrefix (p : Char → Bool) (cs : List Char) : dropTail p cs <+: cs := by
  have h := List.reverse_prefix.mpr (List.dropWhile_suffix p (l := cs.reverse))
  rwa [List.reverse_reverse] at h

theorem stripWhere_isInfix (p : Char → Bool) (cs : List Char) : stripWhere p cs <:+: cs :=
  (dropTail_isPrefix p _).isInfix.trans (List.dropWhile_suffix p).isInfix

theorem strip_isInfix (cs : List Char) : strip cs <:+: cs := stripWhere_isInfix isBlank cs

theorem strip_cons (h : isBlank c = true) (cs : List Char) : strip (c :: cs) = strip cs := by
  rw [strip, strip, stripLeft, stripLeft, List.dropWhile_cons_of_pos h]

theorem strip_concat (h : isBlank c = true) (cs : List Char) : strip (cs ++ [c]) = strip cs := by
  have hdrop (as : List Char) : dropTail isBlank (as ++ [c]) = dropTail isBlank as := by
    simp [dropTail, h]
  rw [strip, strip, stripLeft, stripLeft, List.dropWhile_append]
  by_cases hblank : (cs.dropWhile isBlank).isEmpty = true
  · rw [if_pos hblank, List.isEmpty_iff.mp hblank, List.dropWhile_cons_of_pos h]
    rfl
  · rw [if_neg hblank, stripRight, hdrop, stripRight]

theorem strip_append_blanks (h : ∀ c ∈ bs, isBlank c = true) (as : List Char) :
    strip (as ++ bs) = strip as := by
  induction bs generalizing as with
  | nil => rw [List.append_nil]
  | cons b bs ih =>
    rw [List.append_cons, ih fun c hc => h c (List.mem_cons_of_mem _ hc),
      strip_concat (h b (by simp))]

theorem strip_blanks_append (h : ∀ c ∈ as, isBlank c = true) (bs : List Char) :
    strip (as ++ bs) = strip bs := by
  induction as with
  | nil => rfl
  | cons a as ih =>
    rw [List.cons_append, strip_cons (h a (by simp)),
      ih fun c hc => h c (List.mem_cons_of_mem _ hc)]

theorem exists_eq_stripRight (cs : List Char) :
    ∃ back, cs = stripRight cs ++ back ∧ ∀ c ∈ back, isBlank c = true := by
  refine ⟨(cs.reverse.takeWhile isBlank).reverse, ?_, fun c hc => ?_⟩
  · rw [stripRight, dropTail, ← List.reverse_append, List.takeWhile_append_dropWhile,
      List.reverse_reverse]
  · exact List.all_eq_true.mp List.all_takeWhile c (List.mem_reverse.mp hc)

theorem exists_eq_strip (cs : List Char) : ∃ front back, cs = front ++ (strip cs ++ back) ∧
    (∀ c ∈ front, isBlank c = true) ∧ ∀ c ∈ back, isBlank c = true := by
  obtain ⟨back, hback, hblank⟩ := exists_eq_stripRight (stripLeft cs)
  refine ⟨cs.takeWhile isBlank, back, ?_, List.all_eq_true.mp List.all_takeWhile, hblank⟩
  rw [strip, ← hback, stripLeft, List.takeWhile_append_dropWhile]

theorem strip_of_forall {cs : List Char} (h : ∀ c ∈ cs, isBlank c = false) : strip cs = cs := by
  obtain rfl | ⟨as, c, rfl⟩ := List.eq_nil_or_concat cs
  · rfl
  · rw [List.concat_eq_append] at h ⊢
    refine strip_append_cons (fun a ha => h a ?_) (h c (by simp)) []
    exact List.mem_append_left _ (List.mem_of_mem_head? ha)

theorem strip_eq_nil_iff {cs : List Char} : strip cs = [] ↔ ∀ c ∈ cs, isBlank c = true := by
  constructor
  · intro h
    obtain ⟨front, back, hcs, hfront, hback⟩ := exists_eq_strip cs
    rw [h, List.nil_append] at hcs
    intro c hc
    rw [hcs, List.mem_append] at hc
    exact hc.elim (hfront c) (hback c)
  · intro h
    have happend := strip_blanks_append h []
    rwa [List.append_nil] at happend

theorem exists_mem_strip {cs : List Char} (h : strip cs ≠ []) :
    ∃ c ∈ strip cs, isBlank c = false := by
  cases hall : (strip cs).all isBlank with
  | false => simpa using hall
  | true =>
    obtain ⟨front, back, hcs, hfront, hback⟩ := exists_eq_strip cs
    refine absurd (strip_eq_nil_iff.mpr fun c hc => ?_) h
    rw [hcs, List.mem_append, List.mem_append] at hc
    rcases hc with hc | hc | hc
    · exact hfront c hc
    · exact List.all_eq_true.mp hall c hc
    · exact hback c hc

theorem strip_stripRight (cs : List Char) : strip (stripRight cs) = strip cs := by
  obtain ⟨back, hcs, hback⟩ := exists_eq_stripRight cs
  conv => rhs; rw [hcs]
  rw [strip_append_blanks hback]

end Strip

theorem consPiece_append (c : Char) {pieces : List (List Char)} (h : pieces ≠ [])
    (more : List (List Char)) : consPiece c (pieces ++ more) = consPiece c pieces ++ more := by
  cases pieces with
  | nil => exact absurd rfl h
  | cons piece pieces => rfl

theorem splitChar_ne_nil (sep : Char) (cs : List Char) : splitChar sep cs ≠ [] := by
  cases cs with
  | nil => simp
  | cons c cs =>
    by_cases h : c = sep
    · simp [h]
    · rw [splitChar, if_neg h]
      cases splitChar sep cs <;> simp

theorem splitChar_append (sep : Char) (as bs : List Char) :
    splitChar sep (as ++ sep :: bs) = splitChar sep as ++ splitChar sep bs := by
  induction as with
  | nil => simp
  | cons a as ih =>
    by_cases h : a = sep
    · simp [h, ih]
    · rw [List.cons_append, splitChar, if_neg h, ih, consPiece_append _ (splitChar_ne_nil _ _),
        splitChar, if_neg h]

theorem splitChar_of_not_mem {sep : Char} {cs : List Char} (h : sep ∉ cs) :
    splitChar sep cs = [cs] := by
  induction cs with
  | nil => rfl
  | cons c cs ih =>
    obtain ⟨hc, hcs⟩ : sep ≠ c ∧ sep ∉ cs := by simpa using h
    rw [splitChar, if_neg (Ne.symm hc), ih hcs, consPiece]

theorem intercalate_append_cons {α : Type} (sep as bs : List α) (zs : List (List α)) :
    sep.intercalate ((as ++ bs) :: zs) = as ++ sep.intercalate (bs :: zs) := by
  cases zs with
  | nil => simp
  | cons z zs => simp only [List.intercalate_cons_cons, List.append_assoc]

theorem intercalate_concat_of_ne_nil {α : Type} (sep x : List α) {xs : List (List α)}
    (h : xs ≠ []) : sep.intercalate (xs ++ [x]) = sep.intercalate xs ++ sep ++ x := by
  induction xs with
  | nil => exact absurd rfl h
  | cons y ys ih =>
    cases ys with
    | nil => simp [List.intercalate_cons_cons]
    | cons z zs =>
      rw [List.cons_append, List.intercalate_cons_of_ne_nil (by simp), ih (by simp),
        List.intercalate_cons_cons]
      simp only [List.append_assoc]

theorem forall_mem_intercalate {α : Type} {P : α → Prop} {sep : List α} {xs : List (List α)}
    (hsep : ∀ a ∈ sep, P a) (hxs : ∀ x ∈ xs, ∀ a ∈ x, P a) : ∀ a ∈ sep.intercalate xs, P a := by
  induction xs with
  | nil => exact List.forall_mem_nil _
  | cons x xs ih =>
    obtain ⟨hx, hxs⟩ := List.forall_mem_cons.mp hxs
    cases xs with
    | nil => simpa using hx
    | cons y ys =>
      rw [List.intercalate_cons_cons, List.append_assoc]
      simp only [List.forall_mem_append]
      exact ⟨hx, hsep, ih hxs⟩

theorem infix_intercalate {t : List Char} {ts : List (List Char)} (sep : List Char) (h : t ∈ ts) :
    t <:+: sep.intercalate ts := by
  induction ts with
  | nil => cases h
  | cons x ts ih =>
    by_cases hts : ts = []
    · subst hts
      exact ⟨[], [], by simp [List.mem_singleton.mp h]⟩
    · rw [List.intercalate_cons_of_ne_nil hts]
      obtain rfl | h := List.mem_cons.mp h
      · exact ((List.prefix_append t sep).trans (List.prefix_append _ _)).isInfix
      · exact (ih h).trans (List.suffix_append _ _).isInfix

theorem splitChar_intercalate (sep : Char) (gap t : List Char) (ts : List (List Char)) :
    splitChar sep ((sep :: gap).intercalate (t :: ts)) =
      splitChar sep t ++ ts.flatMap fun u => splitChar sep (gap ++ u) := by
  induction ts generalizing t with
  | nil => simp
  | cons u ts ih =>
    have hjoin : (sep :: gap).intercalate (t :: u :: ts) =
        t ++ sep :: (sep :: gap).intercalate ((gap ++ u) :: ts) := by
      rw [intercalate_append_cons, List.intercalate_cons_cons, List.append_assoc, List.cons_append]
    rw [hjoin, splitChar_append, ih, List.flatMap_cons]

theorem splitChar_intercalate_of_not_mem {sep : Char} {ts : List (List Char)} (hne : ts ≠ [])
    (h : ∀ t ∈ ts, sep ∉ t) : splitChar sep ([sep].intercalate ts) = ts := by
  obtain ⟨t, ts, rfl⟩ := List.exists_cons_of_ne_nil hne
  have hsplit : ∀ u ∈ ts, splitChar sep u = [u] :=
    fun u hu => splitChar_of_not_mem (h u (List.mem_cons_of_mem _ hu))
  rw [splitChar_intercalate, splitChar_of_not_mem (h t (by simp))]
  simp only [List.nil_append, List.flatMap_def, List.map_congr_left hsplit]
  simp [← List.flatMap_def]

theorem intercalate_splitChar (sep : Char) (cs : List Char) :
    [sep].intercalate (splitChar sep cs) = cs := by
  induction cs with
  | nil => rfl
  | cons c cs ih =>
    obtain ⟨piece, pieces, hpieces⟩ := List.exists_cons_of_ne_nil (splitChar_ne_nil sep cs)
    rw [hpieces] at ih
    by_cases hc : c = sep
    · rw [splitChar, if_pos hc, hpieces, List.intercalate_cons_cons, ih, hc]
      rfl
    · rw [splitChar, if_neg hc, hpieces, consPiece, List.intercalate_cons_cons_left, ih]

theorem intercalate_ofList_splitChar {mark : String} {sep : Char} (h : mark.toList = [sep])
    (s : String) : mark.intercalate ((splitChar sep s.toList).map String.ofList) = s := by
  have hid : String.toList ∘ String.ofList = id := funext fun cs => String.toList_ofList
  rw [← String.toList_inj, String.toList_intercalate, List.map_map, hid, List.map_id, h,
    intercalate_splitChar]

theorem splitChar_append_of_not_mem {sep : Char} {as : List Char} (h : sep ∉ as) (bs : List Char) :
    ∃ piece pieces, splitChar sep bs = piece :: pieces ∧
      splitChar sep (as ++ bs) = (as ++ piece) :: pieces := by
  induction as with
  | nil =>
    obtain ⟨piece, pieces, hbs⟩ := List.exists_cons_of_ne_nil (splitChar_ne_nil sep bs)
    exact ⟨piece, pieces, hbs, hbs⟩
  | cons a as ih =>
    obtain ⟨ha, has⟩ : sep ≠ a ∧ sep ∉ as := by simpa using h
    obtain ⟨piece, pieces, hbs, happend⟩ := ih has
    refine ⟨piece, pieces, hbs, ?_⟩
    rw [List.cons_append, splitChar, if_neg (Ne.symm ha), happend, consPiece, List.cons_append]

theorem splitChar_append_end {sep : Char} {bs : List Char} (h : sep ∉ bs) (as : List Char) :
    ∃ pieces last, splitChar sep as = pieces ++ [last] ∧
      splitChar sep (as ++ bs) = pieces ++ [last ++ bs] := by
  induction as with
  | nil => exact ⟨[], [], rfl, by rw [List.nil_append, splitChar_of_not_mem h]; rfl⟩
  | cons a as ih =>
    obtain ⟨pieces, last, has, happend⟩ := ih
    rw [List.cons_append, splitChar, splitChar, has, happend]
    by_cases ha : a = sep
    · exact ⟨[] :: pieces, last, by simp [ha], by simp [ha]⟩
    · cases pieces with
      | nil => exact ⟨[], a :: last, by simp [ha], by simp [ha]⟩
      | cons piece pieces =>
        exact ⟨(a :: piece) :: pieces, last, by simp [ha], by simp [ha]⟩

section Pieces

variable {sep : Char} {as bs : List Char}

theorem not_mem_blanks (hsep : isBlank sep = false) (h : ∀ c ∈ bs, isBlank c = true) :
    sep ∉ bs := by
  intro hmem
  rw [h sep hmem] at hsep
  cases hsep

theorem map_strip_splitChar_blanks (hsep : isBlank sep = false) (h : ∀ c ∈ as, isBlank c = true)
    (bs : List Char) : (splitChar sep (as ++ bs)).map strip = (splitChar sep bs).map strip := by
  obtain ⟨piece, pieces, hbs, happend⟩ := splitChar_append_of_not_mem (not_mem_blanks hsep h) bs
  rw [happend, hbs, List.map_cons, List.map_cons, strip_blanks_append h]

/-- White space around a text is white space around its first and last piece. -/
theorem map_strip_splitChar_strip (hsep : isBlank sep = false) (cs : List Char) :
    (splitChar sep (strip cs)).map strip = (splitChar sep cs).map strip := by
  obtain ⟨front, back, hcs, hfront, hback⟩ := exists_eq_strip cs
  obtain ⟨pieces, last, hstrip, happend⟩ :=
    splitChar_append_end (not_mem_blanks hsep hback) (strip cs)
  conv => rhs; rw [hcs]
  rw [map_strip_splitChar_blanks hsep hfront, happend, hstrip, List.map_append, List.map_append,
    List.map_singleton, List.map_singleton, strip_append_blanks hback]

end Pieces

theorem mem_of_mem_splitChar {sep c : Char} {cs piece : List Char}
    (h : piece ∈ splitChar sep cs) (hc : c ∈ piece) : c ∈ cs := by
  rw [← intercalate_splitChar sep cs]
  exact (infix_intercalate _ h).subset hc

theorem not_mem_of_mem_splitChar {sep : Char} {cs piece : List Char}
    (h : piece ∈ splitChar sep cs) : sep ∉ piece := by
  induction cs generalizing piece with
  | nil =>
    obtain rfl : piece = [] := by simpa using h
    simp
  | cons a as ih =>
    by_cases ha : a = sep
    · rw [splitChar, if_pos ha, List.mem_cons] at h
      rcases h with rfl | h
      · simp
      · exact ih h
    · rw [splitChar, if_neg ha] at h
      cases hs : splitChar sep as with
      | nil => exact absurd hs (splitChar_ne_nil _ _)
      | cons first rest =>
        rw [hs] at ih
        rw [hs, consPiece, List.mem_cons] at h
        rcases h with rfl | h
        · simpa [Ne.symm ha] using ih (by simp)
        · exact ih (by simp [h])

theorem mem_splitChar_of_mem {sep c : Char} {cs : List Char} (hc : c ∈ cs) (hne : c ≠ sep) :
    ∃ piece ∈ splitChar sep cs, c ∈ piece := by
  rw [← intercalate_splitChar sep cs] at hc
  refine forall_mem_intercalate (P := fun a => a ≠ sep → ∃ piece ∈ splitChar sep cs, a ∈ piece)
    ?_ ?_ c hc hne
  · exact fun a ha hne => absurd (List.mem_singleton.mp ha) hne
  · exact fun piece hpiece a ha _ => ⟨piece, hpiece, ha⟩

theorem afterStart?_eq_some {start rest : List Char} :
    afterStart? start cs = some rest ↔ cs = start ++ rest := by
  induction start generalizing cs with
  | nil => simp
  | cons p ps ih =>
    cases cs with
    | nil => simp
    | cons c cs =>
      by_cases hp : p = c
      · simp [hp, ih]
      · simp [hp, Ne.symm hp]

theorem startsWith_iff_isPrefix {start : List Char} :
    startsWith start cs = true ↔ start <+: cs := by
  rw [startsWith, Option.isSome_iff_exists]
  exact exists_congr fun rest => afterStart?_eq_some.trans eq_comm

theorem startsWith_append (start rest : List Char) : startsWith start (start ++ rest) = true := by
  rw [startsWith, afterStart?_eq_some.mpr rfl]
  rfl

theorem cutAt?_eq_some {needle as bs : List Char} (h : cutAt? needle cs = some (as, bs)) :
    cs = as ++ (needle ++ bs) := by
  induction cs generalizing as with
  | nil =>
    rw [cutAt?] at h
    split at h
    · rename_i hneedle
      cases h
      simpa using hneedle
    · cases h
  | cons c cs ih =>
    rw [cutAt?] at h
    cases hstart : afterStart? needle (c :: cs) with
    | some rest =>
      rw [hstart] at h
      cases h
      rw [afterStart?_eq_some.mp hstart, List.nil_append]
    | none =>
      rw [hstart] at h
      obtain ⟨⟨before, after⟩, hcut, heq⟩ := Option.map_eq_some_iff.mp h
      cases heq
      rw [ih hcut, List.cons_append]

theorem cutAt?_append {c : Char} {as : List Char} (h : c ∉ as) (bs : List Char) :
    cutAt? [c] (as ++ c :: bs) = some (as, bs) := by
  induction as with
  | nil => simp
  | cons a as ih =>
    obtain ⟨ha, has⟩ : c ≠ a ∧ c ∉ as := by simpa using h
    rw [List.cons_append, cutAt?, afterStart?, if_neg ha, ih has]
    rfl

theorem cutAt?_cons_self (c : Char) (cs : List Char) : cutAt? [c] (c :: cs) = some ([], cs) :=
  cutAt?_append List.not_mem_nil cs

theorem contains_iff_isInfix {needle cs : List Char} :
    contains needle cs = true ↔ needle <:+: cs := by
  rw [contains, Option.isSome_iff_exists]
  constructor
  · rintro ⟨⟨as, bs⟩, hcut⟩
    exact ⟨as, bs, by rw [cutAt?_eq_some hcut, List.append_assoc]⟩
  · rintro ⟨as, bs, rfl⟩
    rw [List.append_assoc]
    induction as with
    | nil =>
      have hstart := afterStart?_eq_some.mpr (rfl : needle ++ bs = needle ++ bs)
      cases hcs : needle ++ bs with
      | nil => simp [(List.append_eq_nil_iff.mp hcs).1]
      | cons c cs =>
        rw [hcs] at hstart
        exact ⟨([], bs), by rw [List.nil_append, cutAt?, hstart]⟩
    | cons a as ih =>
      obtain ⟨pair, hcut⟩ := ih
      rw [List.cons_append, cutAt?]
      split
      · exact ⟨_, rfl⟩
      · exact ⟨_, by rw [hcut]; rfl⟩

theorem cutAtLast?_append {c : Char} {bs : List Char} (h : c ∉ bs) (as : List Char) :
    cutAtLast? [c] (as ++ c :: bs) = some (as, bs) := by
  have hreverse : (as ++ c :: bs).reverse = bs.reverse ++ c :: as.reverse := by simp
  rw [cutAtLast?, List.reverse_singleton, hreverse, cutAt?_append (by simpa using h)]
  simp

section Pairs

variable {x y : Char} {as bs : List Char}

theorem cutAt?_pair (hne : x ≠ y) (h : ¬[x, y] <:+: as) (bs : List Char) :
    cutAt? [x, y] (as ++ x :: y :: bs) = some (as, bs) := by
  induction as with
  | nil => simp
  | cons a as ih =>
    have has : ¬[x, y] <:+: as := fun hmid => h (hmid.trans (List.suffix_cons a as).isInfix)
    have hstart : afterStart? [x, y] (a :: as ++ x :: y :: bs) = none := by
      cases hstart : afterStart? [x, y] (a :: as ++ x :: y :: bs) with
      | none => rfl
      | some rest =>
        have heq := afterStart?_eq_some.mp hstart
        cases as with
        | nil =>
          obtain ⟨-, hxy, -⟩ : a = x ∧ x = y ∧ y :: bs = rest := by simpa using heq
          exact absurd hxy hne
        | cons b as =>
          obtain ⟨rfl, rfl, -⟩ : a = x ∧ b = y ∧ as ++ x :: y :: bs = rest := by simpa using heq
          exact absurd ⟨[], as, rfl⟩ h
    rw [List.cons_append, cutAt?, ← List.cons_append, hstart, ih has]
    rfl

theorem cutAtLast?_pair (hne : x ≠ y) (h : ¬[x, y] <:+: bs) (as : List Char) :
    cutAtLast? [x, y] (as ++ x :: y :: bs) = some (as, bs) := by
  have hreverse : (as ++ x :: y :: bs).reverse = bs.reverse ++ y :: x :: as.reverse := by simp
  have hmid : ¬[y, x] <:+: bs.reverse := by
    intro hmid
    have hback := List.reverse_infix.mpr hmid
    rw [List.reverse_reverse] at hback
    exact h hback
  have hneedle : [x, y].reverse = [y, x] := rfl
  rw [cutAtLast?, hneedle, hreverse, cutAt?_pair hne.symm hmid]
  simp

end Pairs

section Stops

variable {stop : Char} {inner : List Char}

theorem takeWhile_append_stop (h : stop ∉ inner) (rest : List Char) :
    (inner ++ stop :: rest).takeWhile (· ≠ stop) = inner := by
  rw [List.takeWhile_append_of_pos fun c hc => by simpa using ne_of_mem_of_not_mem hc h]
  simp

theorem takeWhile_of_not_mem (h : stop ∉ cs) : cs.takeWhile (· ≠ stop) = cs := by
  have happend : (cs ++ []).takeWhile (· ≠ stop) = cs ++ [].takeWhile (· ≠ stop) :=
    List.takeWhile_append_of_pos fun c hc => by simpa using ne_of_mem_of_not_mem hc h
  simpa using happend

theorem drop_takeWhile (p : Char → Bool) (cs : List Char) :
    cs.drop (cs.takeWhile p).length = cs.dropWhile p := by
  induction cs with
  | nil => rfl
  | cons c cs ih => by_cases hc : p c <;> simp [hc, ih]

end Stops

/-- What is left of a hit is passed over. -/
theorem substituteFrom_length (find : Option Char → List Char → Option Hit) (as cs : List Char)
    (before : Option Char) : substituteFrom find as.length before (as ++ cs) =
      substituteFrom find 0 (as.getLast?.or before) cs := by
  induction as generalizing before with
  | nil => rfl
  | cons a as ih =>
    rw [List.length_cons, List.cons_append, substituteFrom, ih]
    cases as <;> simp [List.getLast?_cons]

theorem substituteFrom_skip (find : Option Char → List Char → Option Hit) (as cs : List Char)
    (before : Option Char) :
    ∃ before', substituteFrom find as.length before (as ++ cs) =
      substituteFrom find 0 before' cs :=
  ⟨as.getLast?.or before, substituteFrom_length find as cs before⟩

theorem substituteFrom_of_none {find : Option Char → List Char → Option Hit}
    (h : ∀ before tail, tail <:+ cs → find before tail = none)
    (before : Option Char) : substituteFrom find 0 before cs = cs := by
  induction cs generalizing before with
  | nil => rfl
  | cons c cs ih =>
    rw [substituteFrom, h before _ (List.suffix_refl _)]
    simp only
    rw [ih fun b tail htail => h b tail (htail.trans (List.suffix_cons c cs))]

/-- What a recogniser that only looks ahead does is the same after any character. -/
theorem substituteFrom_before (find : List Char → Option Hit) (skip : Nat)
    (before before' : Option Char) (cs : List Char) :
    substituteFrom (fun _ => find) skip before cs =
      substituteFrom (fun _ => find) skip before' cs := by
  cases cs with
  | nil => cases skip <;> rfl
  | cons c cs => cases skip <;> rfl

/-- A tail where nothing is found stays as it is, if it also changes nothing of what is found in
front of it. -/
theorem substituteFrom_append {find : List Char → Option Hit} {tail : List Char}
    (hsees : ∀ a as, find (a :: as ++ tail) = find (a :: as))
    (htaken : ∀ ahead hit, find ahead = some hit → hit.taken ≤ ahead.length)
    (hnone : ∀ ahead, ahead <:+ tail → find ahead = none) (skip : Nat) (before : Option Char)
    (hskip : skip ≤ cs.length) :
    substituteFrom (fun _ => find) skip before (cs ++ tail) =
      substituteFrom (fun _ => find) skip before cs ++ tail := by
  induction cs generalizing skip before with
  | nil =>
    obtain rfl : skip = 0 := Nat.le_zero.mp hskip
    exact substituteFrom_of_none (fun _ => hnone) before
  | cons c cs ih =>
    cases skip with
    | succ skip => exact ih skip (some c) (Nat.le_of_succ_le_succ hskip)
    | zero =>
      rw [List.cons_append, substituteFrom, ← List.cons_append, hsees, substituteFrom]
      split
      · rename_i taken written hhit
        have hle : taken + 1 ≤ cs.length + 1 := htaken _ _ hhit
        rw [ih taken (some c) (by omega), List.append_assoc]
      · rw [ih 0 (some c) (Nat.zero_le _), List.cons_append]

/-- The hit of a text that stands ahead. -/
def hitAt (old new ahead : List Char) : Option Hit :=
  if startsWith old ahead then some ⟨old.length, new⟩ else none

theorem replace_eq (h : old ≠ []) (new cs : List Char) :
    replace old new cs = substituteFrom (fun _ => hitAt old new) 0 none cs := by
  rw [replace, if_neg (by simpa using h)]
  rfl

/-- A text is replaced where it stands in front of what it cannot stand in. -/
theorem replace_start {sep : Char} (hsep : sep ∈ old) (hcs : sep ∉ cs) (new : List Char) :
    replace old new (old ++ cs) = new ++ cs := by
  have hnone : ∀ (before : Option Char) (tail : List Char), tail <:+ cs →
      hitAt old new tail = none := by
    intro before tail htail
    rw [hitAt, if_neg]
    intro hstart
    obtain ⟨rest, hrest⟩ := Option.isSome_iff_exists.mp hstart
    rw [afterStart?_eq_some.mp hrest] at htail
    exact hcs (htail.mem (List.mem_append_left rest hsep))
  have hhit : hitAt old new (old ++ cs) = some ⟨old.length, new⟩ := by
    rw [hitAt, if_pos (startsWith_append old cs)]
  rw [replace_eq (List.ne_nil_of_mem hsep)]
  cases old with
  | nil => cases hsep
  | cons o os =>
    obtain ⟨before, hskip⟩ := substituteFrom_skip (fun _ => hitAt (o :: os) new) os cs (some o)
    rw [List.cons_append] at hhit ⊢
    rw [substituteFrom, hhit]
    simp only [List.length_cons]
    rw [hskip, substituteFrom_of_none hnone]

/-- What holds of all characters of a text holds of all that is written for it. -/
theorem forall_mem_substituteFrom {find : Option Char → List Char → Option Hit} {P : Char → Prop}
    (hfind : ∀ before ahead hit, find before ahead = some hit → (∀ c ∈ ahead, P c) →
      ∀ c ∈ hit.written, P c)
    (hcs : ∀ c ∈ cs, P c) (skip : Nat) (before : Option Char) :
    ∀ c ∈ substituteFrom find skip before cs, P c := by
  induction cs generalizing skip before with
  | nil => simp
  | cons a as ih =>
    obtain ⟨ha, has⟩ := List.forall_mem_cons.mp hcs
    cases skip with
    | succ skip => exact ih has skip (some a)
    | zero =>
      rw [substituteFrom]
      split
      · rename_i taken written hhit
        exact List.forall_mem_append.mpr ⟨hfind _ _ _ hhit hcs, ih has taken (some a)⟩
      · exact List.forall_mem_cons.mpr ⟨ha, ih has 0 (some a)⟩

theorem not_mem_substituteFrom {find : Option Char → List Char → Option Hit} {c : Char}
    (hfind : ∀ before ahead hit, find before ahead = some hit → c ∉ ahead → c ∉ hit.written)
    (hc : c ∉ cs) (skip : Nat) (before : Option Char) : c ∉ substituteFrom find skip before cs := by
  have hne (ds : List Char) : c ∉ ds ↔ ∀ d ∈ ds, d ≠ c :=
    ⟨fun h d hd => ne_of_mem_of_not_mem hd h, fun h hmem => h c hmem rfl⟩
  simp only [hne] at hfind hc ⊢
  exact forall_mem_substituteFrom hfind hc skip before

/-- A text does not get longer if nothing that is written is longer than what it is written for. -/
theorem length_substituteFrom_le {find : Option Char → List Char → Option Hit}
    (hfind : ∀ before ahead hit, find before ahead = some hit →
      hit.written.length ≤ hit.taken ∧ hit.taken ≤ ahead.length)
    (skip : Nat) (hskip : skip ≤ cs.length) (before : Option Char) :
    (substituteFrom find skip before cs).length + skip ≤ cs.length := by
  induction cs generalizing skip before with
  | nil => simpa using hskip
  | cons c cs ih =>
    cases skip with
    | succ skip =>
      have hrest := ih skip (by simpa using hskip) (some c)
      simp only [substituteFrom, List.length_cons]
      omega
    | zero =>
      rw [substituteFrom]
      split
      · rename_i taken written hhit
        obtain ⟨hwritten, htaken⟩ := hfind _ _ _ hhit
        have hrest := ih taken (by simpa using htaken) (some c)
        simp only [List.length_append, List.length_cons]
        simp only at hwritten
        omega
      · have hrest := ih 0 (Nat.zero_le _) (some c)
        simpa using hrest

theorem forall_mem_replace {P : Char → Prop} (hold : old ≠ []) (hnew : ∀ c ∈ new, P c)
    (hcs : ∀ c ∈ cs, P c) : ∀ c ∈ replace old new cs, P c := by
  rw [replace_eq hold]
  apply forall_mem_substituteFrom _ hcs
  intro before ahead hit hhit _
  rw [hitAt] at hhit
  split at hhit
  · cases hhit
    exact hnew
  · cases hhit

theorem not_mem_replace {c : Char} (hold : old ≠ []) (hnew : c ∉ new) (hcs : c ∉ cs) :
    c ∉ replace old new cs := fun hmem =>
  forall_mem_replace (P := (· ≠ c)) hold (fun _ hd => ne_of_mem_of_not_mem hd hnew)
    (fun _ hd => ne_of_mem_of_not_mem hd hcs) c hmem rfl

section Substitution

variable {find : List Char → Option Hit} {a b c : Char} {as cs t u v written : List Char}

/-- Every hit takes something, and no more than there is. -/
def Fits (find : List Char → Option Hit) : Prop :=
  ∀ cs hit, find cs = some hit → 0 < hit.taken ∧ hit.taken ≤ cs.length

@[simp] theorem substitute_nil (find : List Char → Option Hit) : substitute find [] = [] := rfl

theorem substitute_keep (h : find (c :: cs) = none) :
    substitute find (c :: cs) = c :: substitute find cs := by
  rw [substitute, substituteAfter, substituteFrom, h]
  simp only
  rw [substituteFrom_before find 0 (some c) none, substitute, substituteAfter]

theorem substitute_hit (has : as ≠ []) (h : find (as ++ cs) = some ⟨as.length, written⟩) :
    substitute find (as ++ cs) = written ++ substitute find cs := by
  obtain ⟨a, as, rfl⟩ := List.exists_cons_of_ne_nil has
  obtain ⟨before, hskip⟩ := substituteFrom_skip (fun _ => find) as cs (some a)
  rw [List.cons_append] at h ⊢
  rw [substitute, substituteAfter, substituteFrom, h]
  simp only [List.length_cons]
  rw [hskip, substituteFrom_before find 0 before none, substitute, substituteAfter]

theorem Fits.exists_eq_append {hit : Hit} (h : Fits find) (hhit : find cs = some hit) :
    ∃ as rest, as ≠ [] ∧ cs = as ++ rest ∧ hit = ⟨as.length, hit.written⟩ := by
  obtain ⟨hpos, hle⟩ := h _ _ hhit
  have htaken : (cs.take hit.taken).length = hit.taken := List.length_take_of_le hle
  refine ⟨_, _, List.ne_nil_of_length_pos (by omega), (List.take_append_drop hit.taken cs).symm, ?_⟩
  rw [htaken]

/-- What holds of a text and its substitution, character by character and hit by hit. -/
theorem substitute_induction {motive : List Char → List Char → Prop} (hfits : Fits find)
    (nil : motive [] [])
    (keep : ∀ c cs, find (c :: cs) = none → motive cs (substitute find cs) →
      motive (c :: cs) (c :: substitute find cs))
    (hit : ∀ as cs written, as ≠ [] → find (as ++ cs) = some ⟨as.length, written⟩ →
      motive cs (substitute find cs) → motive (as ++ cs) (written ++ substitute find cs))
    (cs : List Char) : motive cs (substitute find cs) := by
  induction hn : cs.length using Nat.strongRecOn generalizing cs with
  | ind n ih =>
    cases cs with
    | nil => exact nil
    | cons c cs =>
      cases hfind : find (c :: cs) with
      | none =>
        rw [substitute_keep hfind]
        exact keep c cs hfind (ih cs.length (by simp [← hn]) cs rfl)
      | some found =>
        obtain ⟨as, rest, has, hcs, hfound⟩ := hfits.exists_eq_append hfind
        rw [hcs, hfound] at hfind
        rw [hcs] at hn ⊢
        rw [substitute_hit has hfind]
        refine hit as rest _ has hfind (ih rest.length ?_ rest rfl)
        have hpos := List.length_pos_iff.mpr has
        rw [← hn, List.length_append]
        omega

/-- A text in which nothing is found that depends on what comes behind is worked on by itself. -/
theorem substitute_append (hfits : Fits find)
    (h : ∀ w, w <:+ u → w ≠ [] → find (w ++ v) = find w) :
    substitute find (u ++ v) = substitute find u ++ substitute find v := by
  have hsuffix (cs : List Char) : cs <:+ u →
      substitute find (cs ++ v) = substitute find cs ++ substitute find v := by
    refine substitute_induction (motive := fun cs out =>
      cs <:+ u → substitute find (cs ++ v) = out ++ substitute find v) hfits (fun _ => rfl) ?_ ?_ cs
    · intro c cs hnone ih hcs
      have hfind : find (c :: (cs ++ v)) = none := (h _ hcs (by simp)).trans hnone
      rw [List.cons_append, substitute_keep hfind, ih ((List.suffix_cons c cs).trans hcs),
        List.cons_append]
    · intro as cs written has hhit ih hcs
      have hfind : find (as ++ (cs ++ v)) = some ⟨as.length, written⟩ := by
        rw [← List.append_assoc, h _ hcs (by simp [has]), hhit]
      rw [List.append_assoc, substitute_hit has hfind, ih ((List.suffix_append as cs).trans hcs),
        List.append_assoc]
  exact hsuffix u List.suffix_rfl

theorem substitute_append_of_none (h : ∀ w, w <:+ u → w ≠ [] → find (w ++ v) = none) :
    substitute find (u ++ v) = u ++ substitute find v := by
  induction u with
  | nil => rfl
  | cons c u ih =>
    have hfind : find (c :: (u ++ v)) = none := h (c :: u) List.suffix_rfl (by simp)
    rw [List.cons_append, substitute_keep hfind,
      ih fun w hw => h w (hw.trans (List.suffix_cons c u)), List.cons_append]

/-- A recogniser of what begins with one character, for which it writes what begins with
another. -/
structure Turns (a b : Char) (find : List Char → Option Hit) : Prop where
  fits : Fits find
  starts : ∀ cs hit, find cs = some hit → cs.head? = some a ∧ hit.written.head? = some b

theorem Turns.eq_none (h : Turns a b find) (hc : c ≠ a) (cs : List Char) :
    find (c :: cs) = none := by
  cases hfind : find (c :: cs) with
  | none => rfl
  | some hit => exact absurd (Option.some.inj (h.starts _ _ hfind).1) hc

/-- Nothing is found that begins in a text without the character that hits begin with. -/
theorem Turns.substitute_append (h : Turns a b find) (ha : a ∉ u) (v : List Char) :
    substitute find (u ++ v) = u ++ substitute find v := by
  refine substitute_append_of_none fun w hw hne => ?_
  obtain ⟨c, w, rfl⟩ := List.exists_cons_of_ne_nil hne
  exact h.eq_none (fun hc => ha (hw.mem (by simp [hc]))) _

theorem Turns.head?_substitute {hit : Hit} (h : Turns a b find) (hhit : find cs = some hit) :
    (substitute find cs).head? = some b := by
  obtain ⟨as, rest, has, rfl, hfound⟩ := h.fits.exists_eq_append hhit
  have hwritten := (h.starts _ _ hhit).2
  rw [hfound] at hhit
  rw [substitute_hit has hhit, List.head?_append, hwritten, Option.some_or]

/-- A text stays at the front exactly if nothing is found that begins in it. -/
theorem Turns.isPrefix_substitute_iff (h : Turns a b find) (hne : a ≠ b) :
    u <+: substitute find (u ++ v) ↔ ∀ w, w <:+ u → w ≠ [] → find (w ++ v) = none := by
  constructor
  · intro hfront
    induction u with
    | nil =>
      intro w hw hwne
      exact absurd (List.suffix_nil.mp hw) hwne
    | cons c u ih =>
      have hfind : find (c :: (u ++ v)) = none := by
        cases hfind : find (c :: (u ++ v)) with
        | none => rfl
        | some hit =>
          have hold : some c = some a := (h.starts _ _ hfind).1
          have hnew : some c = some b := by
            obtain ⟨out, hout⟩ := hfront
            exact (congrArg List.head? hout).trans (h.head?_substitute hfind)
          exact absurd (Option.some.inj (hold.symm.trans hnew)) hne
      rw [List.cons_append, substitute_keep hfind, List.cons_prefix_cons] at hfront
      intro w hw hwne
      rcases List.suffix_cons_iff.mp hw with rfl | hw
      · exact hfind
      · exact ih hfront.2 w hw hwne
  · intro hnone
    rw [substitute_append_of_none hnone]
    exact List.prefix_append u _

/-- What stands in front without the character that hits begin with stood there before. -/
theorem Turns.eq_append_of_substitute (h : Turns a b find) {front : List Char} (hb : b ∉ front)
    (heq : substitute find cs = front ++ t) : ∃ s, cs = front ++ s ∧ t = substitute find s := by
  induction front generalizing cs with
  | nil => exact ⟨cs, rfl, heq.symm⟩
  | cons c front ih =>
    obtain ⟨hc, hfront⟩ : b ≠ c ∧ b ∉ front := by simpa using hb
    cases cs with
    | nil => cases heq
    | cons d cs =>
      cases hfind : find (d :: cs) with
      | none =>
        rw [substitute_keep hfind, List.cons_append] at heq
        obtain ⟨hd, hrest⟩ := List.cons.inj heq
        obtain ⟨s, rfl, ht⟩ := ih hfront hrest
        exact ⟨s, by rw [hd, List.cons_append], ht⟩
      | some hit =>
        have hhead := h.head?_substitute hfind
        rw [heq] at hhead
        exact absurd (Option.some.inj hhead).symm hc

end Substitution

section Dedent

theorem commonStart_append (as bs : List Char) : commonStart as (as ++ bs) = as := by
  induction as with
  | nil => cases bs <;> rfl
  | cons a as ih => simp [commonStart, ih]

theorem foldl_commonStart {margin : List Char} {ls : List (List Char)}
    (h : ∀ l ∈ ls, margin <+: l) : ls.foldl commonStart margin = margin := by
  induction ls with
  | nil => rfl
  | cons l ls ih =>
    obtain ⟨⟨rest, rfl⟩, hls⟩ := List.forall_mem_cons.mp h
    rw [List.foldl_cons, commonStart_append, ih hls]

/-- Lines that are all indented alike lose just that, and those of nothing else become empty. -/
theorem dedent_indented {margin first : List Char} {others : List (List Char)}
    (hmargin : ∀ c ∈ margin, isIndent c = true) (hne : first ≠ [])
    (hfirst : ∀ c ∈ first.head?, isIndent c = false)
    (hlines : ∀ l ∈ first :: others, '\n' ∉ l) :
    dedent (unlines ((first :: others).map (margin ++ ·))) =
      unlines ((first :: others).map fun l => if l.all isIndent then [] else l) := by
  have hnewline : '\n' ∉ margin := fun hmem => absurd (hmargin _ hmem) (by decide)
  have hall : margin.all isIndent = true := List.all_eq_true.mpr hmargin
  have hsplit : lines (unlines ((first :: others).map (margin ++ ·))) =
      (first :: others).map (margin ++ ·) := by
    refine splitChar_intercalate_of_not_mem (by simp) ?_
    rw [List.forall_mem_map]
    intro l hl hmem
    exact (List.mem_append.mp hmem).elim hnewline (hlines l hl)
  have hcut : ((first :: others).map (margin ++ ·)).map
        (fun l => if l.all isIndent then [] else l) =
      (first :: others).map fun l => if l.all isIndent then [] else margin ++ l := by
    simp only [List.map_map, Function.comp_def, List.all_append, hall, Bool.true_and]
  -- the first line has the margin and no more, and every other line has the margin at least
  have hindent : commonIndent ((first :: others).map fun l =>
      if l.all isIndent then [] else margin ++ l) = margin := by
    obtain ⟨c, cs, rfl⟩ := List.exists_cons_of_ne_nil hne
    have hc : isIndent c = false := hfirst c rfl
    have htake (l : List Char) : (margin ++ l).takeWhile isIndent =
        margin ++ l.takeWhile isIndent := List.takeWhile_append_of_pos hmargin
    unfold commonIndent
    simp only [List.map_cons, List.all_cons, hc, Bool.false_and, Bool.false_eq_true, if_false]
    rw [List.filter_cons_of_pos (by simp), List.map_cons, htake, List.takeWhile_cons, hc]
    simp only [Bool.false_eq_true, if_false, List.append_nil]
    apply foldl_commonStart
    simp only [List.mem_map, List.mem_filter, forall_exists_index, and_imp]
    rintro l _ u hu rfl hempty rfl
    split at hempty
    · simp at hempty
    · rename_i hu
      rw [if_neg hu, htake]
      exact List.prefix_append _ _
  unfold dedent
  simp only [hsplit, hcut, hindent]
  rw [List.map_map]
  congr 1
  apply List.map_congr_left
  intro l hl
  rw [Function.comp_apply]
  split
  · exact List.drop_nil
  · exact List.drop_left

end Dedent

end DocSite.Text
