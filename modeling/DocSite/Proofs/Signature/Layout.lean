import DocSite.Signature.Layout
import DocSite.Proofs.Signature.Unquoting
import Mathlib.Order.Bounds.Defs

/-!
Laying out a signature. The parenthesis that ends the parameter list is the first with which as many
are closed as opened. Quotes go and white space comes and goes, but nothing else does, apart from
the comma that may end a parameter list.
-/

namespace DocSite.Signature

open Text

section Parens

variable {c : Char} {cs : List Char} {k : Int}

/-- How many more parentheses are opened than closed. -/
def parenDepth (cs : List Char) : Int := cs.count '(' - cs.count ')'

/-- With so many parentheses open at the start, none is closed that was not opened. -/
def StaysWithin (k : Int) (cs : List Char) : Prop :=
  ∀ front, front <+: cs → 0 ≤ k + parenDepth front

/-- The parenthesis between two texts closes a parameter list that was opened just before them: it
is the first that closes more than was opened or, where there is none, the last. -/
def ClosesList (before after : List Char) : Prop :=
  (StaysWithin 0 before ∧ parenDepth before = 0) ∨
    (StaysWithin 0 (before ++ ')' :: after) ∧ ')' ∉ after)

theorem parenDepth_append (as bs : List Char) :
    parenDepth (as ++ bs) = parenDepth as + parenDepth bs := by
  simp only [parenDepth, List.count_append]
  omega

theorem parenDepth_cons (c : Char) (cs : List Char) :
    parenDepth (c :: cs) = parenDepth [c] + parenDepth cs := parenDepth_append [c] cs

theorem staysWithin_cons :
    StaysWithin k (c :: cs) ↔ 0 ≤ k ∧ StaysWithin (k + parenDepth [c]) cs := by
  constructor
  · intro h
    refine ⟨by simpa [parenDepth] using h [] List.nil_prefix, fun front hfront => ?_⟩
    have hcons := h (c :: front) (List.cons_prefix_cons.mpr ⟨rfl, hfront⟩)
    rwa [parenDepth_cons, ← Int.add_assoc] at hcons
  · rintro ⟨hk, h⟩ front hfront
    obtain rfl | ⟨front, rfl, hrest⟩ := List.prefix_cons_iff.mp hfront
    · simpa [parenDepth] using hk
    · rw [parenDepth_cons, ← Int.add_assoc]
      exact h front hrest

theorem staysWithin_nil (d : Nat) : StaysWithin d [] := by
  intro front hfront
  rw [List.prefix_nil.mp hfront]
  simp [parenDepth]

theorem parenDepth_singleton (hopen : c ≠ '(') (hclose : c ≠ ')') : parenDepth [c] = 0 := by
  simp [parenDepth, hopen, hclose]

/-- What the walk to the closing parenthesis of the last of several open ones finds. -/
theorem closing?_spec (d : Nat) (cs : List Char) :
    (closing? (d + 1) cs = none ∧ StaysWithin d cs) ∨
    ∃ before after, closing? (d + 1) cs = some before.length ∧ cs = before ++ ')' :: after ∧
      StaysWithin d before ∧ d + parenDepth before = 0 := by
  induction cs generalizing d with
  | nil => exact .inl ⟨rfl, staysWithin_nil d⟩
  | cons c cs ih =>
    -- the walk goes on behind `c` at the depth that `c` leaves
    have hgo (e : Nat) (he : (e : Int) = d + parenDepth [c])
        (hwalk : closing? (d + 1) (c :: cs) = (closing? (e + 1) cs).map (· + 1)) :
        (closing? (d + 1) (c :: cs) = none ∧ StaysWithin d (c :: cs)) ∨
        ∃ before after, closing? (d + 1) (c :: cs) = some before.length ∧
          c :: cs = before ++ ')' :: after ∧ StaysWithin d before ∧ d + parenDepth before = 0 := by
      obtain ⟨hnone, hwithin⟩ | ⟨before, after, hsome, rfl, hwithin, hdepth⟩ := ih e
      · refine .inl ⟨by rw [hwalk, hnone, Option.map_none], ?_⟩
        exact staysWithin_cons.mpr ⟨Int.natCast_nonneg d, he ▸ hwithin⟩
      · refine .inr ⟨c :: before, after, by rw [hwalk, hsome]; rfl, rfl, ?_, ?_⟩
        · exact staysWithin_cons.mpr ⟨Int.natCast_nonneg d, he ▸ hwithin⟩
        · rw [parenDepth_cons, ← Int.add_assoc, ← he, hdepth]
    by_cases hopen : c = '('
    · subst hopen
      exact hgo (d + 1) rfl rfl
    by_cases hclose : c = ')'
    · subst hclose
      cases d with
      | zero => exact .inr ⟨[], cs, rfl, rfl, staysWithin_nil 0, rfl⟩
      | succ d =>
        have hdepth : parenDepth [')'] = -1 := rfl
        exact hgo d (by omega) rfl
    · refine hgo d (by rw [parenDepth_singleton hopen hclose, Int.add_zero]) ?_
      rw [closing?, if_neg hopen, if_neg hclose]

theorem endOfParams_spec (h : ')' ∈ cs) : ∃ before after, cs = before ++ ')' :: after ∧
    ClosesList before after ∧ endOfParams ('(' :: cs) 0 = .ok (before.length + 1) := by
  have hmatching : matchingParen? ('(' :: cs) 0 = (closing? 1 cs).map (· + 1) := by
    simp [matchingParen?, closing?, Function.comp_def]
  rw [endOfParams, hmatching]
  obtain ⟨hnone, hwithin⟩ | ⟨before, after, hsome, rfl, hwithin, hdepth⟩ := closing?_spec 0 cs
  · obtain ⟨after, before, hcs, hafter⟩ := List.eq_append_cons_of_mem (List.mem_reverse.mpr h)
    obtain rfl : cs = before.reverse ++ ')' :: after.reverse := by
      rw [← List.reverse_reverse cs, hcs]
      simp
    have hlast : ')' ∉ after.reverse := by simpa using hafter
    refine ⟨before.reverse, after.reverse, rfl, .inr ⟨hwithin, hlast⟩, ?_⟩
    rw [hnone, Option.map_none, ← List.cons_append, cutAtLast?_append hlast]
    rfl
  · refine ⟨before, after, rfl, .inl ⟨hwithin, by simpa using hdepth⟩, ?_⟩
    rw [hsome]
    rfl

end Parens

section Matching

variable {cs : List Char} {p j k : Nat}

/-- The text from one place to another, both included. -/
def stretch (cs : List Char) (p j : Nat) : List Char := (cs.take (j + 1)).drop p

/-- The places behind `p` up to which as many parentheses are closed as are opened from `p` on. -/
def balancedEnds (cs : List Char) (p : Nat) : Set Nat :=
  {j | p < j ∧ j < cs.length ∧ parenDepth (stretch cs p j) = 0}

theorem stretch_eq_cons (h : cs[p]? = some '(') (k : Nat) :
    stretch cs p (p + k) = '(' :: (cs.drop (p + 1)).take k := by
  obtain ⟨hp, hopen⟩ := List.getElem?_eq_some_iff.mp h
  rw [stretch, List.drop_take, List.drop_eq_getElem_cons hp, hopen, Nat.add_assoc,
    Nat.add_sub_cancel_left, List.take_succ_cons]

theorem matchingParen?_of_open (h : cs[p]? = some '(') :
    matchingParen? cs p = (closing? 1 (cs.drop (p + 1))).map (p + 1 + ·) := by
  obtain ⟨hp, hopen⟩ := List.getElem?_eq_some_iff.mp h
  rw [matchingParen?, if_pos h, List.drop_eq_getElem_cons hp, hopen, closing?, if_pos rfl,
    Option.map_map]
  congr 1
  funext n
  simp only [Function.comp_apply]
  omega

/-- As long as no parenthesis is closed that was not opened, the one in front stays open. -/
theorem parenDepth_open_pos {front : List Char} (h : StaysWithin 0 cs) (hfront : front <+: cs) :
    0 < parenDepth ('(' :: front) := by
  have hdepth := h front hfront
  have hopen : parenDepth ['('] = 1 := rfl
  rw [parenDepth_cons]
  omega

/-- Either the parenthesis at `p` stays open to the end of the text, or it does up to a closing one
with which the count is even. -/
theorem matchingParen?_spec (h : cs[p]? = some '(') :
    (matchingParen? cs p = none ∧ ∀ k, p ≤ k → 0 < parenDepth (stretch cs p k)) ∨
    ∃ j, matchingParen? cs p = some j ∧ j ∈ balancedEnds cs p ∧ cs[j]? = some ')' ∧
      ∀ k, p ≤ k → k < j → 0 < parenDepth (stretch cs p k) := by
  rw [matchingParen?_of_open h]
  obtain ⟨hnone, hwithin⟩ | ⟨before, after, hsome, hrest, hwithin, hdepth⟩ :=
    closing?_spec 0 (cs.drop (p + 1))
  · refine .inl ⟨by rw [hnone, Option.map_none], fun k hk => ?_⟩
    obtain ⟨n, rfl⟩ := Nat.exists_eq_add_of_le hk
    rw [stretch_eq_cons h]
    exact parenDepth_open_pos hwithin (List.take_prefix _ _)
  · have hplace : cs[p + 1 + before.length]? = some ')' := by
      rw [← List.getElem?_drop, hrest, List.getElem?_append_right (Nat.le_refl _), Nat.sub_self]
      rfl
    refine .inr ⟨p + 1 + before.length, by rw [hsome]; rfl, ⟨by omega, ?_, ?_⟩, hplace, ?_⟩
    · exact (List.getElem?_eq_some_iff.mp hplace).1
    · have htake : (before ++ ')' :: after).take (1 + before.length) = before ++ [')'] := by
        rw [List.append_cons, List.take_left' (by simp [Nat.add_comm])]
      rw [Nat.add_assoc, stretch_eq_cons h, hrest, htake, parenDepth_cons, parenDepth_append]
      have hopen : parenDepth ['('] = 1 := rfl
      have hclose : parenDepth [')'] = -1 := rfl
      omega
    · intro k hk hlt
      obtain ⟨n, rfl⟩ := Nat.exists_eq_add_of_le hk
      rw [stretch_eq_cons h, hrest, List.take_append_of_le_length (by omega)]
      exact parenDepth_open_pos hwithin (List.take_prefix _ _)

theorem matchingParen?_eq_some_iff : matchingParen? cs p = some j ↔
    cs[p]? = some '(' ∧ IsLeast (balancedEnds cs p) j := by
  by_cases h : cs[p]? = some '('
  · obtain ⟨hnone, hopen⟩ | ⟨i, hsome, hends, -, hopen⟩ := matchingParen?_spec h
    · rw [hnone]
      refine iff_of_false (by simp) ?_
      rintro ⟨-, ⟨hlt, -, heven⟩, -⟩
      have hpos := hopen j (Nat.le_of_lt hlt)
      omega
    · have hleast : IsLeast (balancedEnds cs p) i := by
        refine ⟨hends, fun k hk => ?_⟩
        obtain ⟨hlt, -, heven⟩ := hk
        by_contra hki
        have hpos := hopen k (Nat.le_of_lt hlt) (Nat.lt_of_not_le hki)
        omega
      rw [hsome, Option.some.injEq]
      constructor
      · rintro rfl
        exact ⟨h, hleast⟩
      · rintro ⟨-, hj⟩
        exact Nat.le_antisymm (hleast.2 hj.1) (hj.2 hends)
  · rw [matchingParen?, if_neg h]
    simp [h]

theorem matchingParen?_eq_none_iff : matchingParen? cs p = none ↔
    (cs[p]? = some '(' → ∀ j, j ∉ balancedEnds cs p) := by
  constructor
  · intro hnone h
    obtain ⟨-, hopen⟩ | ⟨i, hsome, -⟩ := matchingParen?_spec h
    · rintro k ⟨hlt, -, heven⟩
      have hpos := hopen k (Nat.le_of_lt hlt)
      omega
    · cases hnone.symm.trans hsome
  · intro hempty
    rw [Option.eq_none_iff_forall_ne_some]
    intro j hj
    obtain ⟨h, hleast⟩ := matchingParen?_eq_some_iff.mp hj
    exact hempty h j hleast.1

/-- The closing parenthesis that is found for one at `p` is at the first place with which as many
are closed as opened; before it more are opened. None is found where there is no such place. -/
theorem matchingParenAt_exact (cs : List Char) (p : Nat) :
    (∀ j : Nat, matchingParenAt cs p = .ok (some (j : Int)) ↔
      cs[p]? = some '(' ∧ IsLeast (balancedEnds cs p) j) ∧
    (∀ j : Nat, matchingParenAt cs p = .ok (some (j : Int)) →
      cs[j]? = some ')' ∧ ∀ k, p ≤ k → k < j → 0 < parenDepth (stretch cs p k)) ∧
    (matchingParenAt cs p = .ok none ↔ (cs[p]? = some '(' → ∀ j, j ∉ balancedEnds cs p)) := by
  have hat : matchingParenAt cs p = .ok ((matchingParen? cs p).map fun j : Nat => (j : Int)) := by
    rw [matchingParenAt, if_pos (Int.natCast_nonneg p), Int.toNat_natCast]
  have hsome (j : Nat) : matchingParenAt cs p = .ok (some (j : Int)) ↔
      matchingParen? cs p = some j := by
    rw [hat, Except.ok.injEq, Option.map_eq_some_iff]
    refine ⟨?_, fun hj => ⟨j, hj, rfl⟩⟩
    rintro ⟨i, hi, hij⟩
    rwa [Int.ofNat_inj.mp hij] at hi
  refine ⟨fun j => (hsome j).trans matchingParen?_eq_some_iff, fun j hj => ?_, ?_⟩
  · rw [hsome] at hj
    obtain ⟨hnone, -⟩ | ⟨i, hi, -, hclose, hopen⟩ :=
      matchingParen?_spec (matchingParen?_eq_some_iff.mp hj).1
    · cases hnone.symm.trans hj
    · obtain rfl : i = j := Option.some.inj (hi.symm.trans hj)
      exact ⟨hclose, hopen⟩
  · rw [← matchingParen?_eq_none_iff, hat]
    simp

theorem matchingParenAt_exact_nested :
    let cs := "f(a(b)c) -> (d".toList
    matchingParenAt cs 1 = .ok (some 7) ∧
      (cs[7]? = some ')' ∧ ∀ k, 1 ≤ k → k < 7 → 0 < parenDepth (stretch cs 1 k)) ∧
      matchingParenAt cs 12 = .ok none := by
  intro cs
  have hmatch : matchingParenAt cs 1 = .ok (some 7) := by decide +kernel
  exact ⟨hmatch, (matchingParenAt_exact cs 1).2.1 7 hmatch, by decide +kernel⟩

end Matching

section Squeeze

variable {lead : List Char} {q c : Char} {t : List Char}

/-- Whether a character is neither white space nor a quote. -/
def isInk (c : Char) : Bool := !isBlank c && !isQuote c

/-- A text without white space and quotes. -/
def squeeze (cs : List Char) : List Char := cs.filter isInk

theorem squeeze_append (as bs : List Char) : squeeze (as ++ bs) = squeeze as ++ squeeze bs :=
  List.filter_append ..

theorem squeeze_cons (h : isInk c = true) (cs : List Char) : squeeze (c :: cs) = c :: squeeze cs :=
  List.filter_cons_of_pos h

theorem squeeze_cons_of_not (h : isInk c = false) (cs : List Char) :
    squeeze (c :: cs) = squeeze cs := List.filter_cons_of_neg (by simp [h])

theorem squeeze_of_isBlank (h : ∀ c ∈ t, isBlank c = true) : squeeze t = [] := by
  apply List.filter_eq_nil_iff.mpr
  intro c hc
  simp [isInk, h c hc]

theorem squeeze_dropWhile (cs : List Char) : squeeze (cs.dropWhile isBlank) = squeeze cs := by
  conv_rhs => rw [← List.takeWhile_append_dropWhile (p := isBlank) (l := cs)]
  rw [squeeze_append, squeeze_of_isBlank (List.all_eq_true.mp List.all_takeWhile), List.nil_append]

theorem squeeze_reverse (cs : List Char) : squeeze cs.reverse = (squeeze cs).reverse :=
  List.filter_reverse ..

theorem squeeze_strip (cs : List Char) : squeeze (strip cs) = squeeze cs := by
  rw [strip, stripRight, dropTail, squeeze_reverse, squeeze_dropWhile, squeeze_reverse,
    List.reverse_reverse, stripLeft, squeeze_dropWhile]

theorem squeeze_dropQuotes (hlead : lead ∈ leads) (hq : isQuote q = true) (t : List Char) :
    squeeze (dropQuotes lead q t) = squeeze t := by
  apply dropQuotes_induction (motive := fun t u => squeeze u = squeeze t) (lead_ne_nil hlead)
    (isBlank_of_isQuote hq)
  · rfl
  · intro c t _ ih
    by_cases hc : isInk c = true
    · rw [squeeze_cons hc, squeeze_cons hc, ih]
    · rw [Bool.not_eq_true] at hc
      rw [squeeze_cons_of_not hc, squeeze_cons_of_not hc, ih]
  · intro blanks body rest hblanks _ _ ih
    have hquote : isInk q = false := by simp [isInk, hq]
    simp only [squeeze_append, squeeze_cons_of_not hquote, squeeze_of_isBlank hblanks, ih,
      squeeze_cons_of_not (c := ' ') rfl, List.nil_append, List.append_assoc]

theorem squeeze_unquoteTypes (t : List Char) : squeeze (unquoteTypes t) = squeeze t := by
  have hcolon : [':'] ∈ leads := by simp [leads]
  have harrow : ['-', '>'] ∈ leads := by simp [leads]
  rw [unquoteTypes, squeeze_dropQuotes harrow rfl, squeeze_dropQuotes harrow rfl,
    squeeze_dropQuotes hcolon rfl, squeeze_dropQuotes hcolon rfl]

theorem squeeze_intercalate (sep : List Char) (ts : List (List Char)) :
    squeeze (sep.intercalate ts) = (squeeze sep).intercalate (ts.map squeeze) := by
  induction ts with
  | nil => rfl
  | cons t ts ih =>
    cases ts with
    | nil => simp
    | cons u ts =>
      rw [List.intercalate_cons_cons, squeeze_append, squeeze_append, ih]
      simp only [List.map_cons, List.intercalate_cons_cons]

theorem map_squeeze_strip (ts : List (List Char)) :
    (ts.map strip).map squeeze = ts.map squeeze := by
  rw [List.map_map]
  exact List.map_congr_left fun t _ => squeeze_strip t

theorem squeeze_parenthesize (ps : List (List Char)) :
    squeeze (parenthesize ps) = '(' :: [','].intercalate (ps.map squeeze) ++ [')'] := by
  unfold parenthesize
  split
  · rfl
  · rw [List.cons_append, squeeze_cons rfl, squeeze_append, List.map_singleton,
      List.intercalate_singleton]
    rfl
  · rw [squeeze_append, squeeze_append, squeeze_intercalate, map_squeeze_strip]
    rfl

theorem mem_squeeze (h : isInk c = true) : c ∈ squeeze t ↔ c ∈ t := by
  rw [squeeze, List.mem_filter, and_iff_left h]

theorem parenDepth_squeeze (cs : List Char) : parenDepth (squeeze cs) = parenDepth cs := by
  rw [parenDepth, parenDepth, squeeze, List.count_filter rfl, List.count_filter rfl]

theorem StaysWithin.squeeze {k : Int} (h : StaysWithin k t) : StaysWithin k (squeeze t) := by
  intro front hfront
  obtain ⟨full, hfull, rfl⟩ := List.prefix_filter_iff.mp hfront
  rw [show full.filter isInk = Signature.squeeze full from rfl, parenDepth_squeeze]
  exact h full hfull

theorem ClosesList.squeeze {before after : List Char} (h : ClosesList before after) :
    ClosesList (squeeze before) (squeeze after) := by
  obtain ⟨hwithin, hdepth⟩ | ⟨hwithin, hafter⟩ := h
  · exact .inl ⟨hwithin.squeeze, by rw [parenDepth_squeeze, hdepth]⟩
  · have hsqueeze := hwithin.squeeze
    rw [squeeze_append, squeeze_cons rfl] at hsqueeze
    exact .inr ⟨hsqueeze, (mem_squeeze rfl).not.mpr hafter⟩

end Squeeze

section Formatting

variable {cs t name : List Char}

theorem intercalate_concat_nil (sep : List Char) {ts : List (List Char)} (h : ts ≠ []) :
    sep.intercalate (ts ++ [[]]) = sep.intercalate ts ++ sep := by
  induction ts with
  | nil => exact absurd rfl h
  | cons t ts ih =>
    cases ts with
    | nil => simp [List.intercalate_cons_cons]
    | cons u ts =>
      rw [List.cons_append, List.cons_append, List.intercalate_cons_cons,
        List.intercalate_cons_cons, ← List.cons_append, ih (by simp), List.append_assoc,
        List.append_assoc, List.append_assoc]

/-- Splitting loses a comma at the end and nothing else. -/
theorem squeeze_splitParams (h : cs ≠ []) :
    squeeze cs = [','].intercalate ((splitParams cs).map squeeze) ∨
      squeeze cs = [','].intercalate ((splitParams cs).map squeeze) ++ [','] := by
  obtain ⟨pieces, hjoin, hsplit⟩ : ∃ pieces, [','].intercalate pieces = cs ∧ splitParams cs =
      (if pieces.getLast? = some [] then pieces.dropLast else pieces).map strip :=
    ⟨rawPieces [] cs, intercalate_rawPieces [] cs, trimPieces_eq (rawPieces_ne_nil [] cs)⟩
  rw [hsplit, map_squeeze_strip]
  split
  case isFalse =>
    left
    rw [← hjoin, squeeze_intercalate]
    rfl
  case isTrue hlast =>
    have hconcat := List.dropLast_append_getLast? [] hlast
    have hne : pieces.dropLast ≠ [] := by
      intro hnil
      rw [← hconcat, hnil] at hjoin
      exact h hjoin.symm
    right
    rw [← hjoin, ← hconcat, intercalate_concat_nil _ hne, squeeze_append, squeeze_intercalate,
      List.dropLast_concat]
    rfl

/-- White space and quotes aside, a text is the same signature, or the same without the comma before
the parenthesis that closes the parameter list. -/
def Keeps (sig out : List Char) : Prop :=
  squeeze out = squeeze sig ∨
    ∃ before after, squeeze sig = '(' :: before ++ ',' :: ')' :: after ∧
      ClosesList (before ++ [',']) after ∧ squeeze out = '(' :: before ++ ')' :: after

theorem parenthesize_eq (ps : List (List Char)) : ∃ rest, parenthesize ps = '(' :: rest := by
  unfold parenthesize
  split
  · exact ⟨_, rfl⟩
  · exact ⟨_, rfl⟩
  · exact ⟨_, rfl⟩

theorem breakLines_eq {before after : List Char}
    (h : endOfParams ('(' :: (before ++ ')' :: after)) 0 = .ok (before.length + 1)) :
    breakLines ('(' :: (before ++ ')' :: after)) =
      .ok (parenthesize (if (strip before).isEmpty then [] else splitParams (strip before)) ++
        ' ' :: strip after) := by
  have hinside : (('(' :: (before ++ ')' :: after)).take (before.length + 1)).drop 1 = before := by
    simp
  have hbehind : ('(' :: (before ++ ')' :: after)).drop (before.length + 1 + 1) = after := by
    simp
  rw [breakLines, cutAt?_cons_self]
  simp only [List.length_nil, h, Nat.zero_add]
  change Except.ok _ = _
  rw [hinside, hbehind]

theorem breakLines_keeps (h : ')' ∈ t) :
    ∃ rest, breakLines ('(' :: t) = .ok ('(' :: rest) ∧ Keeps ('(' :: t) ('(' :: rest) := by
  obtain ⟨before, after, rfl, hcloses, hend⟩ := endOfParams_spec h
  -- of all but white space, splitting can only lose a comma before the closing parenthesis
  obtain ⟨ps, hps, hlaid⟩ : ∃ ps, (squeeze before = [','].intercalate (ps.map squeeze) ∨
      squeeze before = [','].intercalate (ps.map squeeze) ++ [',']) ∧
      breakLines ('(' :: (before ++ ')' :: after)) =
        .ok (parenthesize ps ++ ' ' :: strip after) := by
    refine ⟨_, ?_, breakLines_eq hend⟩
    rw [← squeeze_strip before]
    split
    case isTrue hempty =>
      left
      rw [List.isEmpty_iff.mp hempty]
      rfl
    case isFalse hne => exact squeeze_splitParams (by simpa using hne)
  obtain ⟨rest, hrest⟩ := parenthesize_eq ps
  refine ⟨rest ++ ' ' :: strip after, by rw [hlaid, hrest, List.cons_append], ?_⟩
  have hout : squeeze ('(' :: (rest ++ ' ' :: strip after)) =
      '(' :: [','].intercalate (ps.map squeeze) ++ ')' :: squeeze after := by
    rw [← List.cons_append, ← hrest, squeeze_append, squeeze_parenthesize,
      squeeze_cons_of_not (c := ' ') rfl, squeeze_strip, List.append_assoc]
    rfl
  have hsig : squeeze ('(' :: (before ++ ')' :: after)) =
      '(' :: squeeze before ++ ')' :: squeeze after := by
    rw [squeeze_cons rfl, squeeze_append, squeeze_cons rfl]
    rfl
  obtain hps | hps := hps
  · exact .inl (by rw [hout, hsig, hps])
  · refine .inr ⟨_, squeeze after, ?_, hps ▸ hcloses.squeeze, hout⟩
    rw [hsig, hps]
    simp

theorem unquoteTypes_open (t : List Char) : unquoteTypes ('(' :: t) = '(' :: unquoteTypes t := by
  have hcolon (u : List Char) (q : Char) :
      dropQuotes [':'] q ('(' :: u) = '(' :: dropQuotes [':'] q u :=
    dropQuotes_cons_of_ne (by simp) (by decide)
  have harrow (u : List Char) (q : Char) :
      dropQuotes ['-', '>'] q ('(' :: u) = '(' :: dropQuotes ['-', '>'] q u :=
    dropQuotes_cons_of_ne (by simp) (by decide)
  rw [unquoteTypes, hcolon, hcolon, harrow, harrow, unquoteTypes]

theorem format_keeps (h : ')' ∈ t) :
    ∃ rest, format ('(' :: t) = .ok ('(' :: rest) ∧ Keeps ('(' :: t) ('(' :: rest) := by
  have hsame : squeeze ('(' :: unquoteTypes t) = squeeze ('(' :: t) := by
    rw [← unquoteTypes_open, squeeze_unquoteTypes]
  rw [format, unquoteTypes_open]
  split
  · exact ⟨unquoteTypes t, rfl, .inl hsame⟩
  · have hmem : ')' ∈ unquoteTypes t := by
      rwa [← mem_squeeze rfl, squeeze_unquoteTypes, mem_squeeze rfl]
    obtain ⟨rest, hlaid, hkeeps⟩ := breakLines_keeps hmem
    unfold Keeps at hkeeps ⊢
    rw [hsame] at hkeeps
    exact ⟨rest, hlaid, hkeeps⟩

theorem isCallableName_of (hink : ∃ c ∈ name, c ≠ '_' ∧ c ≠ '.')
    (hname : ∀ c ∈ name, c = '_' ∨ c = '.' ∨ isAlphanumeric c = true) :
    isCallableName name = true := by
  obtain ⟨c, hc, hunderscore, hpoint⟩ := hink
  have hmem : c ∈ name.filter fun c => c ≠ '_' && c ≠ '.' := by simp [hc, hunderscore, hpoint]
  rw [isCallableName, isAlphanumericText, Bool.and_eq_true, List.all_eq_true]
  refine ⟨by simpa using List.ne_nil_of_mem hmem, fun x hx => ?_⟩
  obtain ⟨hx, hsigns⟩ := List.mem_filter.mp hx
  have hall := hname x hx
  simp only [ne_eq, decide_not, Bool.and_eq_true, Bool.not_eq_true', decide_eq_false_iff_not]
    at hsigns
  tauto

/-- Laying out a signature, with or without a name before it, succeeds whatever its brackets and
quotes are, and keeps the name and the text. -/
theorem formatNamed_keeps (name sig : List Char)
    (hname : name = [] ∨ (∃ c ∈ name, c ≠ '_' ∧ c ≠ '.') ∧
      ∀ c ∈ name, c = '_' ∨ c = '.' ∨ isAlphanumeric c = true)
    (hopen : sig.head? = some '(') (hclose : ')' ∈ sig) :
    ∃ out, formatNamed (name ++ sig) = .ok (name ++ out) ∧ Keeps sig out := by
  obtain ⟨t, rfl⟩ := List.head?_eq_some_iff.mp hopen
  obtain ⟨rest, hformat, hkeeps⟩ := format_keeps (show ')' ∈ t by simpa using hclose)
  refine ⟨'(' :: rest, ?_, hkeeps⟩
  obtain rfl | ⟨hink, hname⟩ := hname
  · rw [formatNamed, List.nil_append, cutAt?_cons_self]
    exact hformat
  · have hout : '(' ∉ name := by
      intro hmem
      have hparen := hname '(' hmem
      revert hparen
      decide
    have hne : name.isEmpty = false := by
      obtain ⟨c, hc, -⟩ := hink
      simpa using List.ne_nil_of_mem hc
    have hstart : startsWith ['('] ('(' :: rest) = true := startsWith_append ['('] rest
    rw [formatNamed, cutAt?_append hout]
    simp only [hne, isCallableName_of hink hname, List.drop_left, hformat]
    change Except.ok _ = _
    rw [hstart]
    rfl

theorem formatNamed_keeps_nested :
    let name := "pxt.f_1".toList
    let sig := ("(a: 'list[int]', b=[1, (2, 3)], *, c='x, y', " ++
      "d: \"int | None\" = None,) -> 'str'").toList
    ((∃ c ∈ name, c ≠ '_' ∧ c ≠ '.') ∧
      ∀ c ∈ name, c = '_' ∨ c = '.' ∨ isAlphanumeric c = true) ∧
    sig.head? = some '(' ∧ ')' ∈ sig ∧
    (∃ out, formatNamed (name ++ sig) = .ok (name ++ out) ∧ Keeps sig out) ∧
    formatNamed (name ++ sig) = .ok ("pxt.f_1(\n    a: list[int],\n    b=[1, (2, 3)],\n    *,\n" ++
      "    c='x, y',\n    d: int | None = None\n) -> str").toList := by
  intro name sig
  have hall : (name.all fun c => c = '_' || c = '.' || isAlphanumeric c) = true := all_ofList rfl
  have hname : (∃ c ∈ name, c ≠ '_' ∧ c ≠ '.') ∧
      ∀ c ∈ name, c = '_' ∨ c = '.' ∨ isAlphanumeric c = true := by
    refine ⟨⟨'p', by decide +kernel, by decide⟩, fun c hc => ?_⟩
    simpa [or_assoc] using List.all_eq_true.mp hall c hc
  have hsig : sig = _ := toList_append_ofList _ _
  have hopen : sig.head? = some '(' := by rw [hsig]; rfl
  have hclose : ')' ∈ sig := by rw [hsig]; decide +kernel
  refine ⟨hname, hopen, hclose, formatNamed_keeps name sig (.inr hname) hopen hclose, ?_⟩
  rw [hsig, show name = _ from String.toList_ofList, toList_append_ofList]
  decide +kernel

end Formatting

end DocSite.Signature
