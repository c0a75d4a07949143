import DocSite.Pattern.Reader
import DocSite.Proofs.Text

/-!
Patterns that are written with characters of their own: how a group of such characters between
parentheses is read, where the pattern read then matches, and what a substitution by a pattern does
match by match.
-/

namespace DocSite.Pattern

section Reading

variable {c : Char} {cs : List Char} {s : Scan} {ms : List Mark} {found : List Item} {fuel : Nat}

/-- A character that stands for one character or for a place wherever it is written. -/
def isSimple (c : Char) : Bool :=
  !(['\\', '*', '+', '?', '\x7b', '[', '(', ')', '|'].contains c)

/-- What such a character stands for. -/
def simpleItem (c : Char) : Item :=
  if c = '.' then .any
  else if c = '^' then .anchor .start
  else if c = '$' then .anchor .finish
  else .literal c.toNat

theorem isSimple_iff : isSimple c = true ↔ c ≠ '\\' ∧ c ≠ '*' ∧ c ≠ '+' ∧ c ≠ '?' ∧ c ≠ '\x7b' ∧
    c ≠ '[' ∧ c ≠ '(' ∧ c ≠ ')' ∧ c ≠ '|' := by
  simp [isSimple]

theorem marks_append (h : '\\' ∉ cs) (rest : List Char) :
    marks (cs ++ rest) = cs.map .plain ++ marks rest := by
  induction cs with
  | nil => rfl
  | cons c cs ih =>
    obtain ⟨hc, hcs⟩ : '\\' ≠ c ∧ '\\' ∉ cs := by simpa using h
    rw [List.cons_append, marks, ih hcs]
    · rfl
    · intro d ds heq _
      exact hc heq.symm

theorem repeatBounds?_simple (h : isSimple c = true) :
    repeatBounds? c = (return none : Scanner (Option (Nat × Option Nat))) := by
  obtain ⟨-, hstar, hplus, hquestion, hbrace, -⟩ := isSimple_iff.mp h
  unfold repeatBounds?
  split
  · exact absurd rfl hquestion
  · exact absurd rfl hstar
  · exact absurd rfl hplus
  · exact absurd rfl hbrace
  · rfl

theorem readSimple_simple (h : isSimple c = true) :
    readSimple c = (return simpleItem c : Scanner Item) := by
  obtain ⟨-, -, -, -, -, hbracket, -⟩ := isSimple_iff.mp h
  unfold readSimple simpleItem
  split
  · exact absurd rfl hbracket
  · rfl
  · rfl
  · rfl
  · rename_i hdot hstart hfinish
    rw [if_neg hdot, if_neg hstart, if_neg hfinish]

theorem Scanner.bind_of_ok {α β : Type} {x : Scanner α} {f : α → Scanner β} {a : α} {t : Scan}
    (h : x.run s = .ok (a, t)) : (x >>= f).run s = (f a).run t := by
  rw [StateT.run_bind, h]
  rfl

theorem readItems_cons (h : isSimple c = true) (hs : s.rest = .plain c :: ms) :
    (readItems (fuel + 1) false found).run s =
      (readItems fuel false (simpleItem c :: found)).run { s with rest := ms } := by
  obtain ⟨-, -, -, -, -, -, hopen, hclose, hbar⟩ := isSimple_iff.mp h
  have hnext : Scanner.next?.run s = .ok (some (.plain c), s) := by
    rw [← List.head?_cons, ← hs]
    rfl
  have htake : Scanner.take?.run s = .ok (some (.plain c), { s with rest := ms }) := by
    obtain ⟨⟩ := s
    cases hs
    rfl
  rw [readItems, Scanner.bind_of_ok hnext]
  split
  · rename_i heq
    cases heq
  · rename_i heq
    cases heq
    exact absurd rfl hbar
  · rename_i heq
    cases heq
    exact absurd rfl hclose
  · rename_i heq
    cases heq
  · rename_i heq
    cases heq
    rw [Scanner.bind_of_ok rfl, Scanner.bind_of_ok htake]
    simp only [Bool.false_eq_true, if_false, pure_bind, if_neg hopen, repeatBounds?_simple h,
      readSimple_simple h]

theorem readItems_append (h : ∀ c ∈ cs, isSimple c = true)
    (hs : s.rest = cs.map .plain ++ ms) : (readItems (cs.length + fuel) false found).run s =
      (readItems fuel false ((cs.map simpleItem).reverse ++ found)).run { s with rest := ms } := by
  induction cs generalizing found s with
  | nil =>
    obtain ⟨⟩ := s
    cases hs
    simp
  | cons c cs ih =>
    obtain ⟨hc, hcs⟩ := List.forall_mem_cons.mp h
    rw [List.length_cons, Nat.succ_add_eq_add_succ, Nat.add_succ, readItems_cons hc hs, ih hcs rfl]
    simp

theorem Scanner.accept_of_ne (h : s.rest.head? ≠ some (.plain c)) :
    (Scanner.accept c).run s = .ok (false, s) := by
  rw [Scanner.accept, Scanner.bind_of_ok rfl, if_neg h]
  rfl

/-- How `[^)]*)` is written. -/
def othersMarks : List Mark := ['[', '^', ')', ']', '*', ')'].map .plain

/-- A group as it is read: simple characters, then anything up to the next closing parenthesis. -/
def groupItems (cs : List Char) : List Item :=
  cs.map simpleItem ++ [.repeats .greedy 0 none [.set true [.code 41]]]

theorem readItems_group (fuel : Nat) (h : ∀ c ∈ cs, isSimple c = true)
    (hs : s.rest = cs.map .plain ++ (othersMarks ++ ms)) :
    (readItems (cs.length + (fuel + 3)) false []).run s =
      .ok (groupItems cs, { s with rest := .plain ')' :: ms }) := by
  rw [readItems_append h hs, List.append_nil]
  have hothers : (readItems (fuel + 3) false (cs.map simpleItem).reverse).run
      { s with rest := othersMarks ++ ms } =
    .ok ((.repeats .greedy 0 none [.set true [.code 41]] :: (cs.map simpleItem).reverse).reverse,
      { s with rest := .plain ')' :: ms }) := rfl
  rw [hothers, List.reverse_cons, List.reverse_reverse, groupItems]

theorem readParenthesis_group (fuel : Nat) (h : ∀ c ∈ cs, isSimple c = true) (opened : Nat)
    (hs : s.rest = cs.map .plain ++ (othersMarks ++ ms)) :
    (readParenthesis (cs.length + (fuel + 3) + 2) false opened (.capturing none)).run s =
      .ok (some (.group (some s.count) [] [] (groupItems cs)),
        { s with
          rest := ms
          widths := (s.widths ++ [none]).set s.count (some (itemsWidth (groupItems cs))) }) := by
  have hitems := readItems_group (s := { s with widths := s.widths ++ [none] }) fuel h hs
  rw [readParenthesis, Scanner.bind_of_ok rfl, readBranches, bind_assoc, Scanner.bind_of_ok hitems]
  rfl

theorem readOpening_group (h : ∀ c ∈ cs, isSimple c = true) (opened : Nat)
    (hs : s.rest = cs.map .plain ++ (othersMarks ++ ms)) :
    (readOpening opened).run s = .ok (.capturing none, s) := by
  have hhead : s.rest.head? ≠ some (.plain '?') := by
    rw [hs]
    cases cs with
    | nil => simp [othersMarks]
    | cons c cs => simpa using (isSimple_iff.mp (h c (by simp))).2.2.2.1
  rw [readOpening, Scanner.bind_of_ok (Scanner.accept_of_ne hhead)]
  rfl

/-- How a link is written: a parenthesis, a group that begins with some characters and goes on up to
the next closing parenthesis, and that parenthesis. -/
def linkText (cs : List Char) : List Char := "\\((".toList ++ cs ++ "[^)]*)\\)".toList

def linkItems (cs : List Char) : List Item :=
  [.literal 40, .group (some 1) [] [] (groupItems cs), .literal 41]

theorem marks_linkText (h : ∀ c ∈ cs, isSimple c = true) :
    marks (linkText cs) =
      .escaped '(' :: .plain '(' :: (cs.map .plain ++ (othersMarks ++ [.escaped ')'])) := by
  have hplain : '\\' ∉ cs := fun hmem => absurd rfl (isSimple_iff.mp (h _ hmem)).1
  have htail : marks "[^)]*)\\)".toList = othersMarks ++ [.escaped ')'] := rfl
  rw [← htail, ← marks_append hplain]
  rfl

theorem readItems_open (fuel : Nat) (h : ∀ c ∈ cs, isSimple c = true)
    (hs : s.rest = .plain '(' :: (cs.map .plain ++ (othersMarks ++ ms))) :
    (readItems (cs.length + (fuel + 3) + 3) false found).run s =
      (readItems (cs.length + (fuel + 3) + 2) false
        (.group (some s.count) [] [] (groupItems cs) :: found)).run
        { s with
          rest := ms
          widths := (s.widths ++ [none]).set s.count (some (itemsWidth (groupItems cs))) } := by
  obtain ⟨text, rest, names, widths, behind, asked⟩ := s
  cases hs
  change (do
    let opened ← Scanner.offset
    let _ ← Scanner.take?
    let opening ← readOpening opened
    let item? ← readParenthesis (cs.length + (fuel + 3) + 2) false opened opening
    readItems (cs.length + (fuel + 3) + 2) false (item?.toList ++ found)).run _ = _
  rw [Scanner.bind_of_ok rfl, Scanner.bind_of_ok rfl,
    Scanner.bind_of_ok (readOpening_group h _ rfl),
    Scanner.bind_of_ok (readParenthesis_group fuel h _ rfl)]
  rfl

theorem readAll_linkText (h : ∀ c ∈ cs, isSimple c = true) :
    ∃ s, readAll.run (.start (linkText cs)) = .ok (linkItems cs, s) ∧ s.count = 2 := by
  have hfuel : 3 * (Scan.start (linkText cs)).rest.length + 3 =
      cs.length + (2 * cs.length + 22 + 3) + 4 + 1 := by
    rw [Scan.start, marks_linkText h]
    simp [othersMarks]
    omega
  let s : Scan := ⟨linkText cs, .plain '(' :: (cs.map .plain ++ (othersMarks ++ [.escaped ')'])),
    [], [none], none, []⟩
  let t : Scan := ⟨linkText cs, [], [], [none, some (itemsWidth (groupItems cs))], none, []⟩
  have hitems : (readItems (cs.length + (2 * cs.length + 22 + 3) + 4) false []).run
      { s with rest := .escaped '(' :: s.rest } = .ok (linkItems cs, t) := by
    change (readItems (cs.length + (2 * cs.length + 22 + 3) + 3) false [.literal 40]).run s = _
    rw [readItems_open (2 * cs.length + 22) h rfl]
    rfl
  refine ⟨t, ?_, rfl⟩
  unfold readAll
  rw [Scanner.bind_of_ok rfl, hfuel, readBranches, Scan.start, marks_linkText h, bind_assoc,
    Scanner.bind_of_ok hitems]
  rfl

end Reading

section Building

variable {c : Char} {cs : List Char}

/-- The pattern that a simple character stands for. -/
def simplePattern (c : Char) : Pattern :=
  if c = '.' then .one (· ≠ '\n')
  else if c = '^' then textStart
  else if c = '$' then lastEnd
  else this c

def others : Pattern := .span .greedy 0 none (· ≠ ')')

def groupPattern (cs : List Char) : Pattern :=
  cs.foldr (fun c p => .seq (simplePattern c) p) others

def linkPattern (cs : List Char) : Pattern :=
  .seq (this '(') (.seq (.group 1 (groupPattern cs)) (this ')'))

/-- A set of one character, or the set of all others. -/
theorem build_set (negated : Bool) (c : Char) : (Item.set negated [.code c.toNat]).build .none =
    .ok (.one fun d => decide (d = c) != negated) := by
  have hholds (d : Char) :
      Member.holds .none (Flags.none.fold d.toNat) (.code c.toNat) = decide (d = c) := by
    change (c.toNat == d.toNat) = _
    rw [Bool.eq_iff_iff, beq_iff_eq, decide_eq_true_iff, Char.toNat_inj, eq_comm]
  simp only [Item.build, List.any_cons, List.any_nil, Bool.or_false, hholds]

theorem build_literal (c : Char) : (Item.literal c.toNat).build .none = .ok (this c) := by
  rw [Item.literal, build_set]
  simp only [Bool.bne_false, this]

theorem build_others :
    (Item.repeats .greedy 0 none [.set true [.code 41]]).build .none = .ok others := by
  have hset : (Item.set true [.code 41]).build .none = .ok (.one (· ≠ ')')) := by
    refine (build_set true ')').trans ?_
    simp only [Bool.bne_true, ne_eq, decide_not]
  rw [Item.build, buildAll, hset]
  rfl

theorem build_simpleItem (c : Char) : (simpleItem c).build .none = .ok (simplePattern c) := by
  unfold simpleItem simplePattern
  split
  · rfl
  · split
    · rfl
    · split
      · rfl
      · exact build_literal c

theorem buildAll_groupItems (cs : List Char) :
    buildAll .none (groupItems cs) = .ok (groupPattern cs) := by
  induction cs with
  | nil => exact build_others
  | cons c cs ih =>
    have hne : groupItems cs ≠ [] := by simp [groupItems]
    change buildAll .none (simpleItem c :: groupItems cs) = _
    rw [buildAll, build_simpleItem, ih]
    · rfl
    · exact fun heq => hne heq

theorem read_linkText (h : ∀ c ∈ cs, isSimple c = true) :
    Pattern.read (linkText cs) = .ok ⟨linkPattern cs, 1⟩ := by
  obtain ⟨s, hread, hcount⟩ := readAll_linkText h
  have hgroup : (Item.group (some 1) [] [] (groupItems cs)).build .none =
      .ok (.group 1 (groupPattern cs)) := by
    rw [Item.build, Flags.change, List.foldl_nil, List.foldl_nil, buildAll_groupItems]
    rfl
  have hbuild : buildAll .none (linkItems cs) = .ok (linkPattern cs) := by
    have hopen : (Item.literal 40).build .none = .ok (this '(') := build_literal '('
    have hclose : buildAll .none [.literal 41] = .ok (this ')') := build_literal ')'
    rw [linkItems, buildAll, buildAll, hopen, hgroup, hclose]
    · rfl
    · simp
    · simp
  unfold Pattern.read
  rw [hread]
  change (do return (⟨← buildAll .none (linkItems cs), s.count - 1⟩ : Written)) = _
  rw [hbuild, hcount]
  rfl

end Building

section Running

variable {c : Char} {cs : List Char} {go : Cursor → Option Cursor} {s : Cursor}

/-- Goes over a number of characters. -/
def Cursor.pass (n : Nat) (s : Cursor) : Cursor :=
  { s with
    before := (s.after.take n).reverse ++ s.before
    offset := s.offset + n
    after := s.after.drop n }

theorem Cursor.pass_zero (s : Cursor) : s.pass 0 = s := by
  simp [pass]

theorem Cursor.pass_step (h : s.after = c :: cs) (n : Nat) :
    (s.step c cs).pass n = s.pass (n + 1) := by
  simp [pass, step, h, Nat.add_comm 1 n, Nat.add_assoc]

theorem run_this_eq_none (h : s.after.head? ≠ some c) : (this c).run go s = none := by
  unfold this run
  split
  · rename_i d ds hafter
    rw [if_neg]
    rw [hafter] at h
    simpa using h
  · rfl

theorem run_this (h : s.after = c :: cs) : (this c).run go s = go (s.step c cs) := by
  unfold this run
  rw [h]
  simp

/-- Whether a simple character, with others behind it, stands for a character. -/
def stands (p c : Char) : Bool := if p = '.' then c ≠ '\n' else p ≠ '^' && p ≠ '$' && p = c

/-- Whether simple characters stand for those of a text, one by one. -/
def covers : List Char → List Char → Bool
  | [], [] => true
  | p :: ps, c :: cs => stands p c && covers ps cs
  | _, _ => false

/-- A place with nothing or a last newline after it. -/
def Cursor.isLast (s : Cursor) : Prop := s.after = [] ∨ s.after = ['\n']

/-- A simple character is passed over, or it is a place. -/
theorem run_simplePattern_cases (p : Char) (go : Cursor → Option Cursor) (s : Cursor) :
    (simplePattern p).run go s = none ∨ (simplePattern p).run go s = go s ∨
      ∃ c cs, s.after = c :: cs ∧ (simplePattern p).run go s = go (s.step c cs) := by
  have hone (test : Char → Bool) : (Pattern.one test).run go s = none ∨
      ∃ c cs, s.after = c :: cs ∧ (Pattern.one test).run go s = go (s.step c cs) := by
    unfold run
    split
    · rename_i c cs hafter
      split
      · exact .inr ⟨c, cs, hafter, rfl⟩
      · exact .inl rfl
    · exact .inl rfl
  have hplace (test : Option Char → List Char → Bool) :
      (Pattern.place test).run go s = none ∨ (Pattern.place test).run go s = go s := by
    unfold run
    split
    · exact .inr rfl
    · exact .inl rfl
  unfold simplePattern
  split
  · exact (hone _).imp_right .inr
  · split
    · exact (hplace _).imp_right .inl
    · split
      · exact (hplace _).imp_right .inl
      · exact (hone _).imp_right .inr

theorem run_groupPattern_last (hothers : ∀ t : Cursor, t.isLast → others.run go t = none)
    (hs : s.isLast) : (groupPattern cs).run go s = none := by
  induction cs generalizing s with
  | nil => exact hothers s hs
  | cons p ps ih =>
    change (simplePattern p).run ((groupPattern ps).run go) s = none
    obtain h | h | ⟨c, cs, hafter, h⟩ := run_simplePattern_cases p ((groupPattern ps).run go) s
    · exact h
    · rw [h, ih hs]
    · rw [h]
      apply ih
      rcases hs with hs | hs
      · cases hafter.symm.trans hs
      · cases hafter.symm.trans hs
        exact .inl rfl

/-- Behind another character and before others, the places of a simple pattern are nowhere. -/
theorem run_simplePattern (p : Char) (hbefore : s.before ≠ []) (hlast : s.isLast → go s = none) :
    (simplePattern p).run go s =
      match s.after with
      | c :: cs => if stands p c then go (s.step c cs) else none
      | [] => none := by
  have hone (test : Char → Bool) : (Pattern.one test).run go s =
      match s.after with
      | c :: cs => if test c then go (s.step c cs) else none
      | [] => none := by
    unfold run
    cases s.after <;> rfl
  have hnowhere (hrun : (simplePattern p).run go s = none) (hstands : ∀ c, stands p c = false) :
      (simplePattern p).run go s =
        match s.after with
        | c :: cs => if stands p c then go (s.step c cs) else none
        | [] => none := by
    rw [hrun]
    cases s.after <;> simp [hstands]
  by_cases hstart : p = '^'
  · subst hstart
    refine hnowhere ?_ fun _ => rfl
    change (if s.before.head?.isNone then go s else none) = none
    rw [if_neg (by simpa using hbefore)]
  by_cases hfinish : p = '$'
  · subst hfinish
    refine hnowhere ?_ fun _ => rfl
    change (if s.after.isEmpty || s.after = ['\n'] then go s else none) = none
    split
    · rename_i hend
      exact hlast (by simpa [Cursor.isLast] using hend)
    · rfl
  by_cases hdot : p = '.'
  · subst hdot
    exact hone _
  · have hstands (c : Char) : stands p c = decide (c = p) := by
      simp [stands, hdot, hstart, hfinish, eq_comm]
    rw [simplePattern, if_neg hdot, if_neg hstart, if_neg hfinish, this, hone]
    simp only [hstands]

theorem run_groupPattern (hothers : ∀ t : Cursor, t.isLast → others.run go t = none)
    (hs : s.before ≠ []) :
    (groupPattern cs).run go s =
      if covers cs (s.after.take cs.length) then others.run go (s.pass cs.length) else none := by
  induction cs generalizing s with
  | nil => simp [covers, Cursor.pass_zero, groupPattern]
  | cons p ps ih =>
    change (simplePattern p).run ((groupPattern ps).run go) s = _
    rw [run_simplePattern p hs (run_groupPattern_last hothers)]
    cases hafter : s.after with
    | nil => simp [covers]
    | cons c cs =>
      have hstep : (s.step c cs).before ≠ [] := by simp [Cursor.step]
      have hcovers : covers (p :: ps) ((c :: cs).take (p :: ps).length) =
          (stands p c && covers ps (cs.take ps.length)) := rfl
      dsimp only
      rw [ih hstep, Cursor.pass_step hafter, hcovers]
      cases stands p c <;> rfl

theorem findSome?_cons_none {found : List Cursor} (hfound : ∀ t ∈ found, go t = none) :
    (s :: found).findSome? go = go s := by
  rw [List.findSome?_cons, List.findSome?_eq_none_iff.mpr hfound]
  cases go s <;> rfl

theorem findSome?_reach (hgo : ∀ t : Cursor, t.after.head? ≠ some ')' → go t = none)
    {limit : Nat} {found : List Cursor} (hlimit : s.after.length ≤ limit)
    (hfound : ∀ t ∈ found, go t = none) :
    (s.reach (· ≠ ')') limit found).findSome? go =
      go (s.pass (s.after.takeWhile (· ≠ ')')).length) := by
  induction limit generalizing s found with
  | zero =>
    have hnil : s.after = [] := List.eq_nil_of_length_eq_zero (Nat.le_zero.mp hlimit)
    simpa [Cursor.reach, hnil, Cursor.pass_zero] using findSome?_cons_none hfound
  | succ limit ih =>
    unfold Cursor.reach
    cases hafter : s.after with
    | nil => simpa [Cursor.pass_zero] using findSome?_cons_none hfound
    | cons c cs =>
      by_cases hc : c = ')'
      · simpa [hc, Cursor.pass_zero] using findSome?_cons_none hfound
      · have hs : go s = none := hgo s (by simpa [hafter] using hc)
        have hlength : (s.step c cs).after.length ≤ limit := by
          rw [hafter, List.length_cons] at hlimit
          exact Nat.le_of_succ_le_succ hlimit
        simp only [hc, ne_eq, not_false_eq_true, decide_true, if_true]
        rw [ih hlength (List.forall_mem_cons.mpr ⟨hs, hfound⟩), Cursor.pass_step hafter]
        simp [Cursor.step, hc]

theorem le_offset_reach {test : Char → Bool} {limit n : Nat} {found : List Cursor} {t : Cursor}
    (hs : n ≤ s.offset) (hfound : ∀ t ∈ found, n ≤ t.offset) (ht : t ∈ s.reach test limit found) :
    n ≤ t.offset := by
  have hhere : ∀ t ∈ s :: found, n ≤ t.offset := List.forall_mem_cons.mpr ⟨hs, hfound⟩
  induction limit generalizing s found with
  | zero => exact hhere t ht
  | succ limit ih =>
    unfold Cursor.reach at ht
    split at ht
    · rename_i c cs hafter
      split at ht
      · have hstep : n ≤ (s.step c cs).offset := Nat.le_succ_of_le hs
        exact ih hstep hhere ht (List.forall_mem_cons.mpr ⟨hstep, hhere⟩)
      · exact hhere t ht
    · exact hhere t ht

theorem run_others (hgo : ∀ t : Cursor, t.after.head? ≠ some ')' → go t = none) :
    others.run go s = go (s.pass (s.after.takeWhile (· ≠ ')')).length) := by
  have hall : (s.reach (· ≠ ')') s.after.length []).filter (fun t => s.offset + 0 ≤ t.offset) =
      s.reach (· ≠ ')') s.after.length [] :=
    List.filter_eq_self.mpr fun t ht => by simpa using le_offset_reach (Nat.le_refl _) (by simp) ht
  rw [← findSome?_reach hgo (Nat.le_refl _) (List.forall_mem_nil _), ← hall]
  rfl

/-- What a group goes on with: it is closed, and a parenthesis follows. -/
def closing (s t : Cursor) : Option Cursor :=
  (this ')').run some
    { t with closed := (1, t.offset, (t.before.take (t.offset - s.offset)).reverse) :: t.closed }

theorem closing_eq_none {t : Cursor} (h : t.after.head? ≠ some ')') : closing s t = none :=
  run_this_eq_none h

theorem run_others_last {t : Cursor} (ht : t.isLast) : others.run (closing s) t = none := by
  rw [run_others fun _ => closing_eq_none]
  apply closing_eq_none
  rcases ht with ht | ht <;> simp [Cursor.pass, ht]

theorem Cursor.pass_pass (m n : Nat) (s : Cursor) : (s.pass m).pass n = s.pass (m + n) := by
  simp [pass, List.take_add, Nat.add_assoc]

theorem run_linkPattern {rest : List Char} (hs : s.after = '(' :: rest) :
    (linkPattern cs).run some s =
      if covers cs (rest.take cs.length) then
        let t : Cursor := { s.step '(' rest with opened := (1, s.offset + 1) :: s.opened }
        closing t (t.pass (cs.length + ((rest.drop cs.length).takeWhile (· ≠ ')')).length))
      else none := by
  let t : Cursor := { s.step '(' rest with opened := (1, s.offset + 1) :: s.opened }
  have hbefore : t.before ≠ [] := by simp [t, Cursor.step]
  calc (linkPattern cs).run some s
      = (groupPattern cs).run (closing t) t := run_this hs
    _ = _ := by
      rw [run_groupPattern (fun _ => run_others_last) hbefore, run_others fun _ => closing_eq_none,
        Cursor.pass_pass]
      rfl

theorem length_of_covers {name : List Char} (h : covers cs name = true) :
    name.length = cs.length := by
  induction cs generalizing name with
  | nil =>
    cases name with
    | nil => rfl
    | cons => cases h
  | cons p ps ih =>
    cases name with
    | nil => cases h
    | cons c name =>
      rw [covers, Bool.and_eq_true] at h
      rw [List.length_cons, List.length_cons, ih h.2]

theorem closing_pass {taken rest : List Char} (hs : s.after = taken ++ ')' :: rest) :
    ∃ before, closing s (s.pass taken.length) = some
      ⟨before, s.offset + taken.length + 1, rest, s.opened,
        (1, s.offset + taken.length, taken) :: s.closed⟩ := by
  have hafter : (s.pass taken.length).after = ')' :: rest := by simp [Cursor.pass, hs]
  have htaken : ((s.pass taken.length).before.take
      ((s.pass taken.length).offset - s.offset)).reverse = taken := by
    simp [Cursor.pass, hs]
  refine ⟨')' :: (s.pass taken.length).before, ?_⟩
  rw [closing, htaken]
  exact run_this hafter

/-- A link is found with what it leads to. -/
theorem run_linkPattern_of_covers {name more rest : List Char} (hname : covers cs name = true)
    (hmore : ')' ∉ more) (hs : s.after = '(' :: (name ++ (more ++ ')' :: rest))) :
    ∃ t, (linkPattern cs).run some s = some t ∧
      t.offset = s.offset + ((name ++ more).length + 2) ∧ t.group? 1 = some (name ++ more) := by
  let opened : Cursor :=
    { s.step '(' (name ++ (more ++ ')' :: rest)) with opened := (1, s.offset + 1) :: s.opened }
  have hafter : opened.after = (name ++ more) ++ ')' :: rest := by
    rw [List.append_assoc]
    rfl
  obtain ⟨before, hclosing⟩ := closing_pass hafter
  rw [run_linkPattern hs, ← length_of_covers hname, List.take_left, List.drop_left, if_pos hname,
    Text.takeWhile_append_stop hmore, ← List.length_append]
  refine ⟨_, hclosing, ?_, ?_⟩
  · change s.offset + 1 + (name ++ more).length + 1 = _
    omega
  · have hle : s.offset + 1 ≤ opened.offset + (name ++ more).length := Nat.le_add_right _ _
    change (if s.offset + 1 ≤ opened.offset + (name ++ more).length then some (name ++ more)
      else none) = _
    rw [if_pos hle]

/-- Nothing but a link is found. -/
theorem exists_of_run_linkPattern {t : Cursor} (h : (linkPattern cs).run some s = some t) :
    ∃ name more rest, covers cs name = true ∧ ')' ∉ more ∧
      s.after = '(' :: (name ++ (more ++ ')' :: rest)) ∧
      t.offset = s.offset + ((name ++ more).length + 2) ∧ t.group? 1 = some (name ++ more) := by
  by_cases hopen : s.after.head? = some '('
  · obtain ⟨rest, hs⟩ := List.head?_eq_some_iff.mp hopen
    have hfound := h
    rw [run_linkPattern hs] at hfound
    split at hfound
    · rename_i hcovers
      have hdrop : rest.drop (cs.length + ((rest.drop cs.length).takeWhile (· ≠ ')')).length) =
          (rest.drop cs.length).dropWhile (· ≠ ')') := by
        rw [← List.drop_drop, Text.drop_takeWhile]
      -- all up to a closing parenthesis is taken, so there must be one
      have hnext : ((rest.drop cs.length).dropWhile (· ≠ ')')).head? = some ')' := by
        apply Classical.byContradiction
        intro hne
        rw [← hdrop] at hne
        cases (closing_eq_none hne).symm.trans hfound
      obtain ⟨tail, htail⟩ := List.head?_eq_some_iff.mp hnext
      have hmore : ')' ∉ (rest.drop cs.length).takeWhile (· ≠ ')') := by
        intro hmem
        simpa using List.all_eq_true.mp List.all_takeWhile _ hmem
      have hafter : s.after = '(' ::
          (rest.take cs.length ++ ((rest.drop cs.length).takeWhile (· ≠ ')') ++ ')' :: tail)) := by
        rw [hs, ← htail, List.takeWhile_append_dropWhile, List.take_append_drop]
      obtain ⟨t', hrun, hoffset, hgroup⟩ := run_linkPattern_of_covers hcovers hmore hafter
      cases hrun.symm.trans h
      exact ⟨_, _, tail, hcovers, hmore, hafter, hoffset, hgroup⟩
    · cases hfound
  · cases (run_this_eq_none hopen).symm.trans h

end Running

section Substituting

variable {p : Pattern} {write : Cursor → List Char}

theorem substituteFrom_length (p : Pattern) (write : Cursor → List Char) (as cs before : List Char)
    (offset : Nat) :
    ∃ before', p.substituteFrom write as.length (as ++ cs) before offset =
      p.substituteFrom write 0 cs before' (offset + as.length) := by
  induction as generalizing before offset with
  | nil => exact ⟨before, rfl⟩
  | cons a as ih =>
    obtain ⟨before', h⟩ := ih (a :: before) (offset + 1)
    refine ⟨before', ?_⟩
    rw [List.length_cons, List.cons_append, substituteFrom, h, Nat.add_assoc, Nat.add_comm 1]

/-- What holds of a text and its substitution, character by character and match by match, if every
match takes something. -/
theorem substitute_induction {motive : List Char → List Char → Prop}
    (htakes : ∀ s t, p.run some s = some t →
      s.offset < t.offset ∧ t.offset ≤ s.offset + s.after.length)
    (nil : motive [] [])
    (keep : ∀ before offset c cs out, p.run some ⟨before, offset, c :: cs, [], []⟩ = none →
      motive cs out → motive (c :: cs) (c :: out))
    (hit : ∀ before offset as cs t out, as ≠ [] →
      p.run some ⟨before, offset, as ++ cs, [], []⟩ = some t → t.offset = offset + as.length →
      motive cs out → motive (as ++ cs) (write t ++ out)) (cs : List Char) :
    motive cs (p.substitute write cs) := by
  have hfrom (n : Nat) (cs before : List Char) (offset : Nat) (hn : cs.length = n) :
      motive cs (p.substituteFrom write 0 cs before offset) := by
    -- what a match leaves is shorter, but not by one character
    induction n using Nat.strongRecOn generalizing cs before offset with
    | ind n ih =>
      cases cs with
      | nil =>
        have hnone : p.run some ⟨before, offset, [], [], []⟩ = none := by
          cases hrun : p.run some ⟨before, offset, [], [], []⟩ with
          | none => rfl
          | some t =>
            obtain ⟨hlt, hle⟩ := htakes _ _ hrun
            exact absurd (Nat.lt_of_lt_of_le hlt hle) (Nat.lt_irrefl _)
        rw [substituteFrom, hnone]
        exact nil
      | cons c cs =>
        rw [substituteFrom]
        cases hrun : p.run some ⟨before, offset, c :: cs, [], []⟩ with
        | none => exact keep _ _ _ _ _ hrun (ih _ (by simp [← hn]) _ _ _ rfl)
        | some t =>
          obtain ⟨hlt, hle⟩ := htakes _ _ hrun
          have hidle : (some t).filter (fun t => t.offset = offset) = none := by
            simpa using Nat.ne_of_gt hlt
          simp only [hidle, Option.isSome_none, Bool.false_eq_true, if_false, Option.map_none,
            Option.getD_none, List.nil_append]
          obtain ⟨m, hm⟩ : ∃ m, t.offset = offset + (m + 1) :=
            ⟨t.offset - offset - 1, by simp only at hlt; omega⟩
          have hlength : (cs.take m).length = m :=
            List.length_take_of_le (by simp only [List.length_cons] at hle; omega)
          obtain ⟨before', hskip⟩ :=
            substituteFrom_length p write (cs.take m) (cs.drop m) (c :: before) (offset + 1)
          rw [List.take_append_drop, hlength] at hskip
          have hpassed : t.offset - offset - 1 = m := by omega
          rw [hpassed, hskip]
          have hcs : c :: cs = (c :: cs.take m) ++ cs.drop m := by simp
          rw [hcs] at hrun ⊢
          refine hit _ _ _ _ _ _ (by simp) hrun (by simp [hlength, hm]) ?_
          exact ih _ (by rw [← hn, List.length_drop, List.length_cons]; omega) _ _ _ rfl
  exact hfrom cs.length cs [] 0 rfl

end Substituting

end DocSite.Pattern
