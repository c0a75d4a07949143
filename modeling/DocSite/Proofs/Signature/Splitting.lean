import DocSite.Signature.Params
import DocSite.Proofs.Text
import Mathlib.Data.List.Induction

/-!
Where a parameter list is cut. A text is read from left to right as characters outside strings and
whole string literals; a parting comma is one before which this reading ends at depth zero. A scan
that looks back in the piece it collects, and not in the text, finds the same commas.
-/

namespace DocSite.Signature

open Text

/-- What a character outside strings adds to the depth. -/
def weight (c : Char) : Int := if isOpening c then 1 else if isClosing c then -1 else 0

/-- The inside of a string that is still open: its quote stands in it after backslashes only. -/
def StaysOpen (q : Char) (body : List Char) : Prop :=
  ∀ u v, body = u ++ q :: v → u.getLast? = some '\\'

/-- A quote and what may stand between two of it as one string literal. -/
structure IsLiteral (q : Char) (body : List Char) : Prop where
  quote : isQuote q = true
  stays : StaysOpen q body
  ends : body.getLast? ≠ some '\\'

/-- The texts at whose end one is outside strings, with the depth reached there. -/
inductive ReadsTo : List Char → Int → Prop
  | nil : ReadsTo [] 0
  | plain {p d c} : ReadsTo p d → isQuote c = false → ReadsTo (p ++ [c]) (d + weight c)
  | literal {p d q body} : ReadsTo p d → IsLiteral q body → ReadsTo (p ++ (q :: body ++ [q])) d

section Reading

variable {p body : List Char} {q c : Char}

theorem isQuote_ne {c : Char} (h : isQuote q = true) (hc : isQuote c = false) : q ≠ c := by
  rintro rfl
  rw [h] at hc
  cases hc

theorem isBlank_of_isQuote (h : isQuote q = true) : isBlank q = false := by
  obtain rfl | rfl : q = '\x22' ∨ q = '\x27' := by simpa [isQuote] using h
  · rfl
  · rfl

theorem staysOpen_nil : StaysOpen q [] := by
  intro u v h
  simp at h

theorem staysOpen_concat : StaysOpen q (body ++ [c]) ↔
    StaysOpen q body ∧ (c = q → body.getLast? = some '\\') := by
  constructor
  · intro h
    refine ⟨fun u v hbody => h u (v ++ [c]) (by simp [hbody]), ?_⟩
    rintro rfl
    exact h body [] rfl
  · rintro ⟨hbody, hc⟩ u v huv
    cases v using List.reverseRecOn with
    | nil =>
      obtain ⟨rfl, hcq⟩ := List.append_inj' huv rfl
      exact hc (List.cons.inj hcq).1
    | append_singleton v x =>
      rw [← List.cons_append, ← List.append_assoc] at huv
      exact hbody u v (List.append_inj' huv rfl).1

/-- The character before the end of an open string is a backslash only if it is in the string. -/
theorem getLast?_open (h : isQuote q = true) :
    (p ++ q :: body).getLast? = some '\\' ↔ body.getLast? = some '\\' := by
  cases body using List.reverseRecOn with
  | nil => simpa using isQuote_ne (c := '\\') h rfl
  | append_singleton body c =>
    have happend : p ++ q :: (body ++ [c]) = p ++ q :: body ++ [c] := by simp
    rw [happend, List.getLast?_concat, List.getLast?_concat]

end Reading

section Scan

variable {p body : List Char} {q c : Char} {d : Int} {escaped : Bool}

namespace ParamState

theorem step_outside :
    step ⟨d, none⟩ escaped c = if isQuote c then ⟨d, some c⟩ else ⟨d + weight c, none⟩ := by
  unfold step weight
  by_cases hquote : isQuote c
  · simp [hquote]
  · by_cases hopening : isOpening c
    · simp [hquote, hopening]
    · by_cases hclosing : isClosing c <;> simp [hquote, hopening, hclosing, Int.sub_eq_add_neg]

theorem step_inside {P : Prop} [Decidable P] : step ⟨d, some q⟩ (decide P) c =
    if c = q ∧ ¬P then ⟨d, none⟩ else ⟨d, some q⟩ := by
  by_cases hc : c = q <;> by_cases hP : P <;> simp [step, hc, hP]

/-- The state after a text, `before` being the character in front of it. -/
def advance (s : ParamState) (before : Option Char) : List Char → ParamState
  | [] => s
  | c :: cs => (s.step (before = some '\\') c).advance (some c) cs

theorem advance_concat (s : ParamState) (before : Option Char) (as : List Char) (c : Char) :
    s.advance before (as ++ [c]) =
      (s.advance before as).step ((as.getLast?.or before) = some '\\') c := by
  induction as generalizing s before with
  | nil => rfl
  | cons a as ih =>
    have hlast : (a :: as).getLast?.or before = as.getLast?.or (some a) := by
      rw [List.getLast?_cons]
      cases as.getLast? <;> rfl
    rw [List.cons_append, advance, ih, advance, hlast]

end ParamState

/-- The state after a text that is read from its start. -/
def scan (p : List Char) : ParamState := ParamState.start.advance none p

theorem scan_concat (p : List Char) (c : Char) :
    scan (p ++ [c]) = (scan p).step (p.getLast? = some '\\') c := by
  rw [scan, ParamState.advance_concat, Option.or_none, scan]

/-- What the state says of the text that was read. -/
def Describes (p : List Char) (s : ParamState) : Prop :=
  match s.quote with
  | none => ReadsTo p s.depth
  | some q => ∃ u body, p = u ++ q :: body ∧ ReadsTo u s.depth ∧ isQuote q = true ∧
      StaysOpen q body

theorem Describes.step {s : ParamState} (h : Describes p s) (c : Char) :
    Describes (p ++ [c]) (s.step (p.getLast? = some '\\') c) := by
  obtain ⟨d, _ | q⟩ := s
  · rw [ParamState.step_outside]
    by_cases hquote : isQuote c = true
    · rw [if_pos hquote]
      exact ⟨p, [], rfl, h, hquote, staysOpen_nil⟩
    · rw [if_neg hquote]
      exact ReadsTo.plain h (by simpa using hquote)
  · obtain ⟨u, body, rfl, hu, hquote, hopen⟩ := h
    have happend : u ++ q :: body ++ [c] = u ++ q :: (body ++ [c]) := by simp
    simp only [ParamState.step_inside, getLast?_open hquote]
    by_cases hcloses : c = q ∧ ¬body.getLast? = some '\\'
    · rw [if_pos hcloses]
      obtain ⟨rfl, hends⟩ := hcloses
      rw [happend]
      exact ReadsTo.literal hu ⟨hquote, hopen, hends⟩
    · rw [if_neg hcloses]
      refine ⟨u, body ++ [c], happend, hu, hquote, staysOpen_concat.mpr ⟨hopen, fun hc => ?_⟩⟩
      simpa [hc] using hcloses

theorem describes_scan (p : List Char) : Describes p (scan p) := by
  induction p using List.reverseRecOn with
  | nil => exact ReadsTo.nil
  | append_singleton p c ih =>
    rw [scan_concat]
    exact ih.step c

theorem scan_open (h : scan p = ⟨d, none⟩) (hquote : isQuote q = true) (hopen : StaysOpen q body) :
    scan (p ++ q :: body) = ⟨d, some q⟩ := by
  induction body using List.reverseRecOn with
  | nil => rw [scan_concat, h, ParamState.step_outside, if_pos hquote]
  | append_singleton body c ih =>
    obtain ⟨hbody, hc⟩ := staysOpen_concat.mp hopen
    have happend : p ++ q :: (body ++ [c]) = p ++ q :: body ++ [c] := by simp
    rw [happend, scan_concat, ih hbody, ParamState.step_inside, if_neg]
    rintro ⟨rfl, hends⟩
    rw [getLast?_open hquote] at hends
    exact hends (hc rfl)

theorem scan_of_readsTo (h : ReadsTo p d) : scan p = ⟨d, none⟩ := by
  induction h with
  | nil => rfl
  | plain _ hc ih => rw [scan_concat, ih, ParamState.step_outside, if_neg (by simp [hc])]
  | @literal p d q body _ hliteral ih =>
    have happend : p ++ (q :: body ++ [q]) = p ++ q :: body ++ [q] := by simp
    rw [happend, scan_concat, scan_open ih hliteral.quote hliteral.stays, ParamState.step_inside,
      if_pos]
    refine ⟨rfl, ?_⟩
    rw [getLast?_open hliteral.quote]
    exact hliteral.ends

theorem scan_eq_iff : scan p = ⟨d, none⟩ ↔ ReadsTo p d := by
  refine ⟨fun h => ?_, scan_of_readsTo⟩
  have hp := describes_scan p
  rwa [h] at hp

theorem cutsAt_comma_iff : (scan p).cutsAt ',' = true ↔ ReadsTo p 0 := by
  rw [← scan_eq_iff]
  obtain ⟨d, quote⟩ := scan p
  cases quote <;> simp [ParamState.cutsAt]

end Scan

section Pieces

variable {p cs before after : List Char} {c : Char} {pieces : List (List Char)}

theorem intercalate_consPiece (c : Char) (pieces : List (List Char)) :
    [','].intercalate (consPiece c pieces) = c :: [','].intercalate pieces := by
  cases pieces with
  | nil => simp [consPiece]
  | cons piece pieces => rw [consPiece, List.intercalate_cons_cons_left]

/-- The comma between `before` and `after` joins two stretches of the pieces. -/
def IsJoint (pieces : List (List Char)) (before after : List Char) : Prop :=
  ∃ left right, pieces = left ++ right ∧ left ≠ [] ∧ right ≠ [] ∧
    before = [','].intercalate left ∧ after = [','].intercalate right

theorem isJoint_nil_cons (h : pieces ≠ []) : IsJoint ([] :: pieces) before after ↔
    before = [] ∧ after = [','].intercalate pieces ∨
      ∃ before', before = ',' :: before' ∧ IsJoint pieces before' after := by
  constructor
  · rintro ⟨_ | ⟨first, left⟩, right, heq, hleft, hright, rfl, rfl⟩
    · exact absurd rfl hleft
    · obtain ⟨rfl, rfl⟩ := List.cons.inj heq
      by_cases hnil : left = []
      · subst hnil
        exact .inl ⟨List.intercalate_singleton, rfl⟩
      · exact .inr ⟨_, List.intercalate_cons_of_ne_nil hnil, left, right, rfl, hnil, hright, rfl,
          rfl⟩
  · rintro (⟨rfl, rfl⟩ | ⟨before, rfl, left, right, rfl, hleft, hright, rfl, rfl⟩)
    · exact ⟨[[]], pieces, rfl, by simp, h, List.intercalate_singleton.symm, rfl⟩
    · refine ⟨[] :: left, right, rfl, by simp, hright, ?_, rfl⟩
      rw [List.intercalate_cons_of_ne_nil hleft]
      rfl

theorem isJoint_consPiece (h : pieces ≠ []) : IsJoint (consPiece c pieces) before after ↔
    ∃ before', before = c :: before' ∧ IsJoint pieces before' after := by
  obtain ⟨piece, pieces, rfl⟩ := List.exists_cons_of_ne_nil h
  constructor
  · rintro ⟨_ | ⟨first, left⟩, right, heq, hleft, hright, rfl, rfl⟩
    · exact absurd rfl hleft
    · obtain ⟨rfl, rfl⟩ := List.cons.inj heq
      exact ⟨_, List.intercalate_cons_cons_left, piece :: left, right, rfl, by simp, hright, rfl,
        rfl⟩
  · rintro ⟨before, rfl, _ | ⟨first, left⟩, right, heq, hleft, hright, rfl, rfl⟩
    · exact absurd rfl hleft
    · obtain ⟨rfl, rfl⟩ := List.cons.inj heq
      exact ⟨(c :: piece) :: left, right, rfl, by simp, hright,
        List.intercalate_cons_cons_left.symm, rfl⟩

theorem ParamState.step_of_cutsAt {s : ParamState} (h : s.cutsAt c = true) (escaped : Bool) :
    c = ',' ∧ s.step escaped c = s := by
  obtain ⟨d, _ | q⟩ := s
  · obtain ⟨rfl, rfl⟩ : c = ',' ∧ d = 0 := by simpa [cutsAt] using h
    exact ⟨rfl, rfl⟩
  · simp [cutsAt] at h

theorem piecesFrom_ne_nil (s : ParamState) (before : Option Char) (cs : List Char) :
    piecesFrom s before cs ≠ [] := by
  cases cs with
  | nil => simp [piecesFrom]
  | cons c cs =>
    rw [piecesFrom]
    split
    · simp
    · cases piecesFrom (s.step (before = some '\\') c) (some c) cs <;> simp [consPiece]

/-- The pieces of what follows a text that was read. -/
def rawPieces (p cs : List Char) : List (List Char) := piecesFrom (scan p) p.getLast? cs

theorem rawPieces_cut (h : (scan p).cutsAt c = true) (cs : List Char) :
    rawPieces p (c :: cs) = [] :: rawPieces (p ++ [c]) cs := by
  rw [rawPieces, piecesFrom, if_pos h, rawPieces, scan_concat, (ParamState.step_of_cutsAt h _).2,
    List.getLast?_concat]

theorem rawPieces_pass (h : (scan p).cutsAt c = false) (cs : List Char) :
    rawPieces p (c :: cs) = consPiece c (rawPieces (p ++ [c]) cs) := by
  rw [rawPieces, piecesFrom, if_neg (by simp [h]), rawPieces, scan_concat, List.getLast?_concat]

theorem rawPieces_ne_nil (p cs : List Char) : rawPieces p cs ≠ [] := piecesFrom_ne_nil _ _ _

theorem intercalate_rawPieces (p cs : List Char) : [','].intercalate (rawPieces p cs) = cs := by
  induction cs generalizing p with
  | nil => rfl
  | cons c cs ih =>
    by_cases hcut : (scan p).cutsAt c = true
    · obtain ⟨rfl, -⟩ := ParamState.step_of_cutsAt hcut false
      rw [rawPieces_cut hcut, List.intercalate_cons_of_ne_nil (rawPieces_ne_nil _ _), ih]
      rfl
    · rw [rawPieces_pass (by simpa using hcut), intercalate_consPiece, ih]

theorem readsTo_zero_iff_isJoint (p cs : List Char) (h : cs = before ++ ',' :: after) :
    ReadsTo (p ++ before) 0 ↔ IsJoint (rawPieces p cs) before after := by
  -- `p` is what has been read, and the comma in question is the next character or comes later
  induction cs generalizing p before with
  | nil => simp at h
  | cons c cs ih =>
    have hread (before' : List Char) : p ++ c :: before' = p ++ [c] ++ before' := by simp
    by_cases hcut : (scan p).cutsAt c = true
    · obtain ⟨rfl, -⟩ := ParamState.step_of_cutsAt hcut false
      rw [rawPieces_cut hcut, isJoint_nil_cons (rawPieces_ne_nil _ _)]
      cases before with
      | nil =>
        obtain rfl : cs = after := (List.cons.inj h).2
        have hp : ReadsTo p 0 := cutsAt_comma_iff.mp hcut
        simpa [intercalate_rawPieces] using hp
      | cons b before =>
        obtain ⟨rfl, hcs⟩ := List.cons.inj h
        rw [hread, ih _ hcs]
        simp
    · rw [rawPieces_pass (by simpa using hcut), isJoint_consPiece (rawPieces_ne_nil _ _)]
      cases before with
      | nil =>
        obtain rfl : c = ',' := (List.cons.inj h).1
        rw [cutsAt_comma_iff] at hcut
        simpa using hcut
      | cons b before =>
        obtain ⟨rfl, hcs⟩ := List.cons.inj h
        rw [hread, ih _ hcs]
        simp

theorem trimPieces_eq (h : pieces ≠ []) : trimPieces pieces =
    (if pieces.getLast? = some [] then pieces.dropLast else pieces).map strip := by
  induction pieces with
  | nil => exact absurd rfl h
  | cons piece pieces ih =>
    cases pieces with
    | nil => cases piece <;> simp [trimPieces]
    | cons next pieces =>
      rw [trimPieces, ih (by simp), List.getLast?_cons_cons, List.dropLast_cons_cons]
      · split <;> rfl
      · simp

/-- A text is cut at its commas outside strings and at depth zero and nowhere else; white space
around the pieces goes, and the last one goes if it is empty. -/
theorem splitParams_cuts_at_commas (cs : List Char) :
    ∃ pieces : List (List Char), pieces ≠ [] ∧ [','].intercalate pieces = cs ∧
      (∀ before after, cs = before ++ ',' :: after →
        (ReadsTo before 0 ↔ IsJoint pieces before after)) ∧
      splitParams cs =
        (if pieces.getLast? = some [] then pieces.dropLast else pieces).map strip := by
  refine ⟨rawPieces [] cs, rawPieces_ne_nil _ _, intercalate_rawPieces _ _, ?_, ?_⟩
  · intro before after hcs
    exact readsTo_zero_iff_isJoint [] cs hcs
  · exact trimPieces_eq (rawPieces_ne_nil [] cs)

end Pieces

section Collecting

variable {s : CollectState} {t : ParamState} {piece cs first : List Char}
  {rest : List (List Char)} {before : Option Char} {q c : Char}

theorem CollectState.step_outside (h : s.inString = false) (escaped : Bool) (c : Char) :
    s.step escaped c = if isQuote c then { s with inString := true, quote := some c }
      else { s with depth := s.depth + weight c } := by
  rw [step, if_neg (by simp [h])]
  unfold weight
  by_cases hopening : isOpening c = true
  · simp [hopening]
  · by_cases hclosing : isClosing c = true <;> simp [hopening, hclosing, Int.sub_eq_add_neg]

theorem CollectState.step_inside {P : Prop} [Decidable P] (h : s.inString = true)
    (hquote : s.quote = some q) (c : Char) :
    s.step (decide P) c = if c = q ∧ ¬P then { s with inString := false } else s := by
  rw [step, if_pos h, hquote]
  by_cases hc : c = q <;> by_cases hP : P <;> simp [eq_comm (a := q), hc, hP]

/-- A scan that collects a piece stands where one that looks back in the text does. Within a string
both read the same character last; outside, a comma may have emptied the piece, and the quote is
that of a string which has ended. -/
structure Follows (s : CollectState) (piece : List Char) (t : ParamState) (before : Option Char) :
    Prop where
  depth : s.depth = t.depth
  inString : s.inString = t.quote.isSome
  within : ∀ q, t.quote = some q → s.quote = some q ∧ piece.head? = before

theorem Follows.cutsAt_eq (h : Follows s piece t before) (c : Char) : s.cutsAt c = t.cutsAt c := by
  simp [CollectState.cutsAt, ParamState.cutsAt, h.depth, h.inString]

theorem Follows.cut (h : Follows s piece t before) (hcut : t.cutsAt c = true) :
    Follows s [] t (some c) := by
  obtain ⟨d, _ | q⟩ := t
  · exact ⟨h.depth, h.inString, by simp⟩
  · simp [ParamState.cutsAt] at hcut

theorem Follows.step (h : Follows s piece t before) (c : Char) :
    Follows (s.step (piece.head? = some '\\') c) (c :: piece) (t.step (before = some '\\') c)
      (some c) := by
  obtain ⟨d, _ | q⟩ := t
  · rw [CollectState.step_outside h.inString, ParamState.step_outside]
    by_cases hquote : isQuote c = true
    · rw [if_pos hquote, if_pos hquote]
      exact ⟨h.depth, rfl, fun q hq => ⟨hq, rfl⟩⟩
    · rw [if_neg hquote, if_neg hquote]
      exact ⟨congrArg (· + weight c) h.depth, h.inString, by simp⟩
  · -- no comma cuts in a string, so the quote that opened it is in the piece
    obtain ⟨hquote, hlast⟩ := h.within q rfl
    rw [CollectState.step_inside h.inString hquote, ParamState.step_inside, hlast]
    by_cases hcloses : c = q ∧ ¬before = some '\\'
    · rw [if_pos hcloses, if_pos hcloses]
      exact ⟨h.depth, rfl, by simp⟩
    · rw [if_neg hcloses, if_neg hcloses]
      exact ⟨h.depth, h.inString, fun q hq => ⟨(h.within q hq).1, rfl⟩⟩

/-- What a collecting scan has still to give: its piece goes in front of the pieces that the other
scan cuts the rest of the text into. -/
theorem collectFrom_eq (h : Follows s piece t before)
    (hpieces : piecesFrom t before cs = first :: rest) :
    collectFrom s piece cs = trimPieces ((piece.reverse ++ first) :: rest) := by
  induction cs generalizing s piece t before first rest with
  | nil =>
    obtain ⟨rfl, rfl⟩ := List.cons.inj hpieces
    simp [collectFrom, trimPieces]
  | cons c cs ih =>
    rw [piecesFrom] at hpieces
    rw [collectFrom, h.cutsAt_eq]
    by_cases hcut : t.cutsAt c = true
    · obtain ⟨next, more, hnext⟩ :=
        List.exists_cons_of_ne_nil (piecesFrom_ne_nil t (some c) cs)
      rw [if_pos hcut, hnext] at hpieces
      obtain ⟨rfl, rfl⟩ := List.cons.inj hpieces
      rw [if_pos hcut, ih (h.cut hcut) hnext, List.append_nil]
      rfl
    · obtain ⟨next, more, hnext⟩ := List.exists_cons_of_ne_nil
        (piecesFrom_ne_nil (t.step (before = some '\\') c) (some c) cs)
      rw [if_neg hcut, hnext] at hpieces
      obtain ⟨rfl, rfl⟩ := List.cons.inj hpieces
      rw [if_neg hcut, ih (h.step c) hnext, List.reverse_cons, List.append_assoc,
        List.singleton_append]

/-- Looking back in the text and looking back in the piece cut a parameter list alike. -/
theorem collectParams_eq_splitParams (cs : List Char) : collectParams cs = splitParams cs := by
  obtain ⟨first, rest, hpieces⟩ :=
    List.exists_cons_of_ne_nil (piecesFrom_ne_nil .start none cs)
  have hstart : Follows .start [] .start none := ⟨rfl, rfl, by simp [ParamState.start]⟩
  rw [collectParams, collectFrom_eq hstart hpieces, splitParams, hpieces]
  rfl

end Collecting

end DocSite.Signature
