import DocSite.Api.Prototype
import DocSite.Proofs.Json.Numbers
import DocSite.Proofs.Signature.Splitting
import DocSite.Proofs.Text.Case

/-!
Splitting a parameter list undoes printing it, as long as no string in it ends in a backslash: the
closing quote of such a string is taken for an escaped one.
-/

namespace DocSite

namespace Literal

mutual

/-- The values without parts that a value is made of. -/
def leaves : Literal → List Literal
  | .list items => leavesOfItems items
  | .tuple items => leavesOfItems items
  | .dict entries => leavesOfEntries entries
  | v => [v]

def leavesOfItems : List Literal → List Literal
  | [] => []
  | x :: xs => leaves x ++ leavesOfItems xs

def leavesOfEntries : List (Literal × Literal) → List Literal
  | [] => []
  | (k, v) :: es => leaves k ++ leaves v ++ leavesOfEntries es

end

end Literal

namespace Signature

open Text Api

section Solid

variable {k l d : Int} {q c : Char} {as bs t body rest : List Char} {before : Option Char}

/-- A text that is passed over without a cut wherever the depth is at least `k`. -/
def Solid (k : Int) (t : List Char) : Prop :=
  ∀ d, k ≤ d → ∀ before rest,
    piecesFrom ⟨d, none⟩ before (t ++ rest) = t.foldr consPiece (piecesFrom ⟨d, none⟩ none rest)

theorem piecesFrom_before (d : Int) (before : Option Char) (cs : List Char) :
    piecesFrom ⟨d, none⟩ before cs = piecesFrom ⟨d, none⟩ none cs := by
  cases cs <;> rfl

/-- A character outside strings that is no parting comma. -/
theorem piecesFrom_pass (hquote : isQuote c = false) (hcomma : c = ',' → d ≠ 0)
    (before : Option Char) (cs : List Char) : piecesFrom ⟨d, none⟩ before (c :: cs) =
      consPiece c (piecesFrom ⟨d + weight c, none⟩ none cs) := by
  have hcut : ParamState.cutsAt ⟨d, none⟩ c = false := by
    by_cases hc : c = ','
    · simp [ParamState.cutsAt, hcomma hc]
    · simp [ParamState.cutsAt, hc]
  rw [piecesFrom, if_neg (by simp [hcut]), ParamState.step_outside, if_neg (by simp [hquote]),
    piecesFrom_before]

theorem Solid.append (ha : Solid k as) (hb : Solid k bs) : Solid k (as ++ bs) := by
  intro d hd before rest
  rw [List.append_assoc, ha d hd, hb d hd, List.foldr_append]

theorem Solid.mono (h : Solid k t) (hkl : k ≤ l) : Solid l t :=
  fun d hd => h d (Int.le_trans hkl hd)

/-- Characters that change nothing in a scan. -/
def isInert (c : Char) : Bool := !isQuote c && weight c = 0 && c ≠ ','

theorem isInert_iff : isInert c = true ↔ isQuote c = false ∧ weight c = 0 ∧ c ≠ ',' := by
  simp [isInert, and_assoc]

/-- The characters that a scan acts on. -/
def signs : List Char := ['\x22', '\x27', '(', '[', '\x7b', ')', ']', '\x7d', ',']

theorem isInert_of_not_mem (h : c ∉ signs) : isInert c = true := by
  simp only [signs, List.mem_cons, List.not_mem_nil, or_false, not_or] at h
  simp [isInert, isQuote, weight, isOpening, isClosing, h]

theorem solid_of_isInert (h : ∀ c ∈ t, isInert c = true) : Solid k t := by
  intro d hd before rest
  induction t generalizing before with
  | nil => exact piecesFrom_before d before rest
  | cons c t ih =>
    obtain ⟨hquote, hweight, hcomma⟩ := isInert_iff.mp (h c (by simp))
    rw [List.cons_append, piecesFrom_pass hquote fun hc => absurd hc hcomma, hweight, Int.add_zero,
      ih fun x hx => h x (List.mem_cons_of_mem _ hx), List.foldr_cons]

theorem solid_of_all (t : List Char) (h : t.all isInert = true) : Solid k t :=
  solid_of_isInert (List.all_eq_true.mp h)

theorem solid_comma : Solid 1 [','] := by
  intro d hd before rest
  have hweight : d + weight ',' = d := Int.add_zero d
  rw [List.cons_append, piecesFrom_pass rfl fun _ => by omega, hweight]
  rfl

theorem Solid.separated (ha : Solid 1 as) (hb : Solid 1 bs) : Solid 1 (as ++ ',' :: ' ' :: bs) :=
  ha.append (solid_comma.append (Solid.append (solid_of_all [' '] (by decide)) hb))

theorem Solid.bracket {opening closing : Char} (hopening : weight opening = 1)
    (hclosing : weight closing = -1) (h : Solid (k + 1) t) :
    Solid k (opening :: (t ++ [closing])) := by
  intro d hd before rest
  have hquote {c : Char} (hc : weight c ≠ 0) : isQuote c = false ∧ c ≠ ',' := by
    constructor
    · rw [← Bool.not_eq_true]
      intro hquote
      obtain rfl | rfl : c = '\x22' ∨ c = '\x27' := by simpa [isQuote] using hquote
      · exact hc rfl
      · exact hc rfl
    · rintro rfl
      exact hc rfl
  have hopen := hquote (c := opening) (by omega)
  have hclose := hquote (c := closing) (by omega)
  have hback : d + 1 + weight closing = d := by omega
  rw [List.cons_append, piecesFrom_pass hopen.1 fun hc => absurd hc hopen.2, hopening,
    List.append_assoc, h (d + 1) (by omega), List.cons_append, List.nil_append,
    piecesFrom_pass hclose.1 fun hc => absurd hc hclose.2, hback, List.foldr_cons,
    List.foldr_append]
  rfl

/-- The depth reached after a text without strings. -/
def level : List Char → Int
  | [] => 0
  | c :: t => weight c + level t

/-- No strings, brackets that close, and no comma outside brackets. -/
structure Unbroken (t : List Char) : Prop where
  unquoted : ∀ c ∈ t, isQuote c = false
  balanced : level t = 0
  nested : ∀ n ≤ t.length, 0 ≤ level (t.take n)
  commas : ∀ n < t.length, t[n]? = some ',' → level (t.take n) ≠ 0

theorem unbroken_iff : Unbroken t ↔ (t.all fun c => !isQuote c) = true ∧ level t = 0 ∧
    (∀ n ≤ t.length, 0 ≤ level (t.take n)) ∧
    ∀ n < t.length, t[n]? = some ',' → level (t.take n) ≠ 0 := by
  rw [List.all_eq_true]
  constructor
  · intro h
    exact ⟨fun c hc => by simp [h.unquoted c hc], h.balanced, h.nested, h.commas⟩
  · rintro ⟨hquote, hbalanced, hnested, hcommas⟩
    exact ⟨fun c hc => by simpa using hquote c hc, hbalanced, hnested, hcommas⟩

instance (t : List Char) : Decidable (Unbroken t) := decidable_of_iff _ unbroken_iff.symm

theorem piecesFrom_unquoted (hquote : ∀ c ∈ t, isQuote c = false)
    (hcomma : ∀ n < t.length, t[n]? = some ',' → d + level (t.take n) ≠ 0) :
    piecesFrom ⟨d, none⟩ before (t ++ rest) =
      t.foldr consPiece (piecesFrom ⟨d + level t, none⟩ none rest) := by
  induction t generalizing d before with
  | nil => simpa [level] using piecesFrom_before d before rest
  | cons c t ih =>
    have hlevel (u : List Char) : d + level (c :: u) = d + weight c + level u := by
      simp [level, Int.add_assoc]
    rw [List.cons_append, piecesFrom_pass (hquote c (by simp)), ih, List.foldr_cons, hlevel]
    · exact fun x hx => hquote x (List.mem_cons_of_mem _ hx)
    · intro n hn hget
      have hnext := hcomma (n + 1) (by simpa using hn) (by simpa using hget)
      rwa [List.take_succ_cons, hlevel] at hnext
    · intro hc
      simpa [hc, level] using hcomma 0 (by simp)

theorem Unbroken.solid (h : Unbroken t) : Solid 0 t := by
  intro d hd before rest
  rw [piecesFrom_unquoted h.unquoted, h.balanced, Int.add_zero]
  intro n hn hget
  have hnested := h.nested n (Nat.le_of_lt hn)
  have hcomma := h.commas n hn hget
  omega

/-- The inside of an open string is passed over. -/
theorem piecesFrom_stays (hstays : ∀ u v, body = u ++ q :: v → u.getLast?.or before = some '\\') :
    piecesFrom ⟨d, some q⟩ before (body ++ rest) =
      body.foldr consPiece (piecesFrom ⟨d, some q⟩ (body.getLast?.or before) rest) := by
  induction body generalizing before with
  | nil => rfl
  | cons c body ih =>
    have hlast (u : List Char) : (c :: u).getLast?.or before = u.getLast?.or (some c) := by
      rw [List.getLast?_cons]
      cases u.getLast? <;> rfl
    have hstep : ParamState.step ⟨d, some q⟩ (before = some '\\') c = ⟨d, some q⟩ := by
      rw [ParamState.step_inside, if_neg]
      rintro ⟨rfl, hbefore⟩
      exact hbefore (hstays [] body rfl)
    rw [List.cons_append, piecesFrom, if_neg (by simp [ParamState.cutsAt]), hstep, ih, hlast]
    · rfl
    · intro u v huv
      rw [← hlast]
      exact hstays (c :: u) v (by rw [huv, List.cons_append])

/-- The opening quote and the inside of a string. -/
theorem piecesFrom_open (hquote : isQuote q = true) (hstays : StaysOpen q body)
    (before : Option Char) (rest : List Char) :
    piecesFrom ⟨d, none⟩ before (q :: (body ++ rest)) = (q :: body).foldr consPiece
      (piecesFrom ⟨d, some q⟩ (body.getLast?.or (some q)) rest) := by
  have hcut : ParamState.cutsAt ⟨d, none⟩ q = false := by
    have hq : q ≠ ',' := by
      rintro rfl
      cases hquote
    simp [ParamState.cutsAt, hq]
  rw [piecesFrom, if_neg (by simp [hcut]), ParamState.step_outside, if_pos hquote, piecesFrom_stays]
  · rfl
  · intro u v huv
    rw [hstays u v huv]
    rfl

theorem IsLiteral.solid (h : IsLiteral q body) : Solid k (q :: (body ++ [q])) := by
  intro d hd before rest
  have hescaped : ¬body.getLast?.or (some q) = some '\\' := by
    cases hlast : body.getLast? with
    | none => simpa using isQuote_ne (c := '\\') h.quote rfl
    | some c => simpa [hlast] using h.ends
  rw [List.cons_append, List.append_assoc, piecesFrom_open h.quote h.stays, List.cons_append,
    piecesFrom, if_neg (by simp [ParamState.cutsAt]), ParamState.step_inside,
    if_pos ⟨rfl, hescaped⟩, piecesFrom_before, ← List.cons_append, List.foldr_append]
  rfl

end Solid

section Literals

variable {k : Int} {q c : Char} {cs ds : List Char}

/-- Neither a quote nor a backslash. -/
def isSafe (c : Char) : Bool := !isQuote c && c ≠ '\\'

theorem isSafe_iff : isSafe c = true ↔ isQuote c = false ∧ c ≠ '\\' := by
  simp [isSafe]

theorem isSafe_of_mem_hex {width n : Nat} (h : c ∈ hex width n) : isSafe c = true := by
  have hall : ∀ d : Fin 16, isSafe (hexDigit d) = true := by decide
  induction width generalizing n with
  | zero => cases h
  | succ width ih =>
    obtain h | h := List.mem_append.mp h
    · exact ih h
    · rw [List.mem_singleton.mp h]
      exact hall ⟨n % 16, Nat.mod_lt _ (by decide)⟩

/-- A character other than the quote and the backslash is written as it is, or by a backslash
before safe characters. -/
theorem escapeChar_cases (hq : c ≠ q) (hc : c ≠ '\\') : Literal.escapeChar q c = [c] ∨
    ∃ letter digits, Literal.escapeChar q c = '\\' :: letter :: digits ∧
      ∀ x ∈ letter :: digits, isSafe x = true := by
  have hdigits (letter : Char) (hletter : isSafe letter = true) (width n : Nat) :
      ∀ x ∈ letter :: hex width n, isSafe x = true := by
    intro x hx
    obtain rfl | hx := List.mem_cons.mp hx
    · exact hletter
    · exact isSafe_of_mem_hex hx
  unfold Literal.escapeChar
  simp only [hq, hc, decide_false, Bool.or_self, Bool.false_eq_true, if_false]
  split
  · exact .inr ⟨'n', [], rfl, hdigits 'n' rfl 0 0⟩
  split
  · exact .inr ⟨'r', [], rfl, hdigits 'r' rfl 0 0⟩
  split
  · exact .inr ⟨'t', [], rfl, hdigits 't' rfl 0 0⟩
  split
  · exact .inl rfl
  split
  · exact .inr ⟨'x', _, rfl, hdigits 'x' rfl _ _⟩
  split
  · exact .inr ⟨'u', _, rfl, hdigits 'u' rfl _ _⟩
  split
  · exact .inr ⟨'u', _, rfl, hdigits 'u' rfl _ _⟩
  · exact .inr ⟨'U', _, rfl, hdigits 'U' rfl _ _⟩

theorem escapeChar_self (h : c = q ∨ c = '\\') : Literal.escapeChar q c = ['\\', c] := by
  simp [Literal.escapeChar, h]

theorem not_mem_escapeChar (hquote : isQuote q = true) (hq : c ≠ q) :
    q ∉ Literal.escapeChar q c := by
  by_cases hc : c = '\\'
  · rw [escapeChar_self (.inr hc), hc]
    simpa using isQuote_ne (c := '\\') hquote rfl
  · obtain hescape | ⟨letter, digits, hescape, hsafe⟩ := escapeChar_cases hq hc
    · simpa [hescape] using Ne.symm hq
    · rw [hescape, List.mem_cons, not_or]
      refine ⟨isQuote_ne hquote rfl, fun hmem => ?_⟩
      rw [(isSafe_iff.mp (hsafe q hmem)).1] at hquote
      cases hquote

theorem staysOpen_append (hcs : StaysOpen q cs) (h : q ∉ ds) : StaysOpen q (cs ++ ds) := by
  induction ds using List.reverseRecOn with
  | nil => simpa using hcs
  | append_singleton ds d ih =>
    rw [List.mem_append, List.mem_singleton, not_or] at h
    rw [← List.append_assoc]
    exact staysOpen_concat.mpr ⟨ih h.1, fun hd => absurd hd.symm h.2⟩

theorem staysOpen_escaped (hquote : isQuote q = true) (cs : List Char) :
    StaysOpen q (cs.flatMap (Literal.escapeChar q)) := by
  induction cs using List.reverseRecOn with
  | nil => exact staysOpen_nil
  | append_singleton cs c ih =>
    rw [List.flatMap_append, List.flatMap_singleton]
    by_cases hself : c = q
    · rw [escapeChar_self (.inl hself), List.append_cons]
      refine staysOpen_concat.mpr ⟨?_, fun _ => List.getLast?_concat⟩
      exact staysOpen_append ih (by simpa using isQuote_ne (c := '\\') hquote rfl)
    · exact staysOpen_append ih (not_mem_escapeChar hquote hself)

/-- What is written between quotes ends in a backslash if and only if the string does. -/
theorem getLast?_escaped (cs : List Char) :
    (cs.flatMap (Literal.escapeChar q)).getLast? = some '\\' ↔ cs.getLast? = some '\\' := by
  cases cs using List.reverseRecOn with
  | nil => simp
  | append_singleton cs c =>
    rw [List.flatMap_append, List.flatMap_singleton, List.getLast?_concat, Option.some_inj]
    by_cases hself : c = q ∨ c = '\\'
    · simp [escapeChar_self hself]
    · obtain ⟨hq, hc⟩ := not_or.mp hself
      obtain hescape | ⟨letter, digits, hescape, hsafe⟩ := escapeChar_cases hq hc
      · simp [hescape]
      · obtain ⟨x, hx⟩ : ∃ x, (letter :: digits).getLast? = some x := ⟨_, List.getLast?_cons⟩
        have hne : x ≠ '\\' := (isSafe_iff.mp (hsafe x (List.mem_of_getLast? hx))).2
        rw [hescape, List.getLast?_append, List.getLast?_cons_cons, hx, Option.some_or,
          Option.some_inj]
        exact iff_of_false hne hc

theorem isQuote_quoteFor (cs : List Char) : isQuote (Literal.quoteFor cs) = true := by
  unfold Literal.quoteFor
  split <;> rfl

theorem isLiteral_quoted (h : cs.getLast? ≠ some '\\') : IsLiteral (Literal.quoteFor cs)
    (cs.flatMap (Literal.escapeChar (Literal.quoteFor cs))) where
  quote := isQuote_quoteFor cs
  stays := staysOpen_escaped (isQuote_quoteFor cs) cs
  ends := mt (getLast?_escaped cs).mp h

/-- A text with something other than white space at its end. -/
def Tight (t : List Char) : Prop := ∃ u c, t = u ++ [c] ∧ isBlank c = false

theorem Tight.append_left {t : List Char} (h : Tight t) (as : List Char) : Tight (as ++ t) := by
  obtain ⟨u, c, rfl, hc⟩ := h
  exact ⟨as ++ u, c, (List.append_assoc _ _ _).symm, hc⟩

theorem tight_of_forall {t : List Char} (ht : t ≠ []) (h : ∀ c ∈ t, isBlank c = false) :
    Tight t :=
  ⟨t.dropLast, t.getLast ht, (List.dropLast_concat_getLast ht).symm, h _ (List.getLast_mem ht)⟩

theorem tight_concat (as : List Char) (h : isBlank c = false) : Tight (as ++ [c]) :=
  ⟨as, c, rfl, h⟩

/-- A value without parts whose text is passed over. A string must not end in a backslash. -/
def LeafFits : Literal → Prop
  | .float text => Unbroken text.toList
  | .mark text => Unbroken text.toList
  | .str s => s.toList.getLast? ≠ some '\\'
  | _ => True

theorem Solid.entry {as bs : List Char} (ha : Solid 0 as) (hb : Solid 0 bs) :
    Solid 1 (as ++ ':' :: ' ' :: bs) :=
  Solid.mono (ha.append (Solid.append (solid_of_all [':', ' '] (by decide)) hb))
    (by decide)

theorem solid_int (n : Int) : Solid k (toString n).toList := by
  have hsigns : signs.all (fun x => !x.isDigit && x ≠ '-') = true := by decide
  apply solid_of_isInert
  intro c hc
  apply isInert_of_not_mem
  intro hsign
  have hc' := List.all_eq_true.mp hsigns c hsign
  simp only [Bool.and_eq_true, Bool.not_eq_true', decide_eq_true_eq] at hc'
  exact Json.not_mem_int hc'.1 hc'.2 n hc

theorem code_tuple (items : List Literal) : (Literal.tuple items).code =
    '(' :: (Literal.codeItems items ++ (if items.length = 1 then [','] else []) ++ [')']) := by
  match items with
  | [] => rfl
  | [x] => simp [Literal.code, Literal.codeItems]
  | x :: y :: items => simp [Literal.code]

mutual

theorem solid_code (v : Literal) (h : ∀ leaf ∈ v.leaves, LeafFits leaf) : Solid 0 v.code := by
  match v with
  | .none => exact solid_of_all "None".toList (by decide)
  | .bool true => exact solid_of_all "True".toList (by decide)
  | .bool false => exact solid_of_all "False".toList (by decide)
  | .int n => exact solid_int n
  | .float text =>
    have hfits : LeafFits (.float text) := h _ (by simp [Literal.leaves])
    exact Unbroken.solid hfits
  | .mark text =>
    have hfits : LeafFits (.mark text) := h _ (by simp [Literal.leaves])
    exact Unbroken.solid hfits
  | .str s =>
    have hfits : LeafFits (.str s) := h _ (by simp [Literal.leaves])
    exact (isLiteral_quoted hfits).solid
  | .list items => exact (solid_codeItems items h).bracket rfl rfl
  | .tuple items =>
    rw [code_tuple]
    refine Solid.bracket rfl rfl ((solid_codeItems items h).append ?_)
    split
    · exact solid_comma
    · exact solid_of_all [] rfl
  | .dict entries => exact (solid_codeEntries entries h).bracket rfl rfl

theorem solid_codeItems (items : List Literal)
    (h : ∀ leaf ∈ Literal.leavesOfItems items, LeafFits leaf) :
    Solid 1 (Literal.codeItems items) := by
  match items with
  | [] => exact solid_of_all [] rfl
  | [x] =>
    have hx := solid_code x fun leaf hleaf => h leaf (List.mem_append_left _ hleaf)
    rw [Literal.codeItems]
    exact hx.mono (by decide)
  | x :: y :: items =>
    have hx := solid_code x fun leaf hleaf => h leaf (List.mem_append_left _ hleaf)
    have hrest := solid_codeItems (y :: items) fun leaf hleaf =>
      h leaf (List.mem_append_right _ hleaf)
    rw [Literal.codeItems]
    · exact (hx.mono (by decide)).separated hrest
    · simp

theorem solid_codeEntries (entries : List (Literal × Literal))
    (h : ∀ leaf ∈ Literal.leavesOfEntries entries, LeafFits leaf) :
    Solid 1 (Literal.codeEntries entries) := by
  match entries with
  | [] => exact solid_of_all [] rfl
  | (k, v) :: rest =>
    have hk := solid_code k fun leaf hleaf =>
      h leaf (List.mem_append_left _ (List.mem_append_left _ hleaf))
    have hv := solid_code v fun leaf hleaf =>
      h leaf (List.mem_append_left _ (List.mem_append_right _ hleaf))
    have hrest := solid_codeEntries rest fun leaf hleaf => h leaf (List.mem_append_right _ hleaf)
    cases rest with
    | nil =>
      rw [Literal.codeEntries]
      exact hk.entry hv
    | cons next rest =>
      rw [Literal.codeEntries]
      · exact (hk.entry hv).separated hrest
      · simp

end

theorem not_isDigit_of_isBlank (h : isBlank c = true) : c.isDigit = false ∧ c ≠ '-' := by
  have hnat : c.toNat < 45 ∨ 57 < c.toNat := by
    simp only [isBlank, Bool.or_eq_true, Bool.and_eq_true, decide_eq_true_eq, beq_iff_eq] at h
    omega
  constructor
  · have hzero : '0'.toNat = 48 := rfl
    have hnine : '9'.toNat = 57 := rfl
    rw [← Bool.not_eq_true, Char.isDigit_iff_toNat]
    omega
  · rintro rfl
    revert hnat
    decide

theorem tight_int (n : Int) : Tight (toString n).toList := by
  apply tight_of_forall
  · rw [Int.toString_eq_repr, Int.repr_eq_if]
    split <;> simp [Nat.toDigits_ne_nil]
  · intro c hc
    rw [← Bool.not_eq_true]
    intro hblank
    obtain ⟨hdigit, hminus⟩ := not_isDigit_of_isBlank hblank
    exact Json.not_mem_int hdigit hminus n hc

/-- The text of a value ends with its own last character, a quote or a bracket. -/
theorem tight_code (v : Literal)
    (h : ∀ text, v = .float text ∨ v = .mark text → Tight text.toList) : Tight v.code := by
  cases v with
  | none => exact tight_concat (c := 'e') "Non".toList rfl
  | bool b =>
    cases b with
    | false => exact tight_concat (c := 'e') "Fals".toList rfl
    | true => exact tight_concat (c := 'e') "Tru".toList rfl
  | int n => exact tight_int n
  | float text => exact h text (.inl rfl)
  | mark text => exact h text (.inr rfl)
  | str s => exact tight_concat _ (isBlank_of_isQuote (isQuote_quoteFor s.toList))
  | list items => exact tight_concat _ rfl
  | tuple items =>
    rw [code_tuple, ← List.cons_append]
    exact tight_concat _ rfl
  | dict entries => exact tight_concat _ rfl

end Literals

section Entries

variable {t u rest : List Char} {ts : List (List Char)}

/-- An entry of a parameter list: passed over as a whole, with no white space around it. -/
structure IsEntry (t : List Char) : Prop where
  solid : Solid 0 t
  tight : Tight t
  head : ∀ c ∈ t.head?, isBlank c = false

theorem IsEntry.ne_nil (h : IsEntry t) : t ≠ [] := by
  obtain ⟨u, c, rfl, -⟩ := h.tight
  simp

theorem strip_eq_self (htight : Tight t) (hhead : ∀ c ∈ t.head?, isBlank c = false) :
    strip t = t := by
  obtain ⟨u, c, rfl, hc⟩ := htight
  apply strip_append_cons _ hc
  cases u with
  | nil => simp
  | cons a u => simpa using hhead

theorem foldr_consPiece (t piece : List Char) (pieces : List (List Char)) :
    t.foldr consPiece (piece :: pieces) = (t ++ piece) :: pieces := by
  induction t with
  | nil => rfl
  | cons c t ih => rw [List.foldr_cons, ih, consPiece, List.cons_append]

theorem trimPieces_cons {piece : List Char} (h : piece ≠ []) (pieces : List (List Char)) :
    trimPieces (piece :: pieces) = strip piece :: trimPieces pieces := by
  cases pieces <;> simp [trimPieces, h]

theorem splitParams_single (h : IsEntry t) : splitParams t = [t] := by
  have hpieces : piecesFrom .start none t = [t] := by
    have hsolid := h.solid 0 (Int.le_refl 0) none []
    rw [List.append_nil] at hsolid
    exact hsolid.trans ((foldr_consPiece t [] []).trans (by rw [List.append_nil]))
  rw [splitParams, hpieces, trimPieces_cons h.ne_nil, strip_eq_self h.tight h.head, trimPieces]

theorem splitParams_cons (h : IsEntry t) (hrest : rest ≠ []) :
    splitParams (t ++ ',' :: ' ' :: rest) = t :: splitParams rest := by
  have hcomma : piecesFrom ⟨0, none⟩ none (',' :: ' ' :: rest) =
      [] :: consPiece ' ' (rawPieces [] rest) := by
    rw [piecesFrom, if_pos (by decide), piecesFrom_pass rfl (by decide)]
    rfl
  have hpieces : piecesFrom .start none (t ++ ',' :: ' ' :: rest) =
      t :: consPiece ' ' (rawPieces [] rest) := by
    have hsolid := h.solid 0 (Int.le_refl 0) none (',' :: ' ' :: rest)
    rwa [hcomma, foldr_consPiece, List.append_nil] at hsolid
  -- the blank goes with the white space around the next piece, which is not empty
  have hblank :
      trimPieces (consPiece ' ' (rawPieces [] rest)) = trimPieces (rawPieces [] rest) := by
    have hjoin := intercalate_rawPieces [] rest
    cases hraw : rawPieces [] rest with
    | nil => exact absurd hraw (rawPieces_ne_nil _ _)
    | cons piece pieces =>
      cases pieces with
      | nil =>
        have hpiece : piece ≠ [] := by
          rw [hraw, List.intercalate_singleton] at hjoin
          rwa [hjoin]
        rw [consPiece, trimPieces_cons (by simp), strip_cons rfl, trimPieces_cons hpiece]
      | cons next pieces => simp only [consPiece, trimPieces, strip_cons (c := ' ') rfl]
  rw [splitParams, hpieces, trimPieces_cons h.ne_nil, strip_eq_self h.tight h.head, hblank]
  rfl

theorem intercalate_ne_nil (sep : List Char) (h : t ∈ ts) (ht : t ≠ []) :
    sep.intercalate ts ≠ [] := by
  intro hnil
  have hinfix := infix_intercalate sep h
  rw [hnil, List.infix_nil] at hinfix
  exact ht hinfix

/-- Entries in front of a list come out in front of what the list gives. -/
theorem splitParams_append {us : List (List Char)} (h : ∀ t ∈ ts, IsEntry t) (hu : u ∈ us)
    (hne : u ≠ []) : splitParams (", ".toList.intercalate (ts ++ us)) =
      ts ++ splitParams (", ".toList.intercalate us) := by
  induction ts with
  | nil => rfl
  | cons t ts ih =>
    have hmem : u ∈ ts ++ us := List.mem_append_right _ hu
    have hjoin : ", ".toList.intercalate (t :: (ts ++ us)) =
        t ++ ',' :: ' ' :: ", ".toList.intercalate (ts ++ us) := by
      rw [List.intercalate_cons_of_ne_nil (List.ne_nil_of_mem hmem), List.append_assoc]
      rfl
    rw [List.cons_append, hjoin, splitParams_cons (h t (by simp)) (intercalate_ne_nil _ hmem hne),
      ih fun x hx => h x (List.mem_cons_of_mem _ hx), List.cons_append]

theorem splitParams_intercalate (hts : ts ≠ []) (h : ∀ t ∈ ts, IsEntry t) :
    splitParams (", ".toList.intercalate ts) = ts := by
  cases ts using List.reverseRecOn with
  | nil => exact absurd rfl hts
  | append_singleton ts t =>
    have ht : IsEntry t := h t (by simp)
    rw [splitParams_append (fun x hx => h x (by simp [hx])) (List.mem_singleton_self t) ht.ne_nil,
      List.intercalate_singleton, splitParams_single ht]

/-- An entry at whose end a string is open still. -/
structure IsOpenEntry (t : List Char) : Prop where
  inString : ∃ u q body, t = u ++ q :: body ∧ Solid 0 u ∧ isQuote q = true ∧ StaysOpen q body
  head : ∀ c ∈ t.head?, isBlank c = false

/-- The comma behind such an entry is read as a part of the string. -/
theorem IsOpenEntry.splitParams_eq (h : IsOpenEntry t) (rest : List Char) :
    ∃ tail more, splitParams (t ++ ',' :: rest) = (t ++ ',' :: tail) :: more := by
  have hpieces : ∃ piece pieces,
      piecesFrom .start none (t ++ ',' :: rest) = (t ++ ',' :: piece) :: pieces := by
    obtain ⟨u, q, body, rfl, hu, hquote, hstays⟩ := h.inString
    have hlonger : StaysOpen q (body ++ [',']) := by
      refine staysOpen_concat.mpr ⟨hstays, ?_⟩
      rintro rfl
      cases hquote
    have happend : u ++ q :: body ++ ',' :: rest = u ++ q :: (body ++ [','] ++ rest) := by simp
    obtain ⟨piece, pieces, hrest⟩ := List.exists_cons_of_ne_nil
      (piecesFrom_ne_nil ⟨0, some q⟩ ((body ++ [',']).getLast?.or (some q)) rest)
    refine ⟨piece, pieces, ?_⟩
    rw [happend, ParamState.start, hu 0 (Int.le_refl 0), piecesFrom_open hquote hlonger, hrest,
      foldr_consPiece, foldr_consPiece]
    simp
  obtain ⟨piece, pieces, hpieces⟩ := hpieces
  refine ⟨stripRight piece, trimPieces pieces, ?_⟩
  rw [splitParams, hpieces, trimPieces_cons (by simp), strip_append_cons h.head rfl]

end Entries

section Parameters

variable {p : Parameter}

/-- A parameter as signatures have them: with an identifier for its name, and with a type and
numbers whose own texts have no quotes, closed brackets and no commas outside them. -/
structure IsPrintable (p : Parameter) : Prop where
  name : isIdentifier p.name.toList = true
  note : ∀ t, p.note? = some (.type t) →
    Unbroken t.inSignature.toList ∧ Tight t.inSignature.toList
  numbers : ∀ v text, p.default? = some v → .float text ∈ v.leaves ∨ .mark text ∈ v.leaves →
    Unbroken text.toList ∧ Tight text.toList

/-- The string is the type of the parameter, or a part of its default. -/
def HasString (p : Parameter) (s : String) : Prop :=
  p.note? = some (.text s) ∨ ∃ v, p.default? = some v ∧ .str s ∈ v.leaves

def EndsInBackslash (s : String) : Prop := s.toList.getLast? = some '\\'

theorem isInert_of_isIdentifier {c : Char} {cs : List Char} (h : isIdentifier cs = true)
    (hc : c ∈ cs) : isInert c = true := by
  have hsigns : signs.all isSeparator = true := by decide
  apply isInert_of_not_mem
  intro hsign
  exact not_mem_of_isIdentifier (List.all_eq_true.mp hsigns c hsign) h hc

theorem eq_star_of_mem_marks {c : Char} {kind : ParamKind} (h : c ∈ Parameter.marks kind) :
    c = '*' := by
  cases kind <;> simp_all [Parameter.marks]

/-- What stands before the default of a parameter. -/
def leadOf (p : Parameter) : List Char :=
  Parameter.marks p.kind ++ p.name.toList ++
    (match p.note? with
     | none => []
     | some a => ':' :: ' ' :: a.inSignature.toList)

/-- The equals sign of a default. -/
def equalsOf (p : Parameter) : List Char := if p.note?.isSome then [' ', '=', ' '] else ['=']

theorem code_eq (p : Parameter) : p.code = leadOf p ++
    (match p.default? with
     | none => []
     | some v => equalsOf p ++ v.code) := by
  unfold Parameter.code leadOf equalsOf
  cases p.note? <;> cases p.default? <;> simp

theorem inSignature_text (s : String) :
    (TypeNote.text s).inSignature.toList = Literal.quoted s.toList := by
  rw [TypeNote.inSignature, Literal.quotedText, String.toList_ofList]

theorem solid_note {a : TypeNote} (htype : ∀ t, a = .type t → Unbroken t.inSignature.toList)
    (htext : ∀ s, a = .text s → ¬EndsInBackslash s) : Solid 0 a.inSignature.toList := by
  cases a with
  | none => exact solid_of_all "None".toList (by decide)
  | text s =>
    rw [inSignature_text]
    exact (isLiteral_quoted (htext s rfl)).solid
  | type t => exact (htype t rfl).solid

theorem tight_note {a : TypeNote} (htype : ∀ t, a = .type t → Tight t.inSignature.toList) :
    Tight a.inSignature.toList := by
  cases a with
  | none => exact tight_concat (c := 'e') "Non".toList rfl
  | text s =>
    rw [inSignature_text]
    exact tight_concat _ (isBlank_of_isQuote (isQuote_quoteFor s.toList))
  | type t => exact htype t rfl

theorem IsPrintable.solid_lead (h : IsPrintable p)
    (hs : ∀ s, p.note? = some (.text s) → ¬EndsInBackslash s) : Solid 0 (leadOf p) := by
  have hmarks : Solid 0 (Parameter.marks p.kind) := solid_of_isInert fun c hc => by
    rw [eq_star_of_mem_marks hc]
    decide
  have hname : Solid 0 p.name.toList :=
    solid_of_isInert fun c hc => isInert_of_isIdentifier h.name hc
  apply (hmarks.append hname).append
  split
  case h_1 => exact solid_of_all [] rfl
  case h_2 a hnote =>
    apply (solid_of_all [':', ' '] (by decide)).append
    exact solid_note (fun t ht => (h.note t (ht ▸ hnote)).1) fun s ha => hs s (ha ▸ hnote)

theorem solid_equals (p : Parameter) : Solid 0 (equalsOf p) := by
  unfold equalsOf
  split
  · exact solid_of_all _ (by decide)
  · exact solid_of_all _ (by decide)

theorem IsPrintable.head_lead (h : IsPrintable p) (more : List Char) :
    ∀ c ∈ (leadOf p ++ more).head?, isBlank c = false := by
  have hdark : ∀ c ∈ Parameter.marks p.kind ++ p.name.toList, isBlank c = false := by
    intro c hc
    obtain hc | hc := List.mem_append.mp hc
    · rw [eq_star_of_mem_marks hc]
      rfl
    · exact not_isBlank_of_isIdentifier h.name hc
  have hne : Parameter.marks p.kind ++ p.name.toList ≠ [] := by
    intro hnil
    have hname := h.name
    rw [(List.append_eq_nil_iff.mp hnil).2] at hname
    cases hname
  obtain ⟨x, xs, hx⟩ := List.exists_cons_of_ne_nil hne
  intro c hc
  unfold leadOf at hc
  rw [hx] at hc hdark
  obtain rfl : x = c := by simpa using hc
  exact hdark x (by simp)

theorem IsPrintable.tight (h : IsPrintable p) : Tight p.code := by
  rw [code_eq]
  split
  case h_2 v hdefault =>
    apply Tight.append_left
    apply Tight.append_left
    apply tight_code
    intro text hv
    refine (h.numbers v text hdefault ?_).2
    obtain rfl | rfl := hv
    · exact .inl (by simp [Literal.leaves])
    · exact .inr (by simp [Literal.leaves])
  case h_1 =>
    rw [List.append_nil]
    unfold leadOf
    split
    case h_1 =>
      rw [List.append_nil]
      apply Tight.append_left
      apply tight_of_forall
      · intro hnil
        have hname := h.name
        rw [hnil] at hname
        cases hname
      · exact fun c hc => not_isBlank_of_isIdentifier h.name hc
    case h_2 a hnote =>
      have ha := tight_note fun t ht => (h.note t (ht ▸ hnote)).2
      exact (ha.append_left [':', ' ']).append_left _

theorem IsPrintable.isEntry (h : IsPrintable p) (hs : ∀ s, HasString p s → ¬EndsInBackslash s) :
    IsEntry p.code where
  solid := by
    rw [code_eq]
    apply (h.solid_lead fun s hnote => hs s (.inl hnote)).append
    split
    case h_1 => exact solid_of_all [] rfl
    case h_2 v hdefault =>
      apply (solid_equals p).append
      apply solid_code
      intro leaf hleaf
      cases leaf with
      | float text => exact (h.numbers v text hdefault (.inl hleaf)).1
      | mark text => exact (h.numbers v text hdefault (.inr hleaf)).1
      | str s => exact hs s (.inr ⟨v, hdefault, hleaf⟩)
      | _ => trivial
  tight := h.tight
  head := by
    rw [code_eq]
    exact h.head_lead _

/-- A default that is a string with a backslash at its end is not seen to end. -/
theorem IsPrintable.isOpenEntry (h : IsPrintable p) {s : String}
    (hdefault : p.default? = some (.str s)) (hs : EndsInBackslash s)
    (hnote : ∀ s, p.note? = some (.text s) → ¬EndsInBackslash s) : IsOpenEntry p.code where
  inString := by
    have hquote := isQuote_quoteFor s.toList
    refine ⟨leadOf p ++ equalsOf p, Literal.quoteFor s.toList,
      s.toList.flatMap (Literal.escapeChar (Literal.quoteFor s.toList)) ++
        [Literal.quoteFor s.toList], ?_, (h.solid_lead hnote).append (solid_equals p), hquote, ?_⟩
    · rw [code_eq, hdefault, List.append_assoc]
      rfl
    · exact staysOpen_concat.mpr
        ⟨staysOpen_escaped hquote _, fun _ => (getLast?_escaped _).mpr hs⟩
  head := by
    rw [code_eq]
    exact h.head_lead _

/-- Splitting the printed parameters gives them back if no string in them ends in a backslash. A
default that is such a string, with another parameter behind it, is not cut off. -/
theorem splitParams_printed (ps : List Parameter) (hne : ps ≠ []) (h : ∀ p ∈ ps, IsPrintable p) :
    ((∀ p ∈ ps, ∀ s, HasString p s → ¬EndsInBackslash s) →
      splitParams (", ".toList.intercalate (ps.map Parameter.code)) = ps.map Parameter.code) ∧
    ∀ before p after s, ps = before ++ p :: after → after ≠ [] →
      (∀ x ∈ before, ∀ s, HasString x s → ¬EndsInBackslash s) →
      (∀ s, p.note? = some (.text s) → ¬EndsInBackslash s) →
      p.default? = some (.str s) → EndsInBackslash s →
      splitParams (", ".toList.intercalate (ps.map Parameter.code)) ≠ ps.map Parameter.code := by
  constructor
  · intro hs
    apply splitParams_intercalate (by simpa using hne)
    intro t ht
    obtain ⟨p, hp, rfl⟩ := List.mem_map.mp ht
    exact (h p hp).isEntry (hs p hp)
  · rintro before p after s rfl hafter hbefore hnote hdefault hs
    have hp : IsPrintable p := h p (by simp)
    have hentries : ∀ t ∈ before.map Parameter.code, IsEntry t := by
      intro t ht
      obtain ⟨x, hx, rfl⟩ := List.mem_map.mp ht
      exact (h x (by simp [hx])).isEntry (hbefore x hx)
    have hcode : p.code ≠ [] := by
      obtain ⟨u, c, hcode, -⟩ := hp.tight
      simp [hcode]
    have hjoin : ", ".toList.intercalate (p.code :: after.map Parameter.code) =
        p.code ++ ',' :: (' ' :: ", ".toList.intercalate (after.map Parameter.code)) := by
      rw [List.intercalate_cons_of_ne_nil (by simpa using hafter), List.append_assoc]
      rfl
    obtain ⟨tail, more, hsplit⟩ := (hp.isOpenEntry hdefault hs hnote).splitParams_eq
      (' ' :: ", ".toList.intercalate (after.map Parameter.code))
    rw [List.map_append, List.map_cons, splitParams_append hentries List.mem_cons_self hcode, hjoin,
      hsplit]
    -- the piece of this parameter goes on behind its comma
    intro heq
    obtain ⟨hlonger, -⟩ := List.cons.inj (List.append_cancel_left heq)
    simp at hlonger

/-- A type with brackets and commas, and a default with commas, quotes and backslashes in it. -/
def nestedParams : List Parameter :=
  [⟨"shape", .standard, some (.type ⟨"Array", "Array[(None,), Float]", none, none⟩),
      some (.tuple [.str "a\\b, ('", .dict [(.int 1, .float "-0.5")]])⟩,
    ⟨"rest", .rest, none, none⟩]

theorem splitParams_printed_nested : (∀ p ∈ nestedParams, IsPrintable p) ∧
    (∀ p ∈ nestedParams, ∀ s, HasString p s → ¬EndsInBackslash s) ∧
    splitParams (", ".toList.intercalate (nestedParams.map Parameter.code)) =
      nestedParams.map Parameter.code := by
  have hprintable : ∀ p ∈ nestedParams, IsPrintable p := by
    intro p hp
    simp only [nestedParams, List.mem_cons, List.not_mem_nil, or_false] at hp
    obtain rfl | rfl := hp
    · refine ⟨by decide, ?_, ?_⟩
      · rintro t ht
        cases ht
        exact ⟨by decide, tight_concat (c := ']') "Array[(None,), Float".toList rfl⟩
      · rintro v text hv htext
        cases hv
        obtain rfl : text = "-0.5" := by
          simpa [Literal.leaves, Literal.leavesOfItems, Literal.leavesOfEntries] using htext
        exact ⟨by decide, tight_concat (c := '5') "-0.".toList rfl⟩
    · exact ⟨by decide, (fun t ht => nomatch ht), (fun v text hv => nomatch hv)⟩
  have hstrings : ∀ p ∈ nestedParams, ∀ s, HasString p s → ¬EndsInBackslash s := by
    intro p hp s hs
    simp only [nestedParams, List.mem_cons, List.not_mem_nil, or_false] at hp
    obtain rfl | rfl := hp
    · obtain rfl : s = "a\\b, ('" := by
        simpa [HasString, Literal.leaves, Literal.leavesOfItems, Literal.leavesOfEntries] using hs
      unfold EndsInBackslash
      decide
    · simp [HasString] at hs
  exact ⟨hprintable, hstrings,
    (splitParams_printed nestedParams (by simp [nestedParams]) hprintable).1 hstrings⟩

/-- After a string with a backslash at its end the next parameter is not told apart. -/
theorem splitParams_misses_comma :
    let ps : List Parameter := [⟨"x", .standard, none, some (.str "\\")⟩,
      ⟨"y", .standard, none, some (.int 1)⟩]
    ps.map Parameter.code = ["x='\\\\'".toList, "y=1".toList] ∧
      splitParams (", ".toList.intercalate (ps.map Parameter.code)) =
        ["x='\\\\', y=1".toList] := by
  decide +kernel

end Parameters

end Signature

end DocSite
