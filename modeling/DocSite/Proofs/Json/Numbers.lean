import DocSite.Json.Reader
import DocSite.Json.Writer
import Mathlib.Algebra.Group.Nat.Defs

namespace DocSite.Json

variable {n : Nat} {cs ds rest : List Char}

/-- What may follow a number: nothing that could be a part of it. -/
def EndsNumber (rest : List Char) : Prop :=
  ∀ c ∈ rest.head?, c.isDigit = false ∧ c ≠ '.' ∧ c ≠ 'e' ∧ c ≠ 'E'

/-- Digits that a whole part may have: a lone zero, or digits after one that is not zero. -/
def WholeDigits (ds : List Char) : Prop :=
  ds = ['0'] ∨ ∃ c cs, ds = c :: cs ∧ c ≠ '0' ∧ ∀ d ∈ ds, d.isDigit = true

theorem takeWhile_digits (hds : ∀ d ∈ ds, d.isDigit = true)
    (hrest : ∀ c ∈ rest.head?, c.isDigit = false) :
    (ds ++ rest).takeWhile isAsciiDigit = ds ∧ (ds ++ rest).dropWhile isAsciiDigit = rest := by
  induction ds with
  | nil =>
    cases rest with
    | nil => simp
    | cons c cs =>
      have hc : isAsciiDigit c = false := hrest c rfl
      simp [hc]
  | cons d ds ih =>
    have hd : isAsciiDigit d = true := hds d (by simp)
    have hrec := ih fun x hx => hds x (by simp [hx])
    simp [hd, hrec]

theorem readWhole_digits (hds : WholeDigits ds) (hrest : ∀ c ∈ rest.head?, c.isDigit = false) :
    readWhole (ds ++ rest) = some (ds, rest) := by
  rcases hds with rfl | ⟨c, cs, rfl, hc, hall⟩
  · rfl
  · have hspan := takeWhile_digits hall hrest
    have hdigit : isAsciiDigit c = true := hall c (by simp)
    rw [List.cons_append] at hspan ⊢
    rw [readWhole]
    · rw [if_pos hdigit, hspan.1, hspan.2]
    · exact hc

theorem toDigits_head (h : 0 < n) : ∃ c cs, Nat.toDigits 10 n = c :: cs ∧ c ≠ '0' := by
  induction n using Nat.strongRecOn with
  | _ n ih =>
    by_cases hlt : n < 10
    · refine ⟨n.digitChar, [], Nat.toDigits_of_lt_base hlt, ?_⟩
      rw [Ne, Nat.digitChar_eq_zero]
      omega
    · obtain ⟨c, cs, hcs, hc⟩ := ih (n / 10) (by omega) (by omega)
      refine ⟨c, cs ++ [(n % 10).digitChar], ?_, hc⟩
      rw [Nat.toDigits_of_base_le (by decide) (Nat.not_lt.mp hlt), hcs, List.cons_append]

theorem isDigit_of_mem_toDigits (n : Nat) : ∀ d ∈ Nat.toDigits 10 n, d.isDigit = true :=
  fun _ hd => Nat.isDigit_of_mem_toDigits (by decide) (by decide) hd

theorem not_mem_int {c : Char} (hc : c.isDigit = false) (hminus : c ≠ '-') (i : Int) :
    c ∉ (toString i).toList := by
  have hdigits (n : Nat) : c ∉ Nat.toDigits 10 n := fun hmem => by
    rw [isDigit_of_mem_toDigits n c hmem] at hc
    cases hc
  rw [Int.toString_eq_repr, Int.repr_eq_if]
  split
  · simpa using hdigits i.toNat
  · simpa [hminus] using hdigits (-i).toNat

theorem wholeDigits_toDigits (n : Nat) : WholeDigits (Nat.toDigits 10 n) := by
  cases Nat.eq_zero_or_pos n with
  | inl h =>
    subst h
    exact .inl rfl
  | inr h =>
    obtain ⟨c, cs, hcs, hc⟩ := toDigits_head h
    have hdigits := isDigit_of_mem_toDigits n
    rw [hcs] at hdigits ⊢
    exact .inr ⟨c, cs, rfl, hc, hdigits⟩

theorem natOf_toDigits (n : Nat) : natOf (Nat.toDigits 10 n) = n := by
  have h := Nat.ofDigitChars_ten_toDigits (n := n)
  rw [Nat.ofDigitChars_eq_foldl] at h
  simpa [natOf, Text.ofDigits, List.foldl_map] using h

theorem EndsNumber.isDigit (h : EndsNumber rest) : ∀ c ∈ rest.head?, c.isDigit = false :=
  fun c hc => (h c hc).1

theorem readFraction_none (h : ∀ c ∈ cs.head?, c ≠ '.') : readFraction cs = ([], cs) := by
  cases cs with
  | nil => rfl
  | cons c cs =>
    have hc := h c rfl
    simp [readFraction, hc]

theorem readPower_none (h : ∀ c ∈ cs.head?, c ≠ 'e' ∧ c ≠ 'E') : readPower cs = (none, cs) := by
  cases cs with
  | nil => rfl
  | cons c cs =>
    have hc := h c rfl
    simp [readPower, hc]

theorem readNumber_whole (negative : Bool) (hds : WholeDigits ds) (hlen : ds.length ≤ digitLimit)
    (hrest : EndsNumber rest) :
    readNumber negative (ds ++ rest) =
      .ok (some (.int (if negative then -(natOf ds : Int) else natOf ds), rest)) := by
  have hfraction := readFraction_none fun c hc => (hrest c hc).2.1
  have hpower := readPower_none fun c hc => (hrest c hc).2.2
  simp [readNumber, readWhole_digits hds hrest.isDigit, hfraction, hpower, Nat.not_lt.mpr hlen]

theorem readFraction_digits (hne : ds ≠ []) (hds : ∀ d ∈ ds, d.isDigit = true)
    (hrest : ∀ c ∈ rest.head?, c.isDigit = false) :
    readFraction ('.' :: (ds ++ rest)) = (ds, rest) := by
  have hspan := takeWhile_digits hds hrest
  simp [readFraction, hspan, hne]

/-- The sign and the digits of a power of ten. -/
def PowerText (cs : List Char) : Prop :=
  ∃ sign ds, cs = sign :: ds ∧ (sign = '-' ∨ sign = '+') ∧ ds ≠ [] ∧ ∀ d ∈ ds, d.isDigit = true

/-- The forms that a double is written in. -/
inductive DoubleText : List Char → Prop
  | fraction {ds fs : List Char} (hds : WholeDigits ds) (hne : fs ≠ [])
      (hfs : ∀ d ∈ fs, d.isDigit = true) : DoubleText (ds ++ '.' :: fs)
  | power {ds ps : List Char} (hds : WholeDigits ds) (hps : PowerText ps) :
      DoubleText (ds ++ 'e' :: ps)
  | both {ds fs ps : List Char} (hds : WholeDigits ds) (hne : fs ≠ [])
      (hfs : ∀ d ∈ fs, d.isDigit = true) (hps : PowerText ps) :
      DoubleText (ds ++ '.' :: (fs ++ 'e' :: ps))

theorem readPower_powerText {ps : List Char} (hps : PowerText ps)
    (hrest : ∀ c ∈ rest.head?, c.isDigit = false) :
    ∃ p, readPower ('e' :: (ps ++ rest)) = (some p, rest) := by
  obtain ⟨sign, ds, rfl, hsign, hne, hds⟩ := hps
  have hspan := takeWhile_digits hds hrest
  rcases hsign with rfl | rfl <;> exact ⟨_, by simp [readPower, hspan, hne]; rfl⟩

theorem readNumber_fraction (negative : Bool) {fs tail : List Char} {p : Option Int}
    (hds : WholeDigits ds) (hne : fs ≠ []) (hfs : ∀ d ∈ fs, d.isDigit = true)
    (htail : ∀ c ∈ tail.head?, c.isDigit = false) (hpower : readPower tail = (p, rest)) :
    ∃ x, readNumber negative (ds ++ '.' :: (fs ++ tail)) = .ok (some (.float x, rest)) := by
  have hwhole : readWhole (ds ++ '.' :: (fs ++ tail)) = some (ds, '.' :: (fs ++ tail)) :=
    readWhole_digits hds (by simp)
  have hfraction := readFraction_digits hne hfs htail
  exact ⟨_, by simp [readNumber, hwhole, hfraction, hpower, hne]; rfl⟩

theorem readNumber_power (negative : Bool) {tail : List Char} {p : Int} (hds : WholeDigits ds)
    (hpower : readPower ('e' :: tail) = (some p, rest)) :
    ∃ x, readNumber negative (ds ++ 'e' :: tail) = .ok (some (.float x, rest)) := by
  have hwhole : readWhole (ds ++ 'e' :: tail) = some (ds, 'e' :: tail) :=
    readWhole_digits hds (by simp)
  have hfraction : readFraction ('e' :: tail) = ([], 'e' :: tail) :=
    readFraction_none (by simp)
  exact ⟨_, by simp [readNumber, hwhole, hfraction, hpower]; rfl⟩

theorem readNumber_doubleText (negative : Bool) (h : DoubleText cs) (hrest : EndsNumber rest) :
    ∃ x, readNumber negative (cs ++ rest) = .ok (some (.float x, rest)) := by
  have hpower : readPower rest = (none, rest) := readPower_none fun c hc => (hrest c hc).2.2
  cases h with
  | fraction hds hne hfs =>
    rw [List.append_assoc, List.cons_append]
    exact readNumber_fraction negative hds hne hfs hrest.isDigit hpower
  | power hds hps =>
    obtain ⟨p, hp⟩ := readPower_powerText hps hrest.isDigit
    rw [List.append_assoc, List.cons_append]
    exact readNumber_power negative hds hp
  | both hds hne hfs hps =>
    obtain ⟨p, hp⟩ := readPower_powerText hps hrest.isDigit
    rw [List.append_assoc, List.cons_append, List.append_assoc, List.cons_append]
    exact readNumber_fraction negative hds hne hfs (by simp) hp

theorem wholeDigits_append {zs : List Char} (hn : 0 < n) (hzs : ∀ d ∈ zs, d.isDigit = true) :
    WholeDigits (Nat.toDigits 10 n ++ zs) := by
  obtain ⟨c, cs, hcs, hc⟩ := toDigits_head hn
  have hdigits := isDigit_of_mem_toDigits n
  rw [hcs] at hdigits ⊢
  refine .inr ⟨c, cs ++ zs, rfl, hc, ?_⟩
  exact List.forall_mem_append.mpr ⟨hdigits, hzs⟩

theorem wholeDigits_take {k : Nat} (hn : 0 < n) (hk : 0 < k) :
    WholeDigits ((Nat.toDigits 10 n).take k) := by
  obtain ⟨c, cs, hcs, hc⟩ := toDigits_head hn
  obtain ⟨j, rfl⟩ := Nat.exists_eq_succ_of_ne_zero (Nat.pos_iff_ne_zero.mp hk)
  have hdigits := isDigit_of_mem_toDigits n
  rw [hcs] at hdigits ⊢
  exact .inr ⟨c, cs.take j, rfl, hc, fun d hd => hdigits d (List.mem_of_mem_take hd)⟩

theorem powerText_exponent (n : Nat) (negative : Prop) [Decidable negative] :
    PowerText ((if negative then '-' else '+') ::
      (if (toString n).length < 2 then "0" ++ toString n else toString n).toList) := by
  have hdigits := isDigit_of_mem_toDigits n
  refine ⟨_, _, rfl, by split <;> simp, ?_, ?_⟩
  · split <;> simp
  · split
    · simpa using hdigits
    · simpa using hdigits

/-- Every double is laid out in one of the forms. -/
theorem doubleText_layOut (digits : Nat) (scale : Int) :
    DoubleText (Double.layOut digits scale).toList := by
  rcases htrim : Double.trimZeros 20 digits scale with ⟨n, k⟩
  have hdigits := isDigit_of_mem_toDigits n
  have hlength : (toString n).length = (Nat.toDigits 10 n).length := by simp [String.length]
  have hlist : (toString n).toList = Nat.toDigits 10 n := Nat.toList_repr
  simp only [Double.layOut, htrim, hlength, hlist]
  split
  · have hform : DoubleText (['0'] ++ '.' :: ['0']) := .fraction (.inl rfl) (by simp) (by simp)
    exact hform
  rename_i hn
  have hpos : 0 < n := Nat.pos_of_ne_zero hn
  have hzeros (m : Nat) : ∀ d ∈ List.replicate m '0', d.isDigit = true := by
    intro d hd
    rw [(List.mem_replicate.mp hd).2]
    rfl
  split
  · -- with no power of ten: less than one, whole, or with digits on both sides of the point
    rename_i hpoint
    split
    · have hform (m : Nat) : DoubleText (['0'] ++ '.' ::
          (List.replicate m '0' ++ Nat.toDigits 10 n)) :=
        .fraction (.inl rfl) (by simp) (List.forall_mem_append.mpr ⟨hzeros m, hdigits⟩)
      simpa [hlist] using hform _
    · rename_i hwhole
      split
      · have hform (m : Nat) : DoubleText (Nat.toDigits 10 n ++ List.replicate m '0' ++
            '.' :: ['0']) :=
          .fraction (wholeDigits_append hpos (hzeros m)) (by simp) (by simp)
        simpa [hlist] using hform _
      · rename_i hscale
        have hform (m : Nat) (hm : 0 < m) (hlt : m < (Nat.toDigits 10 n).length) :
            DoubleText ((Nat.toDigits 10 n).take m ++ '.' :: (Nat.toDigits 10 n).drop m) :=
          .fraction (wholeDigits_take hpos hm) (by simp; omega)
            fun d hd => hdigits d (List.mem_of_mem_drop hd)
        simpa using hform ((Nat.toDigits 10 n).length + k).toNat (by omega) (by omega)
  · have hpower := powerText_exponent ((Nat.toDigits 10 n).length + k - 1).natAbs
      ((Nat.toDigits 10 n).length + k - 1 < 0)
    have hhead : WholeDigits ((Nat.toDigits 10 n).take 1) := wholeDigits_take hpos (by decide)
    have hsign : (if (Nat.toDigits 10 n).length + k - 1 < 0 then "e-" else "e+").toList =
        ['e', if (Nat.toDigits 10 n).length + k - 1 < 0 then '-' else '+'] := by
      split <;> rfl
    simp only [String.toList_append, String.toList_ofList, hsign]
    cases htail : (Nat.toDigits 10 n).drop 1 with
    | nil => simpa using DoubleText.power hhead hpower
    | cons d ds =>
      have htaildigits : ∀ x ∈ d :: ds, x.isDigit = true := by
        intro x hx
        rw [← htail] at hx
        exact hdigits x (List.mem_of_mem_drop hx)
      simpa using DoubleText.both hhead (List.cons_ne_nil d ds) htaildigits hpower

theorem WholeDigits.head (h : WholeDigits ds) : ∃ c cs, ds = c :: cs ∧ c.isDigit = true := by
  rcases h with rfl | ⟨c, cs, rfl, -, hall⟩
  · exact ⟨_, _, rfl, rfl⟩
  · exact ⟨c, cs, rfl, hall c (by simp)⟩

theorem DoubleText.head (h : DoubleText cs) : ∃ c ds, cs = c :: ds ∧ c.isDigit = true := by
  cases h with
  | fraction hds =>
    obtain ⟨c, cs, rfl, hc⟩ := hds.head
    exact ⟨c, _, rfl, hc⟩
  | power hds =>
    obtain ⟨c, cs, rfl, hc⟩ := hds.head
    exact ⟨c, _, rfl, hc⟩
  | both hds =>
    obtain ⟨c, cs, rfl, hc⟩ := hds.head
    exact ⟨c, _, rfl, hc⟩

theorem ne_of_isDigit {c d : Char} (hc : c.isDigit = true) (hd : d.isDigit = false) : c ≠ d := by
  rintro rfl
  simp [hc] at hd

/-- A text that begins with a digit can only be a number. -/
theorem readKeyword_digit {c : Char} (hc : c.isDigit = true) (cs : List Char) :
    readKeyword (c :: cs) = readNumber false (c :: cs) ∧
      readKeyword ('-' :: c :: cs) = readNumber true (c :: cs) := by
  have hne (d : Char) (hd : d.isDigit = false) : c ≠ d := ne_of_isDigit hc hd
  constructor
  · rw [readKeyword]
    · simp [hne 'n' rfl]
    · simp [hne 't' rfl]
    · simp [hne 'f' rfl]
    · simp [hne 'N' rfl]
    · simp [hne 'I' rfl]
    · simp [hne '-' rfl]
    · simp [hne '-' rfl]
  · rw [readKeyword]
    simp [hne 'I' rfl]

theorem readKeyword_int {n : Int} (hn : n.natAbs < 10 ^ digitLimit) (hrest : EndsNumber rest) :
    readKeyword ((toString n).toList ++ rest) = .ok (some (.int n, rest)) := by
  have hdigits (m : Nat) (hm : m < 10 ^ digitLimit) (negative : Bool) :=
    readNumber_whole negative (wholeDigits_toDigits m)
      ((Nat.length_toDigits_le_iff (by decide) (by decide)).mpr hm) hrest
  have hhead (m : Nat) : ∃ c cs, Nat.toDigits 10 m = c :: cs ∧ c.isDigit = true :=
    (wholeDigits_toDigits m).head
  rw [Int.toString_eq_repr, Int.repr_eq_if]
  split
  · rename_i hle
    obtain ⟨c, cs, hcs, hc⟩ := hhead n.toNat
    have hread := hdigits n.toNat (by omega) false
    rw [natOf_toDigits] at hread
    rw [Nat.toList_repr]
    rw [hcs, List.cons_append] at hread ⊢
    rw [(readKeyword_digit hc _).1, hread]
    simp [Int.toNat_of_nonneg hle]
  · rename_i hlt
    obtain ⟨c, cs, hcs, hc⟩ := hhead (-n).toNat
    have hread := hdigits (-n).toNat (by omega) true
    have hvalue : -((-n).toNat : Int) = n := by omega
    have hminus : "-".toList = ['-'] := rfl
    rw [natOf_toDigits] at hread
    rw [String.toList_append, Nat.toList_repr, hminus]
    rw [hcs, List.cons_append] at hread
    rw [hcs, List.append_assoc, List.singleton_append, List.cons_append,
      (readKeyword_digit hc _).2, hread, if_pos rfl, hvalue]

/-- A finite number starts with a digit, behind its sign. -/
theorem exists_floatText (m : Nat) (e : Int) : ∃ c cs, c.isDigit = true ∧ DoubleText (c :: cs) ∧
    (floatText (.finite false m e)).toList = c :: cs ∧
    (floatText (.finite true m e)).toList = '-' :: c :: cs := by
  have hform := doubleText_layOut (Double.shortest m e).1 (Double.shortest m e).2
  obtain ⟨c, cs, hcs, hc⟩ := hform.head
  exact ⟨c, cs, hc, hcs ▸ hform, by simpa [floatText, Double.text] using hcs,
    by simpa [floatText, Double.text] using hcs⟩

theorem readKeyword_float (x : Double) (hrest : EndsNumber rest) :
    ∃ y, readKeyword ((floatText x).toList ++ rest) = .ok (some (.float y, rest)) := by
  cases x with
  | undefined => exact ⟨_, rfl⟩
  | infinite negative => cases negative <;> exact ⟨_, rfl⟩
  | finite negative m e =>
    obtain ⟨c, cs, hc, hform, htext, hsigned⟩ := exists_floatText m e
    obtain ⟨y, hy⟩ := readNumber_doubleText negative hform hrest
    refine ⟨y, ?_⟩
    cases negative with
    | false =>
      rw [htext]
      exact ((readKeyword_digit hc _).1).trans hy
    | true =>
      rw [hsigned]
      exact ((readKeyword_digit hc _).2).trans hy

theorem foldl_digits_lt (h : ∀ d ∈ ds, d.isDigit = true) (a : Nat) :
    ds.foldl (fun n d => 10 * n + (d.toNat - 48)) a < (a + 1) * 10 ^ ds.length := by
  induction ds generalizing a with
  | nil => simp
  | cons d ds ih =>
    have hd := (Char.isDigit_iff_toNat.mp (h d (by simp))).2
    have hle : 10 * a + (d.toNat - 48) + 1 ≤ (a + 1) * 10 := by
      simp only [Char.reduceToNat] at hd
      omega
    calc ds.foldl (fun n d => 10 * n + (d.toNat - 48)) (10 * a + (d.toNat - 48))
        < (10 * a + (d.toNat - 48) + 1) * 10 ^ ds.length := ih (fun x hx => h x (by simp [hx])) _
      _ ≤ (a + 1) * 10 * 10 ^ ds.length := Nat.mul_le_mul_right _ hle
      _ = (a + 1) * 10 ^ (ds.length + 1) := by rw [Nat.pow_succ', Nat.mul_assoc]

theorem natOf_lt (h : ∀ d ∈ ds, d.isDigit = true) : natOf ds < 10 ^ ds.length := by
  simpa [natOf, Text.ofDigits, List.foldl_map] using foldl_digits_lt h 0

theorem isDigit_of_readWhole (h : readWhole cs = some (ds, rest)) :
    ∀ d ∈ ds, d.isDigit = true := by
  unfold readWhole at h
  split at h
  · obtain ⟨rfl, -⟩ := Prod.mk.inj (Option.some.inj h)
    simp
  · split at h
    · obtain ⟨rfl, -⟩ := Prod.mk.inj (Option.some.inj h)
      exact List.all_eq_true.mp List.all_takeWhile
    · cases h
  · cases h

/-- A whole number that is read has no more digits than may be read. -/
theorem readNumber_cases {negative : Bool} {v : Json}
    (h : readNumber negative cs = .ok (some (v, rest))) :
    (∃ n : Int, v = .int n ∧ n.natAbs < 10 ^ digitLimit) ∨ ∃ x, v = .float x := by
  unfold readNumber at h
  cases hwhole : readWhole cs with
  | none => simp [hwhole] at h
  | some found =>
    obtain ⟨ds, r⟩ := found
    simp only [hwhole] at h
    split at h
    · split at h
      · cases h
      · rename_i hlen
        have hlt := natOf_lt (isDigit_of_readWhole hwhole)
        have hle : 10 ^ ds.length ≤ 10 ^ digitLimit :=
          Nat.pow_le_pow_right (by decide) (Nat.not_lt.mp hlen)
        simp only [Except.ok.injEq, Option.some.injEq, Prod.mk.injEq] at h
        refine .inl ⟨_, h.1.symm, Nat.lt_of_lt_of_le ?_ hle⟩
        split <;> simpa using hlt
    · simp only [Except.ok.injEq, Option.some.injEq, Prod.mk.injEq] at h
      exact .inr ⟨_, h.1.symm⟩

theorem readKeyword_cases {v : Json} (h : readKeyword cs = .ok (some (v, rest))) :
    v = .null ∨ (∃ b, v = .bool b) ∨
      (∃ n : Int, v = .int n ∧ n.natAbs < 10 ^ digitLimit) ∨ ∃ x, v = .float x := by
  unfold readKeyword at h
  split at h
  all_goals first
    | exact .inr (.inr (readNumber_cases h))
    | cases h
  all_goals simp

end DocSite.Json
