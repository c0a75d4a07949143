import DocSite.Json.Reader
import DocSite.Json.Writer
import DocSite.Proofs.Fields
import Mathlib.Data.List.Chain

namespace DocSite.Json

open Text

variable {c d : Char} {u n : Nat} {cs rest : List Char}

attribute [local simp] readUnits joinUnits

theorem toNat_range (c : Char) : c.toNat < 0xd800 ∨ 0xdfff < c.toNat ∧ c.toNat < 0x110000 :=
  c.valid

theorem toNat_ofNat (h : n < 0xd800 ∨ 0xdfff < n ∧ n < 0x110000) : (Char.ofNat n).toNat = n := by
  have hvalid : n.isValidChar := h
  rw [Char.ofNat, dif_pos hvalid]
  rfl

theorem half?_eq_none : half? c = none ↔ c.toNat < firstHeld := by
  simp [half?]

theorem half?_eq_some (h : half? c = some u) :
    firstHeld ≤ c.toNat ∧ u = 0xd800 + (c.toNat - firstHeld) := by
  by_cases hle : firstHeld ≤ c.toNat
  · rw [half?, if_pos hle] at h
    exact ⟨hle, (Option.some.inj h).symm⟩
  · rw [half?, if_neg hle] at h
    cases h

theorem isHalf_iff : isHalf u = true ↔ 0xd800 ≤ u ∧ u < 0xe000 := by
  simp [isHalf]

theorem isHalf_of_half? (h : half? c = some u) : isHalf u = true := by
  obtain ⟨hle, hu⟩ := half?_eq_some h
  have hc := toNat_range c
  have hf : firstHeld = 0x10f800 := rfl
  exact isHalf_iff.mpr (by omega)

theorem heldHalf_of_half? (h : half? c = some u) : heldHalf u = c := by
  obtain ⟨hle, hu⟩ := half?_eq_some h
  have hn : firstHeld + (u - 0xd800) = c.toNat := by omega
  rw [heldHalf, hn, Char.ofNat_toNat]

theorem half?_heldHalf (h : isHalf u = true) : half? (heldHalf u) = some u := by
  have hu := isHalf_iff.mp h
  have hf : firstHeld = 0x10f800 := rfl
  have hn : (heldHalf u).toNat = firstHeld + (u - 0xd800) := toNat_ofNat (by omega)
  rw [half?, hn, if_pos (by omega)]
  exact congrArg some (by omega)

theorem joined?_eq_some {hi lo : Nat} (h : joined? hi lo = some c) :
    (0xd800 ≤ hi ∧ hi < 0xdc00) ∧ (0xdc00 ≤ lo ∧ lo < 0xe000) ∧
      c.toNat = 0x10000 + (hi - 0xd800) * 0x400 + (lo - 0xdc00) ∧ c.toNat < firstHeld := by
  simp only [joined?] at h
  split at h
  · rename_i hrange
    simp only [Bool.and_eq_true, decide_eq_true_eq] at hrange
    obtain ⟨⟨⟨⟨h1, h2⟩, h3⟩, h4⟩, h5⟩ := hrange
    have hf : firstHeld = 0x10f800 := rfl
    have hn := toNat_ofNat (n := 0x10000 + (hi - 0xd800) * 0x400 + (lo - 0xdc00)) (by omega)
    rw [← Option.some.inj h, hn]
    exact ⟨⟨h1, h2⟩, ⟨h3, h4⟩, rfl, h5⟩
  · cases h

theorem joined?_halves (hc : 0x10000 ≤ c.toNat) (hheld : c.toNat < firstHeld) :
    joined? (0xd800 + (c.toNat - 0x10000) / 0x400) (0xdc00 + (c.toNat - 0x10000) % 0x400) =
      some c := by
  have hf : firstHeld = 0x10f800 := rfl
  have hn : 0x10000 + (0xd800 + (c.toNat - 0x10000) / 0x400 - 0xd800) * 0x400 +
      (0xdc00 + (c.toNat - 0x10000) % 0x400 - 0xdc00) = c.toNat := by omega
  have h1 : 0xd800 + (c.toNat - 0x10000) / 0x400 < 0xdc00 := by omega
  have h2 : 0xdc00 + (c.toNat - 0x10000) % 0x400 < 0xe000 := by omega
  simp only [joined?, hn, hheld, h1, h2, Nat.le_add_right, decide_true, Bool.and_self, if_true,
    Char.ofNat_toNat]

/-- The sixteen-bit units of a character, or the half it holds. -/
def charUnits (c : Char) : List Nat :=
  match half? c with
  | some u => [u]
  | none =>
    if c.toNat < 0x10000 then [c.toNat]
    else [0xd800 + (c.toNat - 0x10000) / 0x400, 0xdc00 + (c.toNat - 0x10000) % 0x400]

theorem hexValue?_hexDigit {n : Nat} (h : n < 16) : hexValue? (hexDigit n) = some n := by
  have hall : ∀ n : Fin 16, hexValue? (hexDigit n) = some n.val := by decide
  exact hall ⟨n, h⟩

theorem readUnits_escapeUnit (opened : Nat) (hu : u < 0x10000) (hne : cs ≠ []) :
    readUnits opened (escapeUnit u ++ cs) =
      (readUnits opened cs).map fun (us, rest) => (u :: us, rest) := by
  have hsum : 4096 * (u / 16 / 16 / 16 % 16) + 256 * (u / 16 / 16 % 16) + 16 * (u / 16 % 16) +
      u % 16 = u := by omega
  have hdigit (n : Nat) : hexValue? (hexDigit (n % 16)) = some (n % 16) :=
    hexValue?_hexDigit (Nat.mod_lt _ (by decide))
  simp [escapeUnit, hex, hdigit, hne, hsum]

theorem readUnits_plain (opened : Nat) (hquote : c ≠ '\x22') (hslash : c ≠ '\\')
    (hc : 32 ≤ c.toNat) (cs : List Char) :
    readUnits opened (c :: cs) =
      (readUnits opened cs).map fun (us, rest) => ((half? c).getD c.toNat :: us, rest) := by
  rw [readUnits]
  · rw [if_neg (Nat.not_lt.mpr hc)]
  all_goals simp [hquote, hslash]

theorem charUnits_low (h : c.toNat < 0x10000) : charUnits c = [c.toNat] := by
  have hhalf : half? c = none := half?_eq_none.mpr (Nat.lt_trans h (by decide))
  simp only [charUnits, hhalf, if_pos h]

theorem readUnits_simple (opened : Nat) (h : simpleEscape? d = some c.toNat)
    (hc : c.toNat < 0x10000) (hd : d ≠ 'u') (cs : List Char) :
    readUnits opened ('\\' :: d :: cs) =
      (readUnits opened cs).map fun (us, rest) => (charUnits c ++ us, rest) := by
  rw [readUnits]
  · simp only [h, charUnits_low hc]
    rfl
  all_goals simp [hd]

/-- Reading an escaped character gives its units. -/
theorem readUnits_escapeChar (opened : Nat) (c : Char) (hne : cs ≠ []) :
    readUnits opened (escapeChar c ++ cs) =
      (readUnits opened cs).map fun (us, rest) => (charUnits c ++ us, rest) := by
  have hshort (d : Char) (hd : simpleEscape? d = some c.toNat) (hu : d ≠ 'u')
      (hlow : c.toNat < 0x10000) := readUnits_simple opened hd hlow hu cs
  unfold escapeChar
  by_cases hquote : c = '\x22'
  · subst hquote
    exact hshort _ rfl (by decide) (by decide)
  by_cases hslash : c = '\\'
  · subst hslash
    exact hshort _ rfl (by decide) (by decide)
  by_cases hline : c = '\n'
  · subst hline
    exact hshort 'n' rfl (by decide) (by decide)
  by_cases hreturn : c = '\r'
  · subst hreturn
    exact hshort 'r' rfl (by decide) (by decide)
  by_cases htab : c = '\t'
  · subst htab
    exact hshort 't' rfl (by decide) (by decide)
  by_cases hback : c.toNat = 8
  · simp only [hquote, hslash, hline, hreturn, htab, hback, if_true, if_false]
    exact hshort 'b' (by rw [hback]; rfl) (by decide) (by omega)
  by_cases hfeed : c.toNat = 12
  · simp only [hquote, hslash, hline, hreturn, htab, hfeed, if_true, if_false]
    exact hshort 'f' (by rw [hfeed]; rfl) (by decide) (by omega)
  simp only [hquote, hslash, hline, hreturn, htab, hback, hfeed, if_false]
  by_cases hplain : (decide (32 ≤ c.toNat) && decide (c.toNat ≤ 126)) = true
  · simp only [hplain, if_true]
    simp only [Bool.and_eq_true, decide_eq_true_eq] at hplain
    have hhalf : half? c = none := half?_eq_none.mpr (Nat.lt_of_le_of_lt hplain.2 (by decide))
    rw [charUnits_low (by omega)]
    simpa [hhalf] using readUnits_plain opened hquote hslash hplain.1 cs
  by_cases hlow : c.toNat < 0x10000
  · simp only [hplain, hlow, if_true]
    rw [charUnits_low hlow]
    exact readUnits_escapeUnit opened hlow hne
  · simp only [hplain, hlow, Bool.false_eq_true, if_false]
    cases hhalf : half? c with
    | some u =>
      have hu := isHalf_iff.mp (isHalf_of_half? hhalf)
      simp only [charUnits, hhalf]
      exact readUnits_escapeUnit opened (by omega) hne
    | none =>
      have hc := toNat_range c
      simp only [charUnits, hhalf, hlow, if_false]
      rw [List.append_assoc, readUnits_escapeUnit opened (by omega) (by simp [escapeUnit]),
        readUnits_escapeUnit opened (by omega) hne]
      cases readUnits opened cs <;> rfl

theorem readUnits_quoted (opened : Nat) (cs rest : List Char) :
    readUnits opened (cs.flatMap escapeChar ++ '\x22' :: rest) =
      .ok (cs.flatMap charUnits, rest) := by
  induction cs with
  | nil => simp
  | cons c cs ih =>
    rw [List.flatMap_cons, List.append_assoc, readUnits_escapeChar opened c (by simp), ih]
    rfl

/-- Two characters that are no halves of one. -/
def Apart (c d : Char) : Prop :=
  ∀ hi lo, half? c = some hi → half? d = some lo → joined? hi lo = none

/-- A text in which no two halves of a character follow each other. -/
def Settled (cs : List Char) : Prop := cs.IsChain Apart

theorem unitChar_half (h : half? c = some u) : unitChar u = c := by
  rw [unitChar, if_pos (isHalf_of_half? h), heldHalf_of_half? h]

theorem unitChar_toNat (c : Char) : unitChar c.toNat = c := by
  have hc := toNat_range c
  have hnot : ¬ isHalf c.toNat = true := by
    rw [isHalf_iff]
    omega
  rw [unitChar, if_neg hnot, Char.ofNat_toNat]

/-- The second half of a character, as the first unit of another, is a half that is held. -/
theorem half?_of_charUnits {us : List Nat} (h : charUnits d = u :: us) (hu : 0xdc00 ≤ u)
    (hu' : u < 0xe000) : half? d = some u := by
  have hd := toNat_range d
  unfold charUnits at h
  cases hhalf : half? d with
  | some v =>
    simp only [hhalf, List.cons.injEq] at h
    rw [h.1]
  | none =>
    simp only [hhalf] at h
    split at h
    · simp only [List.cons.injEq] at h
      omega
    · simp only [List.cons.injEq] at h
      omega

theorem charUnits_ne_nil (c : Char) : charUnits c ≠ [] := by
  unfold charUnits
  split
  · simp
  · split <;> simp

theorem joinUnits_single (hjoin : ∀ d ds, cs = d :: ds → ∀ lo los, charUnits d = lo :: los →
    joined? u lo = none) :
    joinUnits (u :: cs.flatMap charUnits) = unitChar u :: joinUnits (cs.flatMap charUnits) := by
  cases cs with
  | nil => rfl
  | cons d ds =>
    obtain ⟨lo, los, hlo⟩ := List.exists_cons_of_ne_nil (charUnits_ne_nil d)
    rw [List.flatMap_cons, hlo, List.cons_append, joinUnits, hjoin d ds rfl lo los hlo]

/-- Units are joined to the characters they came from. -/
theorem joinUnits_charUnits (h : Settled cs) : joinUnits (cs.flatMap charUnits) = cs := by
  induction cs with
  | nil => rfl
  | cons c cs ih =>
    have hrest := ih h.tail
    have hnone (u : Nat) (hu : u < 0xd800 ∨ 0xdc00 ≤ u) (lo : Nat) : joined? u lo = none := by
      cases hj : joined? u lo with
      | none => rfl
      | some x =>
        have hx := joined?_eq_some hj
        omega
    cases hhalf : half? c with
    | some u =>
      have hc : charUnits c = [u] := by simp only [charUnits, hhalf]
      rw [List.flatMap_cons, hc, List.singleton_append, joinUnits_single, unitChar_half hhalf,
        hrest]
      -- no half follows that this one is joined with, since the text is settled
      intro d ds hcs lo los hlo
      cases hj : joined? u lo with
      | none => rfl
      | some x =>
        obtain ⟨-, ⟨hlo1, hlo2⟩, -⟩ := joined?_eq_some hj
        have hd := half?_of_charUnits hlo hlo1 hlo2
        subst hcs
        have hapart := (List.isChain_cons_cons.mp h).1 u lo hhalf hd
        rw [← hj, hapart]
    | none =>
      have hlt := half?_eq_none.mp hhalf
      have hc := toNat_range c
      by_cases hlow : c.toNat < 0x10000
      · rw [List.flatMap_cons, charUnits_low hlow, List.singleton_append, joinUnits_single,
          unitChar_toNat c, hrest]
        intro d ds _ lo los _
        exact hnone _ (by omega) lo
      · have hunits : charUnits c = [0xd800 + (c.toNat - 0x10000) / 0x400,
            0xdc00 + (c.toNat - 0x10000) % 0x400] := by
          simp only [charUnits, hhalf, hlow, if_false]
        rw [List.flatMap_cons, hunits]
        simp only [List.cons_append, List.nil_append, joinUnits,
          joined?_halves (Nat.not_lt.mp hlow) hlt, hrest]

theorem readString_quoted (h : Settled cs) (rest : List Char) :
    readString (cs.flatMap escapeChar ++ '\x22' :: rest) = .ok (String.ofList cs, rest) := by
  rw [readString, readUnits_quoted]
  simp only [Except.map, joinUnits_charUnits h]

theorem hexValue?_lt (h : hexValue? c = some u) : u < 16 := by
  simp only [hexValue?, Bool.and_eq_true, decide_eq_true_eq] at h
  split at h
  · have := Option.some.inj h
    omega
  · split at h
    · have := Option.some.inj h
      omega
    · split at h
      · have := Option.some.inj h
        omega
      · cases h

theorem simpleEscape?_lt (h : simpleEscape? c = some u) : u < 128 := by
  unfold simpleEscape? at h
  split at h <;> cases h <;> decide

theorem unit_lt (c : Char) : (half? c).getD c.toNat < firstHeld := by
  cases hhalf : half? c with
  | some u =>
    have hu := isHalf_iff.mp (isHalf_of_half? hhalf)
    exact Nat.lt_trans hu.2 (by decide)
  | none => exact half?_eq_none.mp hhalf

/-- No unit that is read is a character that holds a half. -/
theorem readUnits_lt {opened : Nat} {us : List Nat} (h : readUnits opened cs = .ok (us, rest)) :
    ∀ u ∈ us, u < firstHeld := by
  fun_induction readUnits opened cs generalizing us with
  | case2 =>
    cases h
    simp
  | case4 a b c d cs w x y z hz hy hx hw hne ih =>
    obtain ⟨⟨vs, r⟩, hvs, hmap⟩ := Attempt.map_eq_ok.mp h
    obtain ⟨rfl, rfl⟩ := Prod.mk.inj hmap
    have hsum : 4096 * w + 256 * x + 16 * y + z < 0x10000 := by
      have := hexValue?_lt hw
      have := hexValue?_lt hx
      have := hexValue?_lt hy
      have := hexValue?_lt hz
      omega
    exact List.forall_mem_cons.mpr ⟨Nat.lt_trans hsum (by decide), ih hvs⟩
  | case7 c cs _ _ n hn ih =>
    obtain ⟨⟨vs, r⟩, hvs, hmap⟩ := Attempt.map_eq_ok.mp h
    obtain ⟨rfl, rfl⟩ := Prod.mk.inj hmap
    exact List.forall_mem_cons.mpr ⟨Nat.lt_trans (simpleEscape?_lt hn) (by decide), ih hvs⟩
  | case11 c cs _ _ _ _ _ hc ih =>
    obtain ⟨⟨vs, r⟩, hvs, hmap⟩ := Attempt.map_eq_ok.mp h
    obtain ⟨rfl, rfl⟩ := Prod.mk.inj hmap
    exact List.forall_mem_cons.mpr ⟨unit_lt c, ih hvs⟩
  | _ => cases h

theorem half?_unitChar (h : u < firstHeld) {v : Nat} (hv : half? (unitChar u) = some v) : v = u := by
  unfold unitChar at hv
  split at hv
  · rename_i hhalf
    rw [half?_heldHalf hhalf] at hv
    exact (Option.some.inj hv).symm
  · by_cases hvalid : u < 0xd800 ∨ 0xdfff < u ∧ u < 0x110000
    · rw [half?_eq_none.mpr (by rw [toNat_ofNat hvalid]; exact h)] at hv
      cases hv
    · rename_i hhalf
      rw [isHalf_iff] at hhalf
      have hf : firstHeld = 0x10f800 := rfl
      omega

theorem half?_head_joinUnits {lo v : Nat} {us : List Nat} (h : lo < firstHeld)
    (hc : c ∈ (joinUnits (lo :: us)).head?) (hv : half? c = some v) : v = lo := by
  have hsingle (hc : c = unitChar lo) : v = lo := half?_unitChar h (by rw [← hc]; exact hv)
  cases us with
  | nil => exact hsingle (by simpa [eq_comm] using hc)
  | cons u us =>
    cases hj : joined? lo u with
    | none => exact hsingle (by simpa [hj, eq_comm] using hc)
    | some x =>
      obtain rfl : x = c := by simpa [hj] using hc
      rw [half?_eq_none.mpr (joined?_eq_some hj).2.2.2] at hv
      cases hv

/-- What units are joined to is settled. -/
theorem settled_joinUnits {us : List Nat} (h : ∀ u ∈ us, u < firstHeld) :
    Settled (joinUnits us) := by
  fun_induction joinUnits us with
  | case1 => exact .nil
  | case2 hi lo us c hj ih =>
    refine List.isChain_cons.mpr ⟨fun d _ u v hu _ => ?_, ih fun u hu => h u (by simp [hu])⟩
    rw [half?_eq_none.mpr (joined?_eq_some hj).2.2.2] at hu
    cases hu
  | case3 hi lo us hj ih =>
    have hrest : ∀ u ∈ lo :: us, u < firstHeld := fun u hu => h u (by simp [hu])
    refine List.isChain_cons.mpr ⟨fun d hd u v hu hv => ?_, ih hrest⟩
    rw [half?_unitChar (h hi (by simp)) hu, half?_head_joinUnits (hrest lo (by simp)) hd hv]
    exact hj
  | case4 u => exact .singleton _

theorem settled_readString {s : String} (h : readString cs = .ok (s, rest)) : Settled s.toList := by
  obtain ⟨⟨us, r⟩, hus, hmap⟩ := Attempt.map_eq_ok.mp h
  rw [← (Prod.mk.inj hmap).1, String.toList_ofList]
  exact settled_joinUnits (readUnits_lt hus)

theorem settled_of_whole (h : ∀ c ∈ cs, half? c = none) : Settled cs := by
  induction cs with
  | nil => exact .nil
  | cons c cs ih =>
    refine List.isChain_cons.mpr ⟨fun d _ hi lo hhi _ => ?_, ih fun x hx => h x (by simp [hx])⟩
    rw [h c (by simp)] at hhi
    cases hhi

theorem settled_of_all {s : String} (h : (s.toList.all fun c => (half? c).isNone) = true) :
    Settled s.toList :=
  settled_of_whole fun c hc => Option.isNone_iff_eq_none.mp (List.all_eq_true.mp h c hc)

/-- No halves are joined across a slash. -/
theorem settled_slash {as bs : List Char} :
    Settled (as ++ '/' :: bs) ↔ Settled as ∧ Settled bs := by
  have hslash : half? '/' = none := rfl
  have hleft (c : Char) : Apart c '/' := fun hi lo _ hlo => by
    rw [hslash] at hlo
    cases hlo
  have hright (c : Char) : Apart '/' c := fun hi lo hhi _ => by
    rw [hslash] at hhi
    cases hhi
  rw [Settled, Settled, Settled, List.isChain_append, List.isChain_cons]
  constructor
  · rintro ⟨has, ⟨-, hbs⟩, -⟩
    exact ⟨has, hbs⟩
  · rintro ⟨has, hbs⟩
    refine ⟨has, ⟨fun c _ => hright c, hbs⟩, fun c _ d hd => ?_⟩
    obtain rfl : '/' = d := by simpa using hd
    exact hleft c

end DocSite.Json
