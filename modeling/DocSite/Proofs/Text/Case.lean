import DocSite.Text.Basic
import DocSite.Text.Case
import DocSite.Text.Letter
import DocSite.Text.Search

namespace DocSite.Text

variable {x : Char} {before after cs : List Char}

/-- A visible ASCII character other than a letter. -/
def isMark (c : Char) : Bool := 32 ≤ c.toNat && c.toNat < 128 && !c.isAlpha

theorem isMark_iff : isMark x = true ↔ (32 ≤ x.toNat ∧ x.toNat < 128) ∧ x.isAlpha = false := by
  simp [isMark]

theorem not_isMark_ofNat {n : Nat} (h : 128 ≤ n) : isMark (Char.ofNat n) = false := by
  have hnat : (Char.ofNat n).toNat = n ∨ (Char.ofNat n).toNat = 0 := by
    by_cases hvalid : n.isValidChar
    · rw [Char.ofNat, dif_pos hvalid]
      exact .inl rfl
    · rw [Char.ofNat, dif_neg hvalid]
      exact .inr rfl
  rw [← Bool.not_eq_true, isMark_iff]
  omega

/-- The small form of an ASCII letter is a letter, and nothing else has one. -/
theorem isAlpha_toLower (h : x.toNat < 128) :
    x.toLower.isAlpha = x.isAlpha ∧ (x.isAlpha = false → x.toLower = x) := by
  have hall : ∀ n < 128, (Char.ofNat n).toLower.isAlpha = (Char.ofNat n).isAlpha ∧
      ((Char.ofNat n).isAlpha = false → (Char.ofNat n).toLower = Char.ofNat n) := by
    decide +kernel
  have hx := hall x.toNat h
  rwa [Char.ofNat_toNat] at hx

/-- All small letters above ASCII are above it as well, but for that of the Kelvin sign. -/
theorem lowerShifts_wide : ∀ s ∈ lowerShifts,
    128 ≤ (s.first + s.shift : Int) ∨ (s.first, s.last, s.shift) = (8490, 8490, -8383) := by
  decide +kernel

theorem not_isMark_shiftChar (h : 128 ≤ x.toNat) : isMark (shiftChar lowerShifts x) = false := by
  rw [shiftChar]
  cases hfound : lowerShifts.find? (·.covers x.toNat) with
  | none =>
    dsimp only
    rw [← Bool.not_eq_true, isMark_iff]
    omega
  | some s =>
    have hcovers := List.find?_some hfound
    simp only [Shift.covers, Bool.and_eq_true, decide_eq_true_eq] at hcovers
    obtain ⟨⟨hlow, hhigh⟩, -⟩ := hcovers
    rcases lowerShifts_wide s (List.mem_of_find?_eq_some hfound) with hwide | hkelvin
    · apply not_isMark_ofNat
      rw [Shift.move]
      omega
    · obtain ⟨hfirst, hlast, hshift⟩ : s.first = 8490 ∧ s.last = 8490 ∧ s.shift = -8383 := by
        simpa using hkelvin
      have hx : x.toNat = 8490 := by omega
      simp only [Shift.move, hx, hshift]
      decide

/-- A mark is its own small form, and that of no other character. -/
theorem mem_lowerChar (hx : isMark x = true) {c : Char} : x ∈ lowerChar before c after ↔ x = c := by
  obtain ⟨hascii, halpha⟩ := isMark_iff.mp hx
  unfold lowerChar
  split
  · rename_i hc
    obtain ⟨hletter, hother⟩ := isAlpha_toLower hc
    rw [List.mem_singleton]
    by_cases hcalpha : c.isAlpha = true
    · constructor
      · rintro rfl
        rw [hletter, hcalpha] at halpha
        cases halpha
      · rintro rfl
        rw [hcalpha] at halpha
        cases halpha
    · rw [hother (by simpa using hcalpha)]
  · rename_i hc
    -- above ASCII neither the character nor any small form of it is a mark
    have hne : x ≠ c := by
      rintro rfl
      exact hc hascii.2
    have hnot (cs : List Char) (hcs : cs.any isMark = false) : x ∈ cs ↔ x = c := by
      refine iff_of_false (fun hmem => ?_) hne
      rw [List.any_eq_true.mpr ⟨x, hmem, hx⟩] at hcs
      cases hcs
    split
    · exact hnot _ (by decide)
    · split
      · split <;> exact hnot _ (by decide)
      · exact hnot _ (by simp [not_isMark_shiftChar (Nat.le_of_not_lt hc)])

theorem mem_lowerFrom (hx : isMark x = true) (before cs : List Char) :
    x ∈ lowerFrom before cs ↔ x ∈ cs := by
  induction cs generalizing before with
  | nil => rfl
  | cons c cs ih => rw [lowerFrom, List.mem_append, mem_lowerChar hx, ih, List.mem_cons]

theorem mem_lower (hx : isMark x = true) (cs : List Char) : x ∈ lower cs ↔ x ∈ cs :=
  mem_lowerFrom hx [] cs

section Stop

variable {c : Char}

/-- What comes after a character that is no letter, and not passed over, does not change the form
of a final sigma before it. -/
theorem isFinalSigma_append (hcased : isCased c = false) (hcounted : isUncounted c = false)
    (before cs bs : List Char) :
    isFinalSigma before (cs ++ c :: bs) = isFinalSigma before cs := by
  have hhead : ((cs ++ c :: bs).dropWhile isUncounted).head?.any isCased =
      (cs.dropWhile isUncounted).head?.any isCased := by
    induction cs with
    | nil => simp [hcased, hcounted]
    | cons a as ih => cases ha : isUncounted a <;> simp [ha, ih]
  rw [isFinalSigma, hhead, isFinalSigma]

theorem lowerFrom_append (hcased : isCased c = false) (hcounted : isUncounted c = false)
    (before cs bs : List Char) :
    lowerFrom before (cs ++ c :: bs) =
      lowerFrom before cs ++ lowerFrom (cs.reverse ++ before) (c :: bs) := by
  induction cs generalizing before with
  | nil => rfl
  | cons a as ih =>
    have hchar : lowerChar before a (as ++ c :: bs) = lowerChar before a as := by
      rw [lowerChar, isFinalSigma_append hcased hcounted, lowerChar]
    have hcons : lowerFrom before (a :: as) =
        lowerChar before a as ++ lowerFrom (a :: before) as := rfl
    rw [List.cons_append, lowerFrom, hchar, ih, hcons, List.append_assoc, List.reverse_cons,
      List.append_assoc, List.singleton_append]

end Stop

section ReplaceChar

variable {old new : Char}

theorem replaceChar_append (old new : Char) (as bs : List Char) :
    replaceChar old new (as ++ bs) = replaceChar old new as ++ replaceChar old new bs :=
  List.map_append

theorem replaceChar_eq_self (h : old ≠ new) : replaceChar old new cs = cs ↔ old ∉ cs := by
  induction cs with
  | nil => simp [replaceChar]
  | cons c cs ih =>
    rw [replaceChar, List.map_cons, List.cons_eq_cons, List.mem_cons, not_or, ← replaceChar, ih]
    by_cases hc : c = old
    · simp [hc, Ne.symm h]
    · simp [hc, Ne.symm hc]

theorem not_mem_replaceChar (hnew : x ≠ new) (hcs : x ∉ cs) : x ∉ replaceChar old new cs := by
  intro hmem
  obtain ⟨c, hc, heq⟩ := List.mem_map.mp hmem
  split at heq
  · exact hnew heq.symm
  · exact hcs (heq ▸ hc)

end ReplaceChar

/-- A mark that may stand between identifiers, and in none of them. -/
def isSeparator (c : Char) : Bool := isMark c && !c.isDigit && c ≠ '_'

theorem isSeparator_iff :
    isSeparator x = true ↔ isMark x = true ∧ x.isDigit = false ∧ x ≠ '_' := by
  simp [isSeparator, and_assoc]

/-- Identifiers have letters, digits and the underscore only, as far as ASCII goes. -/
theorem not_mem_of_isIdentifier (hx : isSeparator x = true) (h : isIdentifier cs = true) :
    x ∉ cs := by
  obtain ⟨hmark, hdigit, hline⟩ := isSeparator_iff.mp hx
  obtain ⟨⟨-, hascii⟩, halpha⟩ := isMark_iff.mp hmark
  cases cs with
  | nil => simp
  | cons c cs =>
    rw [isIdentifier, Bool.and_eq_true, List.all_eq_true] at h
    intro hmem
    rcases List.mem_cons.mp hmem with rfl | hmem
    · simp [startsIdentifier, hascii, halpha, hline] at h
    · have hrest := h.2 x hmem
      simp [continuesIdentifier, hascii, Char.isAlphanum, halpha, hdigit, hline] at hrest

/-- White space above ASCII. -/
def wideBlanks : List Nat :=
  [0x85, 0xa0, 0x1680, 0x2000, 0x2001, 0x2002, 0x2003, 0x2004, 0x2005, 0x2006, 0x2007, 0x2008,
    0x2009, 0x200a, 0x2028, 0x2029, 0x202f, 0x205f, 0x3000]

theorem mem_wideBlanks (hblank : isBlank x = true) (hwide : ¬x.toNat < 128) :
    x.toNat ∈ wideBlanks := by
  simp only [isBlank, Bool.or_eq_true, Bool.and_eq_true, decide_eq_true_eq, beq_iff_eq] at hblank
  simp only [wideBlanks, List.mem_cons, List.not_mem_nil, or_false]
  omega

/-- White space stands in no identifier. -/
theorem not_identifies_of_isBlank (h : isBlank x = true) :
    startsIdentifier x = false ∧ continuesIdentifier x = false := by
  by_cases hascii : x.toNat < 128
  · have hall : ∀ n < 128, isBlank (Char.ofNat n) = true →
        startsIdentifier (Char.ofNat n) = false ∧ continuesIdentifier (Char.ofNat n) = false := by
      decide +kernel
    simpa [Char.ofNat_toNat, h] using hall x.toNat hascii
  · have hall : (wideBlanks.all fun n =>
        !inBands wideStarts n && !inBands wideContinuations n) = true := by decide +kernel
    have hx := List.all_eq_true.mp hall _ (mem_wideBlanks h hascii)
    simpa [startsIdentifier, continuesIdentifier, hascii] using hx

theorem not_isBlank_of_isIdentifier (h : isIdentifier cs = true) (hx : x ∈ cs) :
    isBlank x = false := by
  rw [← Bool.not_eq_true]
  intro hblank
  obtain ⟨hstarts, hcontinues⟩ := not_identifies_of_isBlank hblank
  cases cs with
  | nil => cases hx
  | cons c cs =>
    rw [isIdentifier, Bool.and_eq_true, List.all_eq_true] at h
    rcases List.mem_cons.mp hx with rfl | hx
    · rw [h.1] at hstarts
      cases hstarts
    · rw [h.2 x hx] at hcontinues
      cases hcontinues

end DocSite.Text
