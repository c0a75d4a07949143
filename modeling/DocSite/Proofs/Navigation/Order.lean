import DocSite.Navigation.Versions
import DocSite.Proofs.Fields
import DocSite.Proofs.StableSort
import DocSite.Proofs.Text

namespace DocSite.Navigation

theorem numbersLt_asymm {as bs : List Int} (h : numbersLt as bs = true) :
    numbersLt bs as = false := by
  induction as, bs using numbersLt.induct with
  | case1 as => simp [numbersLt] at h
  | case2 b bs => simp [numbersLt]
  | case3 as a bs ih =>
    simp only [numbersLt, if_true] at h ⊢
    exact ih h
  | case4 a as b bs hne =>
    simp only [numbersLt, hne, if_false, decide_eq_true_eq] at h
    simp only [numbersLt, Ne.symm hne, if_false, decide_eq_false_iff_not]
    omega

/-- A list between two others in order comes after the lesser or before the greater. -/
theorem numbersLt_split {as cs : List Int} (h : numbersLt as cs = true) (bs : List Int) :
    numbersLt as bs = true ∨ numbersLt bs cs = true := by
  induction as, cs using numbersLt.induct generalizing bs with
  | case1 as => simp [numbersLt] at h
  | case2 c cs => cases bs <;> simp [numbersLt]
  | case3 as a cs ih =>
    simp only [numbersLt, if_true] at h
    cases bs with
    | nil => simp [numbersLt]
    | cons b bs =>
      by_cases hab : a = b
      · subst hab
        simpa [numbersLt] using ih h bs
      · simp only [numbersLt, hab, Ne.symm hab, if_false, decide_eq_true_eq]
        omega
  | case4 a as c cs hne =>
    simp only [numbersLt, hne, if_false, decide_eq_true_eq] at h
    cases bs with
    | nil => simp [numbersLt]
    | cons b bs =>
      by_cases hab : a = b
      · subst hab
        simp [numbersLt, hne, h]
      · by_cases hbc : b = c
        · subst hbc
          simp [numbersLt, hab, h]
        · simp only [numbersLt, hab, hbc, if_false, decide_eq_true_eq]
          omega

/-- Of two different lists one comes before the other. -/
theorem numbersLt_connex {as bs : List Int} (hab : numbersLt as bs = false)
    (hba : numbersLt bs as = false) : as = bs := by
  induction as, bs using numbersLt.induct with
  | case1 as =>
    cases as with
    | nil => rfl
    | cons a as => simp [numbersLt] at hba
  | case2 b bs => simp [numbersLt] at hab
  | case3 as a bs ih =>
    simp only [numbersLt, if_true] at hab hba
    rw [ih hab hba]
  | case4 a as b bs hne =>
    simp only [numbersLt, hne, if_false, decide_eq_false_iff_not] at hab
    simp only [numbersLt, Ne.symm hne, if_false, decide_eq_false_iff_not] at hba
    omega

namespace VersionKey

theorem lt_connex {a b : VersionKey} (hab : a.lt b = false) (hba : b.lt a = false) : a = b := by
  cases a with
  | latest =>
    cases b with
    | latest => rfl
    | numbers bs => cases hba
  | numbers as =>
    cases b with
    | latest => cases hab
    | numbers bs => rw [numbersLt_connex hab hba]

theorem lt_asymm {a b : VersionKey} (h : a.lt b = true) : b.lt a = false := by
  cases a with
  | latest => simp [lt] at h
  | numbers as =>
    cases b with
    | latest => rfl
    | numbers bs => exact numbersLt_asymm h

theorem lt_split {a c : VersionKey} (h : a.lt c = true) (b : VersionKey) :
    a.lt b = true ∨ b.lt c = true := by
  cases a with
  | latest => simp [lt] at h
  | numbers as =>
    cases b with
    | latest => exact .inl rfl
    | numbers bs =>
      cases c with
      | latest => exact .inr rfl
      | numbers cs => exact numbersLt_split h bs

theorem notLt_trans {a b c : VersionKey} (hab : (!a.lt b) = true) (hbc : (!b.lt c) = true) :
    (!a.lt c) = true := by
  simp only [Bool.not_eq_true'] at *
  cases hac : a.lt c with
  | false => rfl
  | true =>
    rcases lt_split hac b with h | h
    · simp [h] at hab
    · simp [h] at hbc

theorem notLt_total (a b : VersionKey) : (!a.lt b || !b.lt a) = true := by
  cases h : a.lt b with
  | false => rfl
  | true => simp [lt_asymm h]

end VersionKey

/-- The label of a version, where it is a text. -/
def label? (entry : Json) : Option String := entry.textAt? "dropdown"

/-- The place of a version in the order; one without a label counts as version 0. -/
def versionKey (entry : Json) : VersionKey := labelKey ((label? entry).getD "")

/-- Whether a version may stand before another. -/
def notOlder (a b : Json) : Bool := !(versionKey a).lt (versionKey b)

theorem notOlder_trans (a b c : Json) (hab : notOlder a b = true) (hbc : notOlder b c = true) :
    notOlder a c = true := VersionKey.notLt_trans hab hbc

theorem notOlder_total (a b : Json) : (notOlder a b || notOlder b a) = true :=
  VersionKey.notLt_total _ _

/-- Versions of different keys are not tied. -/
theorem tied_notOlder_eq_false {a b : Json} (h : versionKey a ≠ versionKey b) :
    StableSort.tied notOlder a b = false := by
  cases htied : StableSort.tied notOlder a b with
  | false => rfl
  | true =>
    simp only [StableSort.tied, notOlder, Bool.and_eq_true, Bool.not_eq_true'] at htied
    exact absurd (VersionKey.lt_connex htied.1 htied.2) h

/-- An object whose label, if it has one, is a text. -/
def Sortable (entry : Json) : Prop :=
  ∃ fs, entry = .obj fs ∧ ∀ v, OrderedMap.get? "dropdown" fs = some v → ∃ s, v = .str s

theorem entryKey_eq_ok {entry : Json} {key : VersionKey} :
    entryKey entry = .ok key ↔ Sortable entry ∧ key = versionKey entry := by
  constructor
  · intro h
    obtain ⟨v, hv, ht⟩ := Attempt.bind_eq_ok.mp h
    obtain ⟨s, hs, hk⟩ := Attempt.bind_eq_ok.mp ht
    obtain ⟨fs, rfl, hget⟩ := Json.get_eq_ok.mp hv
    have hvs : v = .str s := by
      cases v <;> simp_all [Json.text]
    subst hvs
    rw [← Except.ok.inj hk, versionKey, label?, Json.textAt?_obj]
    cases hf : OrderedMap.get? "dropdown" fs with
    | none =>
      have he : s = "" := by simpa [hf] using hget.symm
      exact ⟨⟨fs, rfl, by simp [hf]⟩, by simp [he]⟩
    | some w =>
      have hw : w = .str s := by simpa [hf] using hget
      exact ⟨⟨fs, rfl, by simp [hf, hw]⟩, by simp [hw, Json.str?]⟩
  · rintro ⟨⟨fs, rfl, hs⟩, rfl⟩
    rw [versionKey, label?, Json.textAt?_obj]
    cases hf : OrderedMap.get? "dropdown" fs with
    | none => simp [entryKey, Json.get, hf, Json.text, bind, Except.bind, pure, Except.pure]
    | some v =>
      obtain ⟨s, rfl⟩ := hs v hf
      simp [entryKey, Json.get, hf, Json.text, bind, Except.bind, pure, Except.pure, Json.str?]

/-- Sorting fails on entries without a proper label only, and else is a stable sort. -/
theorem sortVersions_eq_ok {entries sorted : List Json} :
    sortVersions entries = .ok sorted ↔
      (∀ e ∈ entries, Sortable e) ∧ sorted = entries.mergeSort notOlder := by
  have hmap (es : List Json) : (StableSort.sort (fun a b => !(a.1.lt b.1))
      (es.map fun e => (versionKey e, e))).map Prod.snd = es.mergeSort notOlder := by
    have htrans (a b c : VersionKey × Json) (hab : (!a.1.lt b.1) = true)
        (hbc : (!b.1.lt c.1) = true) : (!a.1.lt c.1) = true := VersionKey.notLt_trans hab hbc
    rw [StableSort.sort_eq_mergeSort htrans (fun a b => VersionKey.notLt_total a.1 b.1),
      List.map_mergeSort (s := notOlder)]
    · simp [Function.comp_def]
    · intro a ha b hb
      obtain ⟨x, -, rfl⟩ := List.mem_map.mp ha
      obtain ⟨y, -, rfl⟩ := List.mem_map.mp hb
      rfl
  have hkeyed (hs : ∀ e ∈ entries, Sortable e) :
      (entries.mapM fun e => return (← entryKey e, e)) =
        (.ok (entries.map fun e => (versionKey e, e)) : Except Fault _) :=
    Attempt.mapM_eq_ok_map fun e he =>
      Attempt.bind_eq_ok.mpr ⟨versionKey e, entryKey_eq_ok.mpr ⟨hs e he, rfl⟩, rfl⟩
  constructor
  · intro h
    obtain ⟨keyed, hk, hr⟩ := Attempt.bind_eq_ok.mp h
    have hs : ∀ e ∈ entries, Sortable e := by
      intro e he
      obtain ⟨y, -, hy⟩ := Attempt.forall_ok_of_mapM hk e he
      obtain ⟨key, hkey, -⟩ := Attempt.bind_eq_ok.mp hy
      exact (entryKey_eq_ok.mp hkey).1
    rw [hkeyed hs] at hk
    refine ⟨hs, ?_⟩
    rw [← Except.ok.inj hr, ← Except.ok.inj hk, hmap]
  · rintro ⟨hs, rfl⟩
    refine Attempt.bind_eq_ok.mpr ⟨_, hkeyed hs, ?_⟩
    exact congrArg Except.ok (hmap entries)

theorem labelKey_eq_latest {s : String} : labelKey s = .latest ↔ s = latest := by
  unfold labelKey
  by_cases h : s = latest
  · simp [h]
  · simp only [h, if_false, iff_false]
    split <;> simp

/-- No version that is not the latest comes before one that is. -/
theorem latest_first {a b : Json} (h : notOlder a b = true) (hb : label? b = some latest) :
    label? a = some latest := by
  have hkb : versionKey b = .latest := by simp [versionKey, hb, labelKey_eq_latest]
  have hka : versionKey a = .latest := by
    cases hk : versionKey a with
    | latest => rfl
    | numbers as => simp [notOlder, hk, hkb, VersionKey.lt] at h
  have hs := labelKey_eq_latest.mp hka
  cases hl : label? a with
  | none => simp [hl, latest] at hs
  | some s => simpa [hl] using hs

section Numerals

open Text

variable {numeral : List Char}

/-- The number that a row of digits stands for. -/
def decimal (numeral : List Char) : Nat :=
  numeral.foldl (fun n c => 10 * n + (c.toNat - '0'.toNat)) 0

def IsNumeral (numeral : List Char) : Prop := numeral ≠ [] ∧ ∀ c ∈ numeral, c.isDigit = true

theorem isDigit_bounds {c : Char} (h : c.isDigit = true) : 48 ≤ c.toNat ∧ c.toNat ≤ 57 := by
  simpa [Char.isDigit, UInt32.le_iff_toNat_le] using h

theorem digitValue?_isDigit {c : Char} (h : c.isDigit = true) :
    digitValue? c = some (c.toNat - '0'.toNat) := by
  obtain ⟨hlow, hhigh⟩ := isDigit_bounds h
  have hfirst : (decide (48 ≤ c.toNat) && decide (c.toNat < 48 + 10)) = true := by simp; omega
  have hfind : (zeros.find? fun z => z ≤ c.toNat && c.toNat < z + 10) = some 48 :=
    List.find?_cons_of_pos hfirst
  rw [digitValue?, hfind]
  rfl

theorem numeralDigits?_isNumeral (h : IsNumeral numeral) :
    numeralDigits? numeral = some (numeral.map fun c => c.toNat - '0'.toNat) := by
  obtain ⟨hne, hdigits⟩ := h
  induction numeral with
  | nil => exact absurd rfl hne
  | cons c cs ih =>
    obtain ⟨hc, hcs⟩ := List.forall_mem_cons.mp hdigits
    cases cs with
    | nil => simp [numeralDigits?, digitValue?_isDigit hc]
    | cons d ds =>
      have hd : d ≠ '_' := by
        rintro rfl
        exact absurd (hcs '_' List.mem_cons_self) (by decide)
      rw [numeralDigits?]
      · simp [digitValue?_isDigit hc, ih (by simp) hcs]
      · simp
      · simp [hd]

theorem stripWhere_of_forall {p : Char → Bool} {cs : List Char} (h : ∀ c ∈ cs, p c = false) :
    stripWhere p cs = cs := by
  have hdrop (as : List Char) (has : ∀ c ∈ as, p c = false) : as.dropWhile p = as := by
    cases as with
    | nil => rfl
    | cons a as => simp [has a List.mem_cons_self]
  rw [stripWhere, hdrop cs h, dropTail, hdrop _ (by simpa using h), List.reverse_reverse]

/-- A row of digits is read as its number, unless it is too long. -/
theorem readInt?_isNumeral (h : IsNumeral numeral) : readInt? numeral =
    if numeral.length ≤ maxNumeral then some (decimal numeral : Int) else none := by
  have hstrip : stripWhere isNumeralBlank numeral = numeral := by
    refine stripWhere_of_forall fun c hc => ?_
    obtain ⟨hlow, hhigh⟩ := isDigit_bounds (h.2 c hc)
    simp [isNumeralBlank, isBlank]
    omega
  have hread : readNat? numeral =
      if numeral.length ≤ maxNumeral then some (decimal numeral) else none := by
    simp [readNat?, numeralDigits?_isNumeral h, ofDigits, decimal, List.foldl_map]
  have hsign : readInt? numeral = (readNat? numeral).map fun n => (n : Int) := by
    rw [readInt?, hstrip]
    split
    · exact absurd (h.2 '-' List.mem_cons_self) (by decide)
    · exact absurd (h.2 '+' List.mem_cons_self) (by decide)
    · rfl
  rw [hsign, hread]
  split <;> rfl

end Numerals

section Labels

open Text

/-- The numbers that are read from a label. -/
def numbersIn? (label : String) : Option (List Int) :=
  (splitChar '.' ((afterStart? ['v'] label.toList).getD label.toList)).mapM readInt?

theorem labelKey_eq {label : String} (h : label ≠ latest) :
    labelKey label = .numbers ((numbersIn? label).getD [0]) := by
  rw [labelKey, if_neg h, numbersIn?]
  dsimp only
  split <;> rename_i hparts <;> rw [hparts] <;> rfl

/-- A label that writes a version out: rows of digits with points between them, and maybe a `v` in
front. -/
structure Writes (label : String) (numerals : List (List Char)) : Prop where
  ne_nil : numerals ≠ []
  isNumeral : ∀ n ∈ numerals, IsNumeral n
  text : label.toList = ['.'].intercalate numerals ∨
    label.toList = 'v' :: ['.'].intercalate numerals

namespace Writes

variable {label : String} {numerals : List (List Char)}

theorem head_digit (h : Writes label numerals) :
    ∃ c cs, ['.'].intercalate numerals = c :: cs ∧ c.isDigit = true := by
  obtain ⟨first, others, rfl⟩ := List.exists_cons_of_ne_nil h.ne_nil
  obtain ⟨hne, hdigits⟩ := h.isNumeral first List.mem_cons_self
  obtain ⟨c, cs, rfl⟩ := List.exists_cons_of_ne_nil hne
  refine ⟨c, ?_⟩
  cases others with
  | nil => exact ⟨cs, by simp, hdigits c List.mem_cons_self⟩
  | cons n ns => exact ⟨_, List.intercalate_cons_cons_left, hdigits c List.mem_cons_self⟩

theorem ne_latest (h : Writes label numerals) : label ≠ latest := by
  rintro rfl
  obtain ⟨c, cs, htext, hc⟩ := h.head_digit
  rcases h.text with hl | hl
  · rw [htext] at hl
    cases (List.cons.inj hl).1
    exact absurd hc (by decide)
  · exact absurd (List.cons.inj hl).1 (by decide)

theorem numbersIn?_eq (h : Writes label numerals) : numbersIn? label = numerals.mapM readInt? := by
  obtain ⟨c, cs, htext, hc⟩ := h.head_digit
  have hbody : (afterStart? ['v'] label.toList).getD label.toList = ['.'].intercalate numerals := by
    rcases h.text with hl | hl
    · have hv : 'v' ≠ c := by
        rintro rfl
        exact absurd hc (by decide)
      rw [hl, htext]
      simp [afterStart?, hv]
    · rw [hl]
      rfl
  rw [numbersIn?, hbody, splitChar_intercalate_of_not_mem h.ne_nil]
  intro n hn hdot
  exact absurd ((h.isNumeral n hn).2 '.' hdot) (by decide)

/-- The version of a label whose numbers are not too long to be read. -/
theorem labelKey_eq (h : Writes label numerals) (hshort : ∀ n ∈ numerals, n.length ≤ maxNumeral) :
    labelKey label = .numbers (numerals.map fun n => (decimal n : Int)) := by
  have hread : numerals.mapM readInt? = some (numerals.map fun n => (decimal n : Int)) := by
    have hnumerals := h.isNumeral
    clear h
    induction numerals with
    | nil => rfl
    | cons n ns ih =>
      rw [List.forall_mem_cons] at hshort hnumerals
      rw [List.mapM_cons, readInt?_isNumeral hnumerals.1, if_pos hshort.1,
        ih hshort.2 hnumerals.2]
      rfl
  rw [Navigation.labelKey_eq h.ne_latest, h.numbersIn?_eq, hread]
  rfl

end Writes

/-- Numbers are compared as lists are. -/
theorem numbersLt_iff {as bs : List Int} : numbersLt as bs = true ↔ as < bs := by
  induction as, bs using numbersLt.induct with
  | case1 as => simp [numbersLt]
  | case2 b bs => simp [numbersLt]
  | case3 as a bs ih => simpa [numbersLt, List.cons_lt_cons_iff] using ih
  | case4 a as b bs hne => simp [numbersLt, List.cons_lt_cons_iff, hne]

/-- What a version is labelled with; nothing if it has no label. -/
def labelText (entry : Json) : String := (label? entry).getD ""

/-- How versions stand when they are in order. -/
structure Ranks (entries sorted : List Json) : Prop where
  perm : sorted.Perm entries
  latest_first : sorted.Pairwise fun a b => label? b = some latest → label? a = some latest
  /-- Of two versions that are written out the greater one comes first. -/
  greatest_first : sorted.Pairwise fun a b => ∀ as bs, Writes (labelText a) as →
    Writes (labelText b) bs → (∀ n ∈ as ++ bs, n.length ≤ maxNumeral) →
      ¬as.map decimal < bs.map decimal
  stable : ∀ key, (sorted.filter fun e => versionKey e = key) =
    entries.filter fun e => versionKey e = key
  /-- Labels without numbers come after all versions above 0. -/
  wordy_last : sorted.Pairwise fun a b => labelText a ≠ latest → numbersIn? (labelText a) = none →
    ∀ numbers, labelText b ≠ latest → numbersIn? (labelText b) = some numbers → ¬[0] < numbers

theorem not_lt_of_notOlder {a b : Json} {as bs : List Int} (h : notOlder a b = true)
    (ha : versionKey a = .numbers as) (hb : versionKey b = .numbers bs) : ¬as < bs := by
  intro hlt
  rw [notOlder, ha, hb, VersionKey.lt, numbersLt_iff.mpr hlt] at h
  cases h

theorem filter_versionKey_mergeSort (entries : List Json) (key : VersionKey) :
    ((entries.mergeSort notOlder).filter fun e => versionKey e = key) =
      entries.filter fun e => versionKey e = key := by
  rw [StableSort.filter_mergeSort notOlder_trans notOlder_total]
  refine List.mergeSort_of_pairwise (List.pairwise_filter.mpr (List.pairwise_of_forall ?_))
  intro a b ha hb
  rw [decide_eq_true_eq] at ha hb
  simpa [notOlder, ha, hb] using VersionKey.notLt_total key key

theorem ranks_mergeSort (entries : List Json) : Ranks entries (entries.mergeSort notOlder) := by
  have hsorted := List.pairwise_mergeSort notOlder_trans notOlder_total entries
  refine ⟨List.mergeSort_perm _ _, hsorted.imp latest_first, hsorted.imp ?_,
    filter_versionKey_mergeSort entries, hsorted.imp ?_⟩
  · intro a b hab as bs ha hb hshort hlt
    have hkeys := List.forall_mem_append.mp hshort
    refine not_lt_of_notOlder hab (ha.labelKey_eq hkeys.1) (hb.labelKey_eq hkeys.2) ?_
    have hcast := List.map_lt (f := Int.ofNat) (fun _ _ => Int.ofNat_lt.mpr) hlt
    rwa [List.map_map, List.map_map] at hcast
  · intro a b hab ha hnone numbers hb hsome
    refine not_lt_of_notOlder hab ?_ ?_
    · rw [versionKey, ← labelText, labelKey_eq ha, hnone, Option.getD_none]
    · rw [versionKey, ← labelText, labelKey_eq hb, hsome, Option.getD_some]

/-- Versions can be sorted: the latest come first, then the others by their numbers from the left, a
beginning after the whole. Sorting once more changes nothing. -/
theorem sortVersions_ranks {entries : List Json} (h : ∀ e ∈ entries, Sortable e) :
    ∃ sorted, sortVersions entries = .ok sorted ∧ Ranks entries sorted ∧
      sortVersions sorted = .ok sorted := by
  have hranks := ranks_mergeSort entries
  refine ⟨_, sortVersions_eq_ok.mpr ⟨h, rfl⟩, hranks, sortVersions_eq_ok.mpr ⟨?_, ?_⟩⟩
  · exact fun e he => h e (hranks.perm.mem_iff.mp he)
  · exact (List.mergeSort_of_pairwise
      (List.pairwise_mergeSort notOlder_trans notOlder_total entries)).symm

def versionEntry (label : String) : Json := .obj [("dropdown", .str label)]

theorem sortable_versionEntry (label : String) : Sortable (versionEntry label) :=
  ⟨_, rfl, fun _ hv => ⟨label, (Option.some.inj hv).symm⟩⟩

theorem sortVersions_ranks_tenth :
    let entries := ["v0.9", "dev", "v1.2", "latest", "v0.10", "v1.2.0"].map versionEntry
    let sorted := ["latest", "v1.2.0", "v1.2", "v0.10", "v0.9", "dev"].map versionEntry
    sortVersions entries = .ok sorted ∧ Ranks entries sorted := by
  intro entries sorted
  have hsortable : ∀ e ∈ entries, Sortable e := by simp [entries, sortable_versionEntry]
  obtain ⟨result, hresult, hranks, -⟩ := sortVersions_ranks hsortable
  have hsort : sortVersions entries = .ok sorted := rfl
  cases hsort.symm.trans hresult
  exact ⟨hsort, hranks⟩

/-- A number with one digit more than can be read. -/
def longNumeral : List Char := List.replicate (maxNumeral + 1) '1'

def longLabel : String := String.ofList ('v' :: longNumeral)

theorem writes_longLabel : Writes longLabel [longNumeral] := by
  refine ⟨List.cons_ne_nil _ _, List.forall_mem_singleton.mpr ⟨List.cons_ne_nil _ _, ?_⟩, .inr ?_⟩
  · intro c hc
    rw [List.eq_of_mem_replicate hc]
    rfl
  · rw [longLabel, String.toList_ofList, List.intercalate_singleton]

theorem numbersIn?_longLabel : numbersIn? longLabel = none := by
  have hlong : ¬longNumeral.length ≤ maxNumeral := by
    rw [longNumeral, List.length_replicate]
    exact Nat.not_succ_le_self maxNumeral
  rw [writes_longLabel.numbersIn?_eq, List.mapM_cons,
    readInt?_isNumeral (writes_longLabel.isNumeral _ List.mem_cons_self), if_neg hlong]
  rfl

theorem one_lt_decimal_longNumeral : 1 < decimal longNumeral := by
  have hgrows (cs : List Char) (n : Nat) :
      n ≤ cs.foldl (fun n c => 10 * n + (c.toNat - '0'.toNat)) n := by
    induction cs generalizing n with
    | nil => exact Nat.le_refl n
    | cons c cs ih =>
      have hstep : n ≤ 10 * n + (c.toNat - '0'.toNat) := by omega
      exact Nat.le_trans hstep (ih _)
  have heleven (n : Nat) : 11 ≤ decimal (List.replicate (n + 2) '1') := by
    rw [List.replicate_succ, List.replicate_succ]
    exact hgrows (List.replicate n '1') 11
  exact Nat.lt_of_lt_of_le (by decide) (heleven 4299)

/-- A version with a number of too many digits comes after a smaller one. -/
theorem sortVersions_long_after_one :
    Writes "v1" [['1']] ∧ Writes longLabel [longNumeral] ∧
      [['1']].map decimal < [longNumeral].map decimal ∧
      sortVersions [versionEntry "v1", versionEntry longLabel] =
        .ok [versionEntry "v1", versionEntry longLabel] := by
  have hone : Writes "v1" [['1']] := ⟨by simp, by simp [IsNumeral, Char.isDigit], .inr rfl⟩
  refine ⟨hone, writes_longLabel, ?_, sortVersions_eq_ok.mpr ⟨?_, ?_⟩⟩
  · exact List.cons_lt_cons_iff.mpr (.inl one_lt_decimal_longNumeral)
  · simp [sortable_versionEntry]
  · have hkey : versionKey (versionEntry longLabel) = .numbers [0] := by
      refine (labelKey_eq writes_longLabel.ne_latest).trans ?_
      rw [numbersIn?_longLabel]
      rfl
    have hkeyOne : versionKey (versionEntry "v1") = .numbers [1] := hone.labelKey_eq (by decide)
    refine (List.mergeSort_of_pairwise ?_).symm
    simp [notOlder, hkey, hkeyOne, VersionKey.lt, numbersLt]

end Labels

end DocSite.Navigation
