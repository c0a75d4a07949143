import DocSite.Doctest
import DocSite.Proofs.Text
import Mathlib.Data.List.SplitBy

/-!
The code that the examples of a text show. Code lines are in one block as long as no line between
them ends it. Every block gives one example, with the prose between it and the code before it.
-/

namespace DocSite.Doctest

open Text

section Places

/-- The line at a place without the white space around it. -/
def textAt (ls : List (List Char)) (i : Nat) : List Char := strip (ls[i]?.getD [])

def isPrompt (ls : List (List Char)) (i : Nat) : Bool := startsWith promptMark (textAt ls i)

def isContinuation (ls : List (List Char)) (i : Nat) : Bool :=
  startsWith continuationMark (textAt ls i)

/-- A line without a mark ends a block, unless it is blank and a prompt follows at once. -/
def endsBlock (ls : List (List Char)) (i : Nat) : Bool :=
  !isPrompt ls i && !isContinuation ls i && !((textAt ls i).isEmpty && isPrompt ls (i + 1))

/-- Whether no line between two places ends a block. -/
def isUnended (ls : List (List Char)) (i j : Nat) : Bool :=
  (List.range j).all fun k => k ≤ i || !endsBlock ls k

/-- Whether a block is open before a place: no line since some prompt ends one. -/
def isOpen (ls : List (List Char)) (i : Nat) : Bool :=
  (List.range i).any fun j => isPrompt ls j && isUnended ls j i

/-- Prompts are code, and so are continuations of an open block. -/
def isCode (ls : List (List Char)) (i : Nat) : Bool :=
  isPrompt ls i || isContinuation ls i && isOpen ls i

/-- Lines without a mark that are not blank and do not end an open block are prose. -/
def isProse (ls : List (List Char)) (i : Nat) : Bool :=
  !isPrompt ls i && !isContinuation ls i && !(textAt ls i).isEmpty && !isOpen ls i

def codePlaces (ls : List (List Char)) : List Nat := (List.range ls.length).filter (isCode ls)

/-- The code lines of a text, parted where a line between two of them ends a block. -/
def blocks (ls : List (List Char)) : List (List Nat) := (codePlaces ls).splitBy (isUnended ls)

def codeAt (ls : List (List Char)) (i : Nat) : List Char := (textAt ls i).drop 4

/-- The prose before a place, back to the last code. -/
def proseBefore (ls : List (List Char)) (i : Nat) : List (List Char) :=
  ((List.range i).filter fun k =>
    isProse ls k && (List.range i).all fun m => m ≤ k || !isCode ls m).map (textAt ls)

/-- The prose that leads up to a block. -/
def leadOf (ls : List (List Char)) (block : List Nat) : List (List Char) :=
  proseBefore ls (block.head?.getD 0)

def exampleOf (ls : List (List Char)) (block : List Nat) : Example :=
  ⟨[' '].intercalate (leadOf ls block), unlines (block.map (codeAt ls))⟩

/-- A block of a single line with no code on it, and without prose. -/
def isVoid (ls : List (List Char)) (block : List Nat) : Bool :=
  block.map (codeAt ls) = [[]] && (leadOf ls block).isEmpty

end Places

section Open

variable {ls : List (List Char)} {i j n : Nat}

theorem isUnended_iff :
    isUnended ls i j = true ↔ ∀ k, i < k → k < j → endsBlock ls k = false := by
  simp only [isUnended, List.all_eq_true, List.mem_range, Bool.or_eq_true, decide_eq_true_eq,
    Bool.not_eq_true']
  constructor
  · intro h k hi hj
    exact (h k hj).resolve_left (by omega)
  · intro h k hj
    by_cases hi : k ≤ i
    · exact .inl hi
    · exact .inr (h k (by omega) hj)

theorem isOpen_iff :
    isOpen ls i = true ↔ ∃ j < i, isPrompt ls j = true ∧ isUnended ls j i = true := by
  simp [isOpen]

theorem isUnended_succ (h : i < n) :
    isUnended ls i (n + 1) = true ↔ isUnended ls i n = true ∧ endsBlock ls n = false := by
  simp only [isUnended_iff]
  constructor
  · intro hall
    exact ⟨fun k hi hk => hall k hi (by omega), hall n h (by omega)⟩
  · rintro ⟨hall, hn⟩ k hi hk
    obtain hk | rfl : k < n ∨ k = n := by omega
    · exact hall k hi hk
    · exact hn

theorem isUnended_self_succ (ls : List (List Char)) (n : Nat) : isUnended ls n (n + 1) = true :=
  isUnended_iff.mpr fun k hk hkn => by omega

/-- A prompt opens a block, and an open block stays open up to a line that ends it. -/
theorem isOpen_succ (ls : List (List Char)) (n : Nat) :
    isOpen ls (n + 1) = (isPrompt ls n || isOpen ls n && !endsBlock ls n) := by
  rw [Bool.eq_iff_iff]
  simp only [isOpen_iff, Bool.or_eq_true, Bool.and_eq_true, Bool.not_eq_true']
  constructor
  · rintro ⟨j, hj, hprompt, hunended⟩
    obtain hj | rfl : j < n ∨ j = n := by omega
    · obtain ⟨hunended, hends⟩ := (isUnended_succ hj).mp hunended
      exact .inr ⟨⟨j, hj, hprompt, hunended⟩, hends⟩
    · exact .inl hprompt
  · rintro (hprompt | ⟨⟨j, hj, hprompt, hunended⟩, hends⟩)
    · exact ⟨n, by omega, hprompt, isUnended_self_succ ls n⟩
    · exact ⟨j, by omega, hprompt, (isUnended_succ hj).mpr ⟨hunended, hends⟩⟩

theorem not_endsBlock_of_isCode (h : isCode ls i = true) : endsBlock ls i = false := by
  simp only [isCode, Bool.or_eq_true, Bool.and_eq_true] at h
  rcases h with h | ⟨h, -⟩ <;> simp [endsBlock, h]

theorem isOpen_succ_of_isCode (h : isCode ls n = true) : isOpen ls (n + 1) = true := by
  rw [isOpen_succ, not_endsBlock_of_isCode h]
  simp only [isCode, Bool.or_eq_true, Bool.and_eq_true] at h
  rcases h with h | ⟨-, h⟩ <;> simp [h]

end Open

section Steps

variable {ls : List (List Char)} {s : State} {rest : List Line} {n : Nat}

attribute [local simp] scan

/-- What is left to scan from a place on. -/
def remaining (ls : List (List Char)) (n : Nat) : List Line := (ls.drop n).map readLine

/-- What a scan takes the line at a place for. -/
def lineAt (ls : List (List Char)) (n : Nat) : Line :=
  if isPrompt ls n then .prompt (codeAt ls n)
  else if isContinuation ls n then .continuation (codeAt ls n)
  else if (textAt ls n).isEmpty then .blank
  else .other (textAt ls n)

theorem remaining_eq (h : n < ls.length) :
    remaining ls n = lineAt ls n :: remaining ls (n + 1) := by
  have htext : textAt ls n = strip ls[n] := by simp [textAt, h]
  rw [remaining, List.drop_eq_getElem_cons h, List.map_cons, readLine, ← htext]
  rfl

theorem remaining_prompt_iff :
    (∃ code rest, remaining ls n = .prompt code :: rest) ↔ isPrompt ls n = true := by
  by_cases hn : n < ls.length
  · rw [remaining_eq hn, lineAt]
    by_cases hprompt : isPrompt ls n = true
    · simp [hprompt]
    · by_cases hcontinuation : isContinuation ls n = true
      · simp [hprompt, hcontinuation]
      · by_cases hblank : textAt ls n = [] <;> simp [hprompt, hcontinuation, hblank]
  · have htext : textAt ls n = [] := by
      rw [textAt, List.getElem?_eq_none (by omega)]
      rfl
    have hprompt : isPrompt ls n = false := by
      rw [isPrompt, htext]
      rfl
    simp [remaining, List.drop_eq_nil_of_le (Nat.le_of_not_lt hn), hprompt]

theorem scan_blank (hin : s.inCode = true) (h : ∀ code more, rest ≠ .prompt code :: more) :
    scan s (.blank :: rest) = s.finished ++ scan .start rest := by
  cases rest with
  | nil => simp [hin, State.finished, State.start]
  | cons line more =>
    cases line with
    | prompt code => exact absurd rfl (h code more)
    | continuation code => simp [hin]
    | blank => simp [hin]
    | other text => simp [hin]

theorem scan_code (hn : n < ls.length) (hin : s.inCode = isOpen ls n) (h : isCode ls n = true) :
    scan s (remaining ls n) =
      scan { s with code := s.code ++ [codeAt ls n], inCode := true } (remaining ls (n + 1)) := by
  rw [remaining_eq hn, lineAt]
  by_cases hprompt : isPrompt ls n = true
  · rw [if_pos hprompt, scan]
  · obtain ⟨hcontinuation, hopen⟩ : isContinuation ls n = true ∧ isOpen ls n = true := by
      simpa [isCode, hprompt] using h
    rw [hopen] at hin
    rw [if_neg hprompt, if_pos hcontinuation, scan, if_pos hin, hin]

theorem scan_ends (hn : n < ls.length) (hin : s.inCode = true) (h : endsBlock ls n = true) :
    scan s (remaining ls n) = s.finished ++ scan .start (remaining ls (n + 1)) := by
  simp only [endsBlock, Bool.and_eq_true, Bool.not_eq_true', Bool.and_eq_false_iff] at h
  obtain ⟨⟨hprompt, hcontinuation⟩, htext⟩ := h
  rw [remaining_eq hn, lineAt, hprompt, hcontinuation]
  by_cases hblank : (textAt ls n).isEmpty = true
  · have hnext : ∀ code more, remaining ls (n + 1) ≠ .prompt code :: more := by
      intro code more heq
      have hprompt := remaining_prompt_iff.mp ⟨code, more, heq⟩
      simp [hblank, hprompt] at htext
    rw [hblank]
    exact scan_blank hin hnext
  · simp [hblank, hin]

theorem scan_prose (hn : n < ls.length) (hin : s.inCode = false) (h : isProse ls n = true) :
    scan s (remaining ls n) = scan (s.describe (textAt ls n)) (remaining ls (n + 1)) := by
  simp only [isProse, Bool.and_eq_true, Bool.not_eq_true'] at h
  obtain ⟨⟨⟨hprompt, hcontinuation⟩, hblank⟩, -⟩ := h
  simp [remaining_eq hn, lineAt, hprompt, hcontinuation, hblank, hin]

theorem scan_passes (hn : n < ls.length) (hin : s.inCode = isOpen ls n)
    (hcode : isCode ls n = false) (hprose : isProse ls n = false)
    (hends : isOpen ls n = true → endsBlock ls n = false) :
    scan s (remaining ls n) = scan s (remaining ls (n + 1)) := by
  have hprompt : isPrompt ls n = false := by
    rw [isCode, Bool.or_eq_false_iff] at hcode
    exact hcode.1
  by_cases hopen : isOpen ls n = true
  · -- a blank line between two prompts of one block
    have hcontinuation : isContinuation ls n = false := by
      simpa [isCode, hprompt, hopen] using hcode
    obtain ⟨hblank, hnext⟩ : (textAt ls n).isEmpty = true ∧ isPrompt ls (n + 1) = true := by
      simpa [endsBlock, hprompt, hcontinuation] using hends hopen
    obtain ⟨code, more, hmore⟩ := remaining_prompt_iff.mpr hnext
    rw [remaining_eq hn, lineAt, hprompt, hcontinuation, hblank, hmore]
    simp [hin, hopen]
  · rw [Bool.not_eq_true] at hopen
    rw [hopen] at hin
    rw [remaining_eq hn, lineAt, hprompt]
    by_cases hcontinuation : isContinuation ls n = true
    · simp [hcontinuation, hin]
    · have hblank : (textAt ls n).isEmpty = true := by
        simpa [isProse, hprompt, hcontinuation, hopen] using hprose
      simp [hcontinuation, hblank, hin]

end Steps

section Prose

variable {ls : List (List Char)} {i n : Nat}

theorem isProse_iff : isProse ls n = true ↔ isPrompt ls n = false ∧ isContinuation ls n = false ∧
    textAt ls n ≠ [] ∧ isOpen ls n = false := by
  simp [isProse, and_assoc]

theorem not_isCode_of_isProse (h : isProse ls n = true) : isCode ls n = false := by
  obtain ⟨hprompt, hcontinuation, -⟩ := isProse_iff.mp h
  simp [isCode, hprompt, hcontinuation]

theorem endsBlock_of_isProse (h : isProse ls n = true) : endsBlock ls n = true := by
  obtain ⟨hprompt, hcontinuation, htext, -⟩ := isProse_iff.mp h
  simp [endsBlock, hprompt, hcontinuation, htext]

theorem proseBefore_succ (h : isCode ls n = false) : proseBefore ls (n + 1) =
    proseBefore ls n ++ if isProse ls n then [textAt ls n] else [] := by
  have hbefore : ∀ k ∈ List.range n,
      (isProse ls k && (List.range (n + 1)).all fun m => m ≤ k || !isCode ls m) =
        (isProse ls k && (List.range n).all fun m => m ≤ k || !isCode ls m) := by
    intro k _
    simp [List.range_succ, h]
  have hlast : ((List.range (n + 1)).all fun m => m ≤ n || !isCode ls m) = true := by
    rw [List.all_eq_true]
    intro m hm
    have hle : m ≤ n := Nat.lt_succ_iff.mp (List.mem_range.mp hm)
    simp [hle]
  rw [proseBefore, List.range_succ, List.filter_append, ← List.range_succ,
    List.filter_congr hbefore, List.map_append, proseBefore]
  by_cases hprose : isProse ls n = true <;> simp [hprose, hlast]

/-- Behind the line that ends a block there is no prose yet. -/
theorem proseBefore_eq_nil (hcode : isCode ls i = true) (hi : i < n)
    (hunended : isUnended ls i n = true) (h : isProse ls n = false) :
    proseBefore ls (n + 1) = [] := by
  rw [proseBefore, List.map_eq_nil_iff, List.filter_eq_nil_iff]
  intro k hk hprose
  rw [Bool.and_eq_true, List.all_eq_true] at hprose
  obtain ⟨hprose, hall⟩ := hprose
  obtain hki | hik : k < i ∨ i ≤ k := Nat.lt_or_ge k i
  · have hbetween := hall i (List.mem_range.mpr (by omega))
    simp [hcode] at hbetween
    omega
  · obtain rfl | hlt : i = k ∨ i < k := by omega
    · rw [not_isCode_of_isProse hprose] at hcode
      cases hcode
    · obtain rfl | hkn : k = n ∨ k < n := by
        have := List.mem_range.mp hk
        omega
      · rw [hprose] at h
        cases h
      · have hends := isUnended_iff.mp hunended k hlt hkn
        rw [endsBlock_of_isProse hprose] at hends
        cases hends

theorem ne_nil_of_mem_proseBefore {t : List Char} (h : t ∈ proseBefore ls n) : t ≠ [] := by
  obtain ⟨k, hk, rfl⟩ := List.mem_map.mp h
  obtain ⟨-, hk⟩ := List.mem_filter.mp hk
  rw [Bool.and_eq_true] at hk
  exact (isProse_iff.mp hk.1).2.2.1

theorem intercalate_eq_nil {sep : List Char} {ts : List (List Char)} (h : ∀ t ∈ ts, t ≠ []) :
    sep.intercalate ts = [] ↔ ts = [] := by
  cases ts with
  | nil => simp
  | cons t ts =>
    have ht := h t (by simp)
    cases ts <;> simp [List.intercalate_cons_cons, ht]

theorem describe_eq {s : State} (h : s.description = [' '].intercalate (proseBefore ls n))
    (t : List Char) : s.describe t =
      { s with description := [' '].intercalate (proseBefore ls n ++ [t]) } := by
  have hempty : [' '].intercalate (proseBefore ls n) = [] ↔ proseBefore ls n = [] :=
    intercalate_eq_nil fun _ => ne_nil_of_mem_proseBefore
  rw [State.describe]
  by_cases hnil : proseBefore ls n = []
  · simp [h, hnil]
  · have hne : s.description.isEmpty = false := by simpa [h, hempty] using hnil
    rw [hne, intercalate_concat_of_ne_nil _ _ hnil, h]
    simp

end Prose

section Run

variable {ls : List (List Char)} {s : State} {block : List Nat} {n : Nat}

/-- What a scan holds at a place, given the code lines of the block that is open there. -/
structure Holds (ls : List (List Char)) (n : Nat) (s : State) (block : List Nat) : Prop where
  inCode : s.inCode = isOpen ls n
  code : s.code = block.map (codeAt ls)
  description : s.description = [' '].intercalate (proseBefore ls (block.head?.getD n))
  chain : block.IsChain fun i j => isUnended ls i j = true
  empty : isOpen ls n = false → block = []
  last : isOpen ls n = true → ∃ i ∈ block.getLast?, i < n ∧ isCode ls i = true ∧
    isUnended ls i n = true

theorem holds_start (ls : List (List Char)) : Holds ls 0 .start [] where
  inCode := rfl
  code := rfl
  description := rfl
  chain := .nil
  empty _ := rfl
  last h := by simp [isOpen] at h

theorem Holds.finished (h : Holds ls n s block) :
    s.finished = (block.splitBy (isUnended ls)).map (exampleOf ls) := by
  rw [State.finished, h.code]
  cases block with
  | nil => rfl
  | cons i block =>
    rw [List.splitBy_of_isChain (by simp) h.chain]
    simp [exampleOf, leadOf, h.description]

theorem Holds.isUnended_last (h : Holds ls n s block) {i : Nat} (hi : i ∈ block.getLast?) :
    isUnended ls i n = true := by
  have hopen : isOpen ls n = true := by
    rw [← Bool.not_eq_false]
    intro hclosed
    simp [h.empty hclosed] at hi
  obtain ⟨last, hlast, -, -, hunended⟩ := h.last hopen
  rwa [Option.mem_unique hi hlast]

/-- A line of code goes to the block at hand, or begins one. -/
theorem Holds.code_step (h : Holds ls n s block) (hcode : isCode ls n = true) :
    Holds ls (n + 1) { s with code := s.code ++ [codeAt ls n], inCode := true } (block ++ [n]) := by
  have hopen := isOpen_succ_of_isCode hcode
  refine ⟨hopen.symm, by simp [h.code], ?_, ?_, ?_, ?_⟩
  · rw [h.description]
    cases block <;> simp
  · rw [List.isChain_append]
    refine ⟨h.chain, .singleton n, ?_⟩
    intro i hi j hj
    obtain rfl : n = j := by simpa using hj
    exact h.isUnended_last hi
  · intro hclosed
    rw [hopen] at hclosed
    cases hclosed
  · intro _
    exact ⟨n, by simp, by omega, hcode, isUnended_self_succ ls n⟩

theorem Holds.prose_step (h : Holds ls n s block) (hprose : isProse ls n = true) :
    Holds ls (n + 1) (s.describe (textAt ls n)) block := by
  obtain ⟨hprompt, -, -, hclosed⟩ := isProse_iff.mp hprose
  have hnext : isOpen ls (n + 1) = false := by rw [isOpen_succ, hprompt, hclosed]; rfl
  obtain rfl := h.empty hclosed
  rw [describe_eq h.description]
  refine ⟨by rw [hnext, ← hclosed, h.inCode], h.code, ?_, .nil, fun _ => rfl, ?_⟩
  · simp [proseBefore_succ (not_isCode_of_isProse hprose), hprose]
  · intro hopen
    rw [hnext] at hopen
    cases hopen

theorem Holds.pass_step (h : Holds ls n s block) (hcode : isCode ls n = false)
    (hprose : isProse ls n = false) (hends : isOpen ls n = true → endsBlock ls n = false) :
    Holds ls (n + 1) s block := by
  have hprompt : isPrompt ls n = false := (Bool.or_eq_false_iff.mp hcode).1
  have hopen : isOpen ls (n + 1) = isOpen ls n := by
    rw [isOpen_succ, hprompt]
    cases hopen : isOpen ls n with
    | false => rfl
    | true => simp [hends hopen]
  refine ⟨by rw [h.inCode, hopen], h.code, ?_, h.chain, by rw [hopen]; exact h.empty, ?_⟩
  · rw [h.description]
    cases block with
    | nil => simp [proseBefore_succ hcode, hprose]
    | cons i block => rfl
  · intro hnext
    rw [hopen] at hnext
    obtain ⟨i, hi, hlt, hcode, hunended⟩ := h.last hnext
    exact ⟨i, hi, by omega, hcode, (isUnended_succ hlt).mpr ⟨hunended, hends hnext⟩⟩

theorem Holds.end_step (h : Holds ls n s block) (hopen : isOpen ls n = true)
    (hends : endsBlock ls n = true) : Holds ls (n + 1) .start [] := by
  have hnext : isOpen ls (n + 1) = false := by
    have hprompt : isPrompt ls n = false := by
      simp only [endsBlock, Bool.and_eq_true, Bool.not_eq_true'] at hends
      exact hends.1.1
    rw [isOpen_succ, hprompt, hends, hopen]
    rfl
  obtain ⟨i, -, hlt, hcode, hunended⟩ := h.last hopen
  have hprose : isProse ls n = false := by simp [isProse, hopen]
  refine ⟨hnext.symm, rfl, ?_, .nil, fun _ => rfl, ?_⟩
  · rw [List.head?_nil, Option.getD_none, proseBefore_eq_nil hcode hlt hunended hprose]
    rfl
  · intro hopen
    rw [hnext] at hopen
    cases hopen

/-- The code lines from a place on. -/
def codeFrom (ls : List (List Char)) (n m : Nat) : List Nat := (List.range' n m).filter (isCode ls)

theorem codeFrom_succ (ls : List (List Char)) (n m : Nat) :
    codeFrom ls n (m + 1) =
      if isCode ls n then n :: codeFrom ls (n + 1) m else codeFrom ls (n + 1) m := by
  rw [codeFrom, List.range'_succ, List.filter_cons, codeFrom]

/-- A scan gives an example for the block at hand, together with the code lines that go on with it,
and for each block after it. -/
theorem scan_eq (m : Nat) (hm : n + m = ls.length) (h : Holds ls n s block) :
    scan s (remaining ls n) =
      ((block ++ codeFrom ls n m).splitBy (isUnended ls)).map (exampleOf ls) := by
  induction m generalizing n s block with
  | zero =>
    have hrest : remaining ls n = [] := by simp [remaining, ← hm]
    rw [hrest, scan, h.finished]
    simp [codeFrom]
  | succ m ih =>
    have hn : n < ls.length := by omega
    have hnext : n + 1 + m = ls.length := by omega
    rw [codeFrom_succ]
    by_cases hcode : isCode ls n = true
    · rw [scan_code hn h.inCode hcode, ih hnext (h.code_step hcode), if_pos hcode,
        List.append_assoc, List.singleton_append]
    rw [Bool.not_eq_true] at hcode
    rw [hcode, if_neg (by simp)]
    by_cases hprose : isProse ls n = true
    · have hclosed := (isProse_iff.mp hprose).2.2.2
      rw [scan_prose hn (by rw [h.inCode, hclosed]) hprose, ih hnext (h.prose_step hprose)]
    rw [Bool.not_eq_true] at hprose
    by_cases hends : isOpen ls n = true ∧ endsBlock ls n = true
    · obtain ⟨hopen, hends⟩ := hends
      -- the line at hand stands between the block and all code behind
      have hparted : ∀ i ∈ block.getLast?, ∀ j ∈ (codeFrom ls (n + 1) m).head?,
          isUnended ls i j = false := by
        intro i hi j hj
        obtain ⟨last, hlast, hlt, -⟩ := h.last hopen
        obtain rfl := Option.mem_unique hi hlast
        have hjn : n < j := by
          have hmem := (List.mem_filter.mp (List.mem_of_mem_head? hj)).1
          have := (List.mem_range'_1.mp hmem).1
          omega
        rw [← Bool.not_eq_true, isUnended_iff]
        intro hall
        rw [hall n hlt hjn] at hends
        cases hends
      rw [scan_ends hn (by rw [h.inCode, hopen]) hends, ih hnext (h.end_step hopen hends),
        h.finished, List.splitBy_append hparted, List.map_append, List.nil_append]
    · have hgoes : isOpen ls n = true → endsBlock ls n = false := by
        intro hopen
        simpa [hopen] using hends
      rw [scan_passes hn h.inCode hcode hprose hgoes, ih hnext (h.pass_step hcode hprose hgoes)]

/-- Every block of a text is one example. -/
theorem scan_eq_blocks (ls : List (List Char)) :
    scan .start (ls.map readLine) = (blocks ls).map (exampleOf ls) := by
  have h := scan_eq ls.length (by omega) (holds_start ls)
  rw [remaining, List.drop_zero, codeFrom, ← List.range_eq_range', List.nil_append] at h
  exact h

end Run

section Code

variable {ls : List (List Char)} {block : List Nat}

theorem unlines_eq_nil {ts : List (List Char)} : unlines ts = [] ↔ ts = [] ∨ ts = [[]] := by
  rw [unlines]
  cases ts with
  | nil => simp
  | cons t ts => cases ts <;> simp [List.intercalate_cons_cons]

theorem exampleOf_isEmpty (h : block ≠ []) : (exampleOf ls block).isEmpty = isVoid ls block := by
  have hcode :
      (unlines (block.map (codeAt ls))).isEmpty = decide (block.map (codeAt ls) = [[]]) := by
    rw [Bool.eq_iff_iff, List.isEmpty_iff, unlines_eq_nil, decide_eq_true_eq]
    simp [h]
  have hlead : ([' '].intercalate (leadOf ls block)).isEmpty = (leadOf ls block).isEmpty := by
    rw [Bool.eq_iff_iff, List.isEmpty_iff, List.isEmpty_iff]
    exact intercalate_eq_nil fun t => ne_nil_of_mem_proseBefore
  rw [Example.isEmpty, isVoid, exampleOf, hcode, hlead]

theorem newline_not_mem_codeAt (cs : List Char) (i : Nat) : '\n' ∉ codeAt (lines cs) i := by
  intro hmem
  have hline := (strip_isInfix _).subset (List.mem_of_mem_drop hmem)
  cases h : (lines cs)[i]? with
  | none => simp [h] at hline
  | some l =>
    rw [h, Option.getD_some] at hline
    exact not_mem_of_mem_splitChar (List.mem_of_getElem? h) hline

theorem lines_unlines {ts : List (List Char)} (hne : ts ≠ []) (h : ∀ t ∈ ts, '\n' ∉ t) :
    lines (unlines ts) = ts :=
  splitChar_intercalate_of_not_mem hne h

/-- The examples of a text show its code, line by line: all prompts and the continuations of open
blocks, in their order and each once, but for the blocks that are a single line without code and
have no prose. -/
theorem extract_code_lines (cs : List Char) :
    (blocks (lines cs)).flatten = codePlaces (lines cs) ∧
    (extract cs).map (fun e => lines e.code) =
      ((blocks (lines cs)).filter fun block => !isVoid (lines cs) block).map fun block =>
        block.map (codeAt (lines cs)) := by
  refine ⟨List.flatten_splitBy _ _, ?_⟩
  have hne : ∀ block ∈ blocks (lines cs), block ≠ [] := fun block => List.ne_nil_of_mem_splitBy
  have hkept : ∀ block ∈ blocks (lines cs),
      ((fun e : Example => !e.isEmpty) ∘ exampleOf (lines cs)) block =
        !isVoid (lines cs) block := by
    intro block hblock
    rw [Function.comp_apply, exampleOf_isEmpty (hne block hblock)]
  rw [extract, scan_eq_blocks, List.filter_map, List.filter_congr hkept, List.map_map]
  apply List.map_congr_left
  intro block hblock
  have hblock := hne block (List.mem_filter.mp hblock).1
  rw [Function.comp_apply, exampleOf]
  refine lines_unlines (by simpa using hblock) fun t ht => ?_
  obtain ⟨i, -, rfl⟩ := List.mem_map.mp ht
  exact newline_not_mem_codeAt cs i

end Code

end DocSite.Doctest
