import DocSite.Proofs.Doctest
import Mathlib.Data.List.Sort

/-!
The prose that the examples of a text show. A line of prose goes to the code behind it, so it is
told exactly if there is some. What follows the first line of an output is prose to the scan.
-/

namespace DocSite.Doctest

open Text

variable {ls ls' : List (List Char)} {block : List Nat} {i j n : Nat}

section Leads

/-- The places of the prose that leads up to a block. -/
def leadPlaces (ls : List (List Char)) (block : List Nat) : List Nat :=
  (List.range (block.head?.getD 0)).filter fun k =>
    isProse ls k && (List.range (block.head?.getD 0)).all fun m => m ≤ k || !isCode ls m

theorem leadOf_eq (ls : List (List Char)) (block : List Nat) :
    leadOf ls block = (leadPlaces ls block).map (textAt ls) := rfl

theorem mem_leadPlaces : i ∈ leadPlaces ls (n :: block) ↔
    i < n ∧ isProse ls i = true ∧ ∀ m, i < m → m < n → isCode ls m = false := by
  simp only [leadPlaces, List.head?_cons, Option.getD_some, List.mem_filter, List.mem_range,
    Bool.and_eq_true, List.all_eq_true, Bool.or_eq_true, decide_eq_true_eq, Bool.not_eq_true']
  constructor
  · rintro ⟨hi, hprose, hall⟩
    exact ⟨hi, hprose, fun m him hmn => (hall m hmn).resolve_left (by omega)⟩
  · rintro ⟨hi, hprose, hall⟩
    refine ⟨hi, hprose, fun m hmn => ?_⟩
    by_cases hmi : m ≤ i
    · exact .inl hmi
    · exact .inr (hall m (by omega) hmn)

theorem lt_length_of_textAt_ne_nil (h : textAt ls i ≠ []) : i < ls.length := by
  refine Nat.lt_of_not_le fun hle => h ?_
  rw [textAt, List.getElem?_eq_none hle]
  rfl

theorem textAt_ne_nil_of_isCode (h : isCode ls i = true) : textAt ls i ≠ [] := by
  intro htext
  have hprompt : isPrompt ls i = false := by rw [isPrompt, htext]; rfl
  have hcontinuation : isContinuation ls i = false := by rw [isContinuation, htext]; rfl
  simp [isCode, hprompt, hcontinuation] at h

theorem mem_codePlaces : i ∈ codePlaces ls ↔ isCode ls i = true := by
  rw [codePlaces, List.mem_filter, List.mem_range]
  exact ⟨And.right, fun h => ⟨lt_length_of_textAt_ne_nil (textAt_ne_nil_of_isCode h), h⟩⟩

theorem isCode_of_mem_blocks (hblock : block ∈ blocks ls) (hi : i ∈ block) :
    isCode ls i = true := by
  rw [← mem_codePlaces, ← List.flatten_splitBy (isUnended ls) (codePlaces ls)]
  exact List.mem_flatten_of_mem hblock hi

/-- The lines of a block are in order, and those of the next block come behind them. -/
theorem pairwise_blocks (ls : List (List Char)) :
    (∀ block ∈ blocks ls, block.Pairwise (· < ·)) ∧
      (blocks ls).Pairwise fun b c => ∀ i ∈ b, ∀ j ∈ c, i < j := by
  rw [← List.pairwise_flatten, blocks, List.flatten_splitBy]
  exact List.pairwise_lt_range.filter _

/-- The first code behind a line of prose begins a block. -/
theorem exists_block_of_isProse (hprose : isProse ls i = true) (hcode : isCode ls j = true)
    (hij : i < j) (hfirst : ∀ m, i < m → m < j → isCode ls m = false) :
    ∃ block, j :: block ∈ blocks ls := by
  have hmem : j ∈ (blocks ls).flatten := by
    rw [blocks, List.flatten_splitBy]
    exact mem_codePlaces.mpr hcode
  obtain ⟨block, hblock, hj⟩ := List.mem_flatten.mp hmem
  obtain ⟨front, back, rfl⟩ := List.append_of_mem hj
  obtain rfl | ⟨front, p, rfl⟩ := List.eq_nil_or_concat front
  · exact ⟨back, hblock⟩
  · -- the code before it in a block would reach over the prose
    rw [List.concat_eq_append, List.append_assoc, List.singleton_append] at hblock
    have hp : p < j := by
      have hsorted := (pairwise_blocks ls).1 _ hblock
      rw [List.pairwise_append, List.pairwise_cons] at hsorted
      exact hsorted.2.1.1 j (by simp)
    have hunended : isUnended ls p j = true := by
      have hchain := List.isChain_of_mem_splitBy hblock
      rw [List.isChain_append, List.isChain_cons_cons] at hchain
      exact hchain.2.1.1
    have hpcode := isCode_of_mem_blocks hblock (i := p) (by simp)
    have hpi : p < i := by
      refine Nat.lt_of_le_of_ne (Nat.le_of_not_lt fun hip => ?_) ?_
      · rw [hfirst p hip hp] at hpcode
        cases hpcode
      · rintro rfl
        rw [not_isCode_of_isProse hprose] at hpcode
        cases hpcode
    have hends := isUnended_iff.mp hunended i hpi hij
    rw [endsBlock_of_isProse hprose] at hends
    cases hends

/-- Code behind a line of prose begins with a prompt. -/
theorem exists_prompt_of_isProse (hprose : isProse ls i = true) (hcode : isCode ls j = true)
    (hij : i < j) : ∃ k, i < k ∧ isPrompt ls k = true := by
  simp only [isCode, Bool.or_eq_true, Bool.and_eq_true] at hcode
  rcases hcode with hprompt | ⟨-, hopen⟩
  · exact ⟨j, hij, hprompt⟩
  · obtain ⟨k, hkj, hprompt, hunended⟩ := isOpen_iff.mp hopen
    refine ⟨k, Nat.lt_of_not_le fun hki => ?_, hprompt⟩
    obtain rfl | hki : k = i ∨ k < i := by omega
    · rw [(isProse_iff.mp hprose).1] at hprompt
      cases hprompt
    · have hends := isUnended_iff.mp hunended i hki hij
      rw [endsBlock_of_isProse hprose] at hends
      cases hends

def hasPromptBehind (ls : List (List Char)) (i : Nat) : Bool :=
  (List.range ls.length).any fun j => i < j && isPrompt ls j

theorem isCode_of_isPrompt (h : isPrompt ls i = true) : isCode ls i = true := by simp [isCode, h]

theorem hasPromptBehind_iff :
    hasPromptBehind ls i = true ↔ ∃ j, i < j ∧ isPrompt ls j = true := by
  simp only [hasPromptBehind, List.any_eq_true, List.mem_range, Bool.and_eq_true,
    decide_eq_true_eq]
  constructor
  · rintro ⟨j, -, hij, hprompt⟩
    exact ⟨j, hij, hprompt⟩
  · rintro ⟨j, hij, hprompt⟩
    have htext := textAt_ne_nil_of_isCode (isCode_of_isPrompt hprompt)
    exact ⟨j, lt_length_of_textAt_ne_nil htext, hij, hprompt⟩

/-- The prose that has code behind it. -/
def toldPlaces (ls : List (List Char)) : List Nat :=
  (List.range ls.length).filter fun i => isProse ls i && hasPromptBehind ls i

theorem mem_toldPlaces :
    i ∈ toldPlaces ls ↔ isProse ls i = true ∧ ∃ j, i < j ∧ isPrompt ls j = true := by
  rw [toldPlaces, List.mem_filter, List.mem_range, Bool.and_eq_true, hasPromptBehind_iff]
  refine ⟨And.right, fun h => ⟨?_, h⟩⟩
  exact lt_length_of_textAt_ne_nil (isProse_iff.mp h.1).2.2.1

theorem mem_toldPlaces_iff_lead :
    i ∈ toldPlaces ls ↔ ∃ block ∈ blocks ls, i ∈ leadPlaces ls block := by
  rw [mem_toldPlaces]
  constructor
  · rintro ⟨hprose, hprompt⟩
    have hbehind : ∃ j, i < j ∧ isCode ls j = true := by
      obtain ⟨j, hij, hprompt⟩ := hprompt
      exact ⟨j, hij, isCode_of_isPrompt hprompt⟩
    obtain ⟨hij, hcode⟩ := Nat.find_spec hbehind
    have hfirst (m : Nat) (him : i < m) (hm : m < Nat.find hbehind) : isCode ls m = false := by
      simpa [him] using Nat.find_min hbehind hm
    obtain ⟨block, hblock⟩ := exists_block_of_isProse hprose hcode hij hfirst
    exact ⟨_, hblock, mem_leadPlaces.mpr ⟨hij, hprose, hfirst⟩⟩
  · rintro ⟨block, hblock, hi⟩
    obtain ⟨n, block, rfl⟩ := List.exists_cons_of_ne_nil (List.ne_nil_of_mem_splitBy hblock)
    obtain ⟨hin, hprose, -⟩ := mem_leadPlaces.mp hi
    exact ⟨hprose, exists_prompt_of_isProse hprose (isCode_of_mem_blocks hblock (by simp)) hin⟩

/-- Block by block, the prose that leads up to the code is all that has code behind it. -/
theorem flatten_leadPlaces (ls : List (List Char)) :
    ((blocks ls).map (leadPlaces ls)).flatten = toldPlaces ls := by
  have hsorted : (((blocks ls).map (leadPlaces ls)).flatten).Pairwise (· < ·) := by
    rw [List.pairwise_flatten, List.forall_mem_map, List.pairwise_map]
    refine ⟨fun block _ => List.pairwise_lt_range.filter _, ?_⟩
    refine (pairwise_blocks ls).2.imp_of_mem fun {b c} hb hc hbc i hi j hj => ?_
    obtain ⟨m, b, rfl⟩ := List.exists_cons_of_ne_nil (List.ne_nil_of_mem_splitBy hb)
    obtain ⟨n, c, rfl⟩ := List.exists_cons_of_ne_nil (List.ne_nil_of_mem_splitBy hc)
    -- the code of the earlier block stands between the two
    have him : i < m := (mem_leadPlaces.mp hi).1
    have hmj : ¬ j < m := by
      intro hjm
      have hcode := (mem_leadPlaces.mp hj).2.2 m hjm (hbc m (by simp) n (by simp))
      rw [isCode_of_mem_blocks hb (by simp)] at hcode
      cases hcode
    omega
  have htold : (toldPlaces ls).Pairwise (· < ·) := List.pairwise_lt_range.filter _
  refine hsorted.eq_of_mem_iff htold fun i => ?_
  rw [mem_toldPlaces_iff_lead, List.mem_flatten]
  simp

end Leads

section Telling

variable {ds : List (List Char)} {places : List Nat}

/-- Whether descriptions tell the lines at some places, in order and each once: the places fall
into runs, one for each description, which is the lines of its run with spaces between. -/
def Tells (ls ds : List (List Char)) (places : List Nat) : Prop :=
  ∃ runs : List (List Nat), runs.flatten = places ∧
    ds = runs.map fun run => [' '].intercalate (run.map (textAt ls))

theorem leadPlaces_eq_nil_of_isEmpty (h : (exampleOf ls block).isEmpty = true) :
    leadPlaces ls block = [] := by
  rw [Example.isEmpty, Bool.and_eq_true, List.isEmpty_iff, List.isEmpty_iff] at h
  have hlead : leadOf ls block = [] :=
    (intercalate_eq_nil fun _ => ne_nil_of_mem_proseBefore).mp h.2
  rwa [leadOf_eq, List.map_eq_nil_iff] at hlead

theorem extract_eq (cs : List Char) : extract cs =
    ((blocks (lines cs)).filter fun b => !(exampleOf (lines cs) b).isEmpty).map
      (exampleOf (lines cs)) := by
  rw [extract, scan_eq_blocks, List.filter_map]
  rfl

/-- The descriptions of the examples of a text tell the prose that has code behind it. -/
theorem tells_extract (cs : List Char) :
    Tells (lines cs) ((extract cs).map Example.description) (toldPlaces (lines cs)) := by
  refine ⟨((blocks (lines cs)).filter fun b => !(exampleOf (lines cs) b).isEmpty).map
    (leadPlaces (lines cs)), ?_, ?_⟩
  · rw [← flatten_leadPlaces]
    induction blocks (lines cs) with
    | nil => rfl
    | cons block rest ih =>
      by_cases hempty : (exampleOf (lines cs) block).isEmpty = true
      · -- what is left out has no prose
        simpa [hempty, leadPlaces_eq_nil_of_isEmpty hempty] using ih
      · simpa [hempty] using ih
  · rw [extract_eq, List.map_map, List.map_map]
    rfl

/-- The characters of texts other than spaces. -/
def letters (ts : List (List Char)) : List Char := ts.flatten.filter (· != ' ')

@[simp] theorem letters_nil : letters [] = [] := rfl

@[simp] theorem letters_cons (t : List Char) (ts : List (List Char)) :
    letters (t :: ts) = t.filter (· != ' ') ++ letters ts := by
  simp [letters]

@[simp] theorem letters_append (ts us : List (List Char)) :
    letters (ts ++ us) = letters ts ++ letters us := by
  simp [letters]

theorem filter_intercalate (ts : List (List Char)) :
    ([' '].intercalate ts).filter (· != ' ') = letters ts := by
  induction ts with
  | nil => rfl
  | cons t ts ih =>
    cases ts with
    | nil => simp
    | cons u ts => simp [List.intercalate_cons_cons, ← ih]

theorem Tells.letters_eq (h : Tells ls ds places) :
    letters ds = letters (places.map (textAt ls)) := by
  obtain ⟨runs, rfl, rfl⟩ := h
  induction runs with
  | nil => rfl
  | cons run runs ih => simp [filter_intercalate, ih]

/-- A line that is not blank has letters. -/
theorem filter_textAt_ne_nil (h : textAt ls i ≠ []) : (textAt ls i).filter (· != ' ') ≠ [] := by
  obtain ⟨c, hc, hblank⟩ := exists_mem_strip h
  have hspace : c ≠ ' ' := by
    rintro rfl
    cases hblank
  exact List.ne_nil_of_mem (List.mem_filter.mpr ⟨hc, by simpa using hspace⟩)

theorem forall_of_letters_filter_eq {p : Nat → Bool} (hne : ∀ i ∈ places, textAt ls i ≠ [])
    (h : letters ((places.filter p).map (textAt ls)) = letters (places.map (textAt ls))) :
    ∀ i ∈ places, p i = true := by
  have hle (is : List Nat) : (letters ((is.filter p).map (textAt ls))).length ≤
      (letters (is.map (textAt ls))).length := by
    induction is with
    | nil => simp
    | cons i is ih => by_cases hp : p i <;> simp [hp] <;> omega
  induction places with
  | nil => simp
  | cons i is ih =>
    have hi : p i = true := by
      rw [← Bool.not_eq_false]
      intro hp
      have hpos := List.length_pos_iff.mpr (filter_textAt_ne_nil (hne i (by simp)))
      have hlength := congrArg List.length h
      rw [List.filter_cons_of_neg (by simp [hp]), List.map_cons, letters_cons,
        List.length_append] at hlength
      have hrest := hle is
      omega
    refine List.forall_mem_cons.mpr ⟨hi, ih (fun j hj => hne j (List.mem_cons_of_mem _ hj)) ?_⟩
    simpa [hi] using h

end Telling

section Keeping

/-- The lines that are neither blank nor code. -/
def plainPlaces (ls : List (List Char)) : List Nat :=
  (List.range ls.length).filter fun i => !isCode ls i && !(textAt ls i).isEmpty

/-- Whether no output follows on code: the next line is code too or blank, or there is none. -/
def IsOutputFree (ls : List (List Char)) : Prop :=
  ∀ i ∈ codePlaces ls, isCode ls (i + 1) = true ∨ textAt ls (i + 1) = []

instance (ls : List (List Char)) : Decidable (IsOutputFree ls) :=
  inferInstanceAs (Decidable (∀ _ ∈ _, _))

theorem mem_plainPlaces : i ∈ plainPlaces ls ↔ isCode ls i = false ∧ textAt ls i ≠ [] := by
  simp only [plainPlaces, List.mem_filter, List.mem_range, Bool.and_eq_true, Bool.not_eq_true',
    List.isEmpty_eq_false_iff]
  exact ⟨And.right, fun h => ⟨lt_length_of_textAt_ne_nil h.2, h⟩⟩

/-- A block is open before a line that is not code only if the line before is. -/
theorem isCode_of_isOpen_succ (hopen : isOpen ls (n + 1) = true)
    (hcode : isCode ls (n + 1) = false) : isCode ls n = true := by
  have hnext : isPrompt ls (n + 1) = false := (Bool.or_eq_false_iff.mp hcode).1
  rw [isOpen_succ, Bool.or_eq_true, Bool.and_eq_true, Bool.not_eq_true'] at hopen
  rcases hopen with hprompt | ⟨hopen, hends⟩
  · exact isCode_of_isPrompt hprompt
  · have hmarked : isPrompt ls n = true ∨ isContinuation ls n = true := by
      simpa [endsBlock, hnext, or_iff_not_imp_left] using hends
    simpa [isCode, hopen] using hmarked

theorem IsOutputFree.isOpen_eq_false (h : IsOutputFree ls) (hi : i ∈ plainPlaces ls) :
    isOpen ls i = false := by
  obtain ⟨hcode, htext⟩ := mem_plainPlaces.mp hi
  rw [← Bool.not_eq_true]
  intro hopen
  cases i with
  | zero => simp [isOpen] at hopen
  | succ n =>
    rcases h n (mem_codePlaces.mpr (isCode_of_isOpen_succ hopen hcode)) with hnext | hnext
    · rw [hcode] at hnext
      cases hnext
    · exact htext hnext

theorem toldPlaces_eq_filter (h : IsOutputFree ls) : toldPlaces ls =
    (plainPlaces ls).filter fun i => !isContinuation ls i && hasPromptBehind ls i := by
  rw [toldPlaces, plainPlaces, List.filter_filter]
  refine List.filter_congr fun i _ => ?_
  rw [Bool.eq_iff_iff]
  simp only [Bool.and_eq_true, isProse_iff, Bool.not_eq_true', List.isEmpty_eq_false_iff]
  constructor
  · rintro ⟨⟨hprompt, hcontinuation, htext, -⟩, hbehind⟩
    exact ⟨⟨hcontinuation, hbehind⟩, by simp [isCode, hprompt, hcontinuation], htext⟩
  · rintro ⟨⟨hcontinuation, hbehind⟩, hcode, htext⟩
    have hopen := h.isOpen_eq_false (mem_plainPlaces.mpr ⟨hcode, htext⟩)
    exact ⟨⟨(Bool.or_eq_false_iff.mp hcode).1, hcontinuation, htext, hopen⟩, hbehind⟩

/-- Where no output follows on code, the descriptions tell every line that is neither blank nor
code, except those with the mark of a continuation and those behind all code. So they tell all of
these lines, in order and each once, if and only if there are no such exceptions. -/
theorem extract_tells_prose_iff (cs : List Char) (h : IsOutputFree (lines cs)) :
    Tells (lines cs) ((extract cs).map Example.description)
        ((plainPlaces (lines cs)).filter fun i =>
          !isContinuation (lines cs) i && hasPromptBehind (lines cs) i) ∧
      (Tells (lines cs) ((extract cs).map Example.description) (plainPlaces (lines cs)) ↔
        ∀ i ∈ plainPlaces (lines cs),
          isContinuation (lines cs) i = false ∧ ∃ j, i < j ∧ isPrompt (lines cs) j = true) := by
  have htold := tells_extract cs
  rw [toldPlaces_eq_filter h] at htold
  have hkept (i : Nat) : (!isContinuation (lines cs) i && hasPromptBehind (lines cs) i) = true ↔
      isContinuation (lines cs) i = false ∧ ∃ j, i < j ∧ isPrompt (lines cs) j = true := by
    rw [Bool.and_eq_true, Bool.not_eq_true', hasPromptBehind_iff]
  refine ⟨htold, fun hall i hi => ?_, fun hall => ?_⟩
  · -- a line that is left out would be missing among the letters
    have hletters := htold.letters_eq.symm.trans hall.letters_eq
    exact (hkept i).mp
      (forall_of_letters_filter_eq (fun j hj => (mem_plainPlaces.mp hj).2) hletters i hi)
  · rwa [List.filter_eq_self.mpr fun i hi => (hkept i).mpr (hall i hi)] at htold

def interleaved : List Char := "First.\n>>> f(\n... 1)\n\nSecond,\n and third.\n>>> g()\n".toList

theorem extract_tells_prose_interleaved :
    IsOutputFree (lines interleaved) ∧
      Tells (lines interleaved) ((extract interleaved).map Example.description)
        (plainPlaces (lines interleaved)) := by
  -- evaluated together, since the text is decoded anew for each evaluation
  obtain ⟨hfree, hlast, hmarks⟩ : IsOutputFree (lines interleaved) ∧
      isPrompt (lines interleaved) 6 = true ∧ ((plainPlaces (lines interleaved)).all fun i =>
        !isContinuation (lines interleaved) i && i < 6) = true := by
    decide +kernel
  refine ⟨hfree, (extract_tells_prose_iff interleaved hfree).2.mpr fun i hi => ?_⟩
  have hi := List.all_eq_true.mp hmarks i hi
  rw [Bool.and_eq_true, Bool.not_eq_true', decide_eq_true_eq] at hi
  exact ⟨hi.1, 6, hi.2, hlast⟩

def closingRemark : List Char := "Call f.\n\n>>> f()\n\nThat is all.\n".toList

/-- A remark behind the last code is not told. -/
theorem extract_loses_closingRemark :
    IsOutputFree (lines closingRemark) ∧ 4 ∈ plainPlaces (lines closingRemark) ∧
      (extract closingRemark).map Example.description = ["Call f.".toList] ∧
      ¬ Tells (lines closingRemark) ((extract closingRemark).map Example.description)
        (plainPlaces (lines closingRemark)) := by
  obtain ⟨hfree, hplain, htold, hletters⟩ : IsOutputFree (lines closingRemark) ∧
      4 ∈ plainPlaces (lines closingRemark) ∧
      (extract closingRemark).map Example.description = ["Call f.".toList] ∧
      letters ((extract closingRemark).map Example.description) ≠
        letters ((plainPlaces (lines closingRemark)).map (textAt (lines closingRemark))) := by
    decide +kernel
  exact ⟨hfree, hplain, htold, fun h => hletters h.letters_eq⟩

end Keeping

section Changing

/-- Whether two texts have the same sorts of lines. -/
structure SameSorts (ls ls' : List (List Char)) : Prop where
  length : ls'.length = ls.length
  prompt : ∀ k, isPrompt ls' k = isPrompt ls k
  continuation : ∀ k, isContinuation ls' k = isContinuation ls k
  blank : ∀ k, (textAt ls' k).isEmpty = (textAt ls k).isEmpty

theorem SameSorts.isUnended (h : SameSorts ls ls') : isUnended ls' = isUnended ls := by
  funext i j
  simp only [Doctest.isUnended, endsBlock, h.prompt, h.continuation, h.blank]

theorem SameSorts.isOpen (h : SameSorts ls ls') : isOpen ls' = isOpen ls := by
  funext i
  simp only [Doctest.isOpen, h.prompt, h.isUnended]

theorem SameSorts.isCode (h : SameSorts ls ls') : isCode ls' = isCode ls := by
  funext i
  simp only [Doctest.isCode, h.prompt, h.continuation, h.isOpen]

theorem SameSorts.isProse (h : SameSorts ls ls') : isProse ls' = isProse ls := by
  funext i
  simp only [Doctest.isProse, h.prompt, h.continuation, h.blank, h.isOpen]

theorem SameSorts.blocks (h : SameSorts ls ls') : blocks ls' = blocks ls := by
  rw [Doctest.blocks, codePlaces, h.length, h.isCode, h.isUnended, Doctest.blocks, codePlaces]

theorem SameSorts.leadPlaces (h : SameSorts ls ls') : leadPlaces ls' = leadPlaces ls := by
  funext block
  simp only [Doctest.leadPlaces, h.isProse, h.isCode]

theorem SameSorts.toldPlaces (h : SameSorts ls ls') : toldPlaces ls' = toldPlaces ls := by
  simp only [Doctest.toldPlaces, hasPromptBehind, h.isProse, h.length, h.prompt]

/-- Whether two lines are the same to a scan but for what they say. -/
structure Alike (a b : List Char) : Prop where
  prompt : startsWith promptMark (strip a) = startsWith promptMark (strip b)
  continuation : startsWith continuationMark (strip a) = startsWith continuationMark (strip b)
  blank : (strip a).isEmpty = (strip b).isEmpty

theorem textAt_set_ne {k : Nat} (h : k ≠ i) (ls : List (List Char)) (t : List Char) :
    textAt (ls.set i t) k = textAt ls k := by
  rw [textAt, List.getElem?_set_ne h.symm, textAt]

theorem textAt_set_self (h : i < ls.length) (t : List Char) :
    textAt (ls.set i t) i = strip t := by
  rw [textAt, List.getElem?_set_self h, Option.getD_some]

theorem sameSorts_set {t : List Char} (hi : i < ls.length) (h : Alike t (ls[i]?.getD [])) :
    SameSorts ls (ls.set i t) := by
  have htext (f : List Char → Bool) (hf : f (strip t) = f (textAt ls i)) (k : Nat) :
      f (textAt (ls.set i t) k) = f (textAt ls k) := by
    by_cases hk : k = i
    · rw [hk, textAt_set_self hi, hf]
    · rw [textAt_set_ne hk]
  exact ⟨List.length_set, htext (startsWith promptMark) h.prompt,
    htext (startsWith continuationMark) h.continuation, htext List.isEmpty h.blank⟩

theorem lines_unlines_set {t : List Char} (ht : '\n' ∉ t) (cs : List Char) (i : Nat) :
    lines (unlines ((lines cs).set i t)) = (lines cs).set i t := by
  refine lines_unlines ?_ fun u hu => ?_
  · rw [← List.length_pos_iff, List.length_set, List.length_pos_iff]
    exact splitChar_ne_nil _ _
  · rcases List.mem_or_eq_of_mem_set hu with hu | rfl
    · exact not_mem_of_mem_splitChar hu
    · exact ht

/-- A line that is neither code nor told has no part in the examples. -/
theorem extract_set {cs t : List Char} (ht : '\n' ∉ t)
    (h : SameSorts (lines cs) ((lines cs).set i t))
    (hcode : isCode (lines cs) i = false) (htold : i ∉ toldPlaces (lines cs)) :
    extract (unlines ((lines cs).set i t)) = extract cs := by
  have hexample : ∀ block ∈ blocks (lines cs),
      exampleOf ((lines cs).set i t) block = exampleOf (lines cs) block := by
    intro block hblock
    have hlead : ∀ k ∈ leadPlaces (lines cs) block,
        textAt ((lines cs).set i t) k = textAt (lines cs) k := by
      intro k hk
      refine textAt_set_ne ?_ _ _
      rintro rfl
      exact htold (mem_toldPlaces_iff_lead.mpr ⟨block, hblock, hk⟩)
    have hblock : ∀ k ∈ block, codeAt ((lines cs).set i t) k = codeAt (lines cs) k := by
      intro k hk
      rw [codeAt, textAt_set_ne, codeAt]
      rintro rfl
      rw [isCode_of_mem_blocks hblock hk] at hcode
      cases hcode
    rw [exampleOf, leadOf_eq, h.leadPlaces, List.map_congr_left hlead, List.map_congr_left hblock,
      ← leadOf_eq, exampleOf]
  rw [extract_eq, lines_unlines_set ht, h.blocks, extract_eq]
  rw [List.filter_congr fun block hblock => by rw [hexample block hblock]]
  exact List.map_congr_left fun block hblock => hexample block (List.mem_filter.mp hblock).1

/-- Whether a line has no part in the descriptions: they are the same whatever it says. -/
def IsSilent (cs : List Char) (i : Nat) : Prop :=
  ∀ t, '\n' ∉ t → Alike t ((lines cs)[i]?.getD []) →
    (extract (unlines ((lines cs).set i t))).map Example.description =
      (extract cs).map Example.description

theorem letters_set {cs t : List Char} {before after : List Nat} (ht : '\n' ∉ t)
    (h : SameSorts (lines cs) ((lines cs).set i t))
    (htold : toldPlaces (lines cs) = before ++ i :: after) :
    letters ((extract (unlines ((lines cs).set i t))).map Example.description) =
      letters (before.map (textAt (lines cs))) ++
        ((strip t).filter (· != ' ') ++ letters (after.map (textAt (lines cs)))) := by
  have hsorted : (toldPlaces (lines cs)).Pairwise (· < ·) := List.pairwise_lt_range.filter _
  rw [htold, List.pairwise_append, List.pairwise_cons] at hsorted
  obtain ⟨-, ⟨hafter, -⟩, hbefore⟩ := hsorted
  have hi : i < (lines cs).length := by
    have hmem : i ∈ toldPlaces (lines cs) := by simp [htold]
    exact List.mem_range.mp (List.mem_filter.mp hmem).1
  have hsame (places : List Nat) (hne : ∀ k ∈ places, k ≠ i) :
      places.map (textAt ((lines cs).set i t)) = places.map (textAt (lines cs)) :=
    List.map_congr_left fun k hk => textAt_set_ne (hne k hk) _ _
  rw [(tells_extract _).letters_eq, lines_unlines_set ht, h.toldPlaces, htold, List.map_append,
    List.map_cons, letters_append, letters_cons, textAt_set_self hi,
    hsame before fun k hk => (hbefore k hk i (by simp)).ne,
    hsame after fun k hk => (hafter k hk).ne']

/-- A line that is neither blank nor code has a part in the descriptions if and only if it is
told. -/
theorem isSilent_iff {cs : List Char} (hi : i ∈ plainPlaces (lines cs)) :
    IsSilent cs i ↔ i ∉ toldPlaces (lines cs) := by
  obtain ⟨hcode, htext⟩ := mem_plainPlaces.mp hi
  have hlength := lt_length_of_textAt_ne_nil htext
  constructor
  · intro hsilent htold
    obtain ⟨before, after, hplaces⟩ := List.append_of_mem htold
    obtain ⟨hprompt, hcontinuation, -⟩ := isProse_iff.mp (mem_toldPlaces.mp htold).1
    have hempty : (textAt (lines cs) i).isEmpty = false := by simpa using htext
    -- two lines of different length would be told in its place
    have hone : Alike ['x'] ((lines cs)[i]?.getD []) :=
      ⟨hprompt.symm, hcontinuation.symm, hempty.symm⟩
    have htwo : Alike ['x', 'x'] ((lines cs)[i]?.getD []) :=
      ⟨hprompt.symm, hcontinuation.symm, hempty.symm⟩
    have hsame := (hsilent _ (by decide) hone).trans (hsilent _ (by decide) htwo).symm
    have hletters := congrArg letters hsame
    rw [letters_set (by decide) (sameSorts_set hlength hone) hplaces,
      letters_set (by decide) (sameSorts_set hlength htwo) hplaces] at hletters
    have hcount := congrArg List.length (List.append_cancel_right (List.append_cancel_left hletters))
    exact absurd hcount (by decide)
  · intro htold t ht halike
    rw [extract_set ht (sameSorts_set hlength halike) hcode htold]

theorem isInfix_intercalate {sep t : List Char} {ts : List (List Char)} (h : t ∈ ts) :
    t <:+: sep.intercalate ts := by
  induction ts with
  | nil => cases h
  | cons u ts ih =>
    cases ts with
    | nil => simp_all
    | cons v ts =>
      rw [List.intercalate_cons_cons, List.append_assoc]
      rcases List.mem_cons.mp h with rfl | h
      · exact (List.prefix_append _ _).isInfix
      · exact ((ih h).trans (List.suffix_append _ _).isInfix).trans (List.suffix_append _ _).isInfix

theorem exists_example_of_told {cs : List Char} (h : i ∈ toldPlaces (lines cs)) :
    ∃ e ∈ extract cs, textAt (lines cs) i <:+: e.description := by
  obtain ⟨block, hblock, hi⟩ := mem_toldPlaces_iff_lead.mp h
  refine ⟨exampleOf (lines cs) block, ?_, ?_⟩
  · rw [extract_eq]
    refine List.mem_map_of_mem (List.mem_filter.mpr ⟨hblock, ?_⟩)
    rw [Bool.not_eq_true', ← Bool.not_eq_true]
    intro hempty
    simp [leadPlaces_eq_nil_of_isEmpty hempty] at hi
  · rw [exampleOf, leadOf_eq]
    exact isInfix_intercalate (List.mem_map_of_mem hi)

end Changing

section Output

/-- Whether a line is output: it stands in a run of lines, neither blank nor code, that begins
directly behind code. -/
def IsOutput (ls : List (List Char)) (i : Nat) : Prop :=
  ∃ j < i, isCode ls j = true ∧ ∀ k ≤ i, j < k → isCode ls k = false ∧ textAt ls k ≠ []

instance (ls : List (List Char)) (i : Nat) : Decidable (IsOutput ls i) :=
  inferInstanceAs (Decidable (∃ j < i, _ ∧ ∀ k ≤ i, j < k → _))

theorem IsOutput.mem_plainPlaces (h : IsOutput ls i) : i ∈ plainPlaces ls := by
  obtain ⟨j, hj, -, hall⟩ := h
  exact Doctest.mem_plainPlaces.mpr (hall i le_rfl hj)

theorem isOpen_iff_isCode_pred (h : IsOutput ls i) :
    isOpen ls i = true ↔ isCode ls (i - 1) = true := by
  obtain ⟨j, hj, hcode, hall⟩ := h
  obtain ⟨n, rfl⟩ : ∃ n, i = n + 1 := ⟨i - 1, by omega⟩
  rw [Nat.add_sub_cancel]
  exact ⟨fun hopen => isCode_of_isOpen_succ hopen (hall (n + 1) le_rfl hj).1, isOpen_succ_of_isCode⟩

/-- A line of output has no part in the descriptions if and only if it is the first one behind the
code, has the mark of a continuation, or has no prompt behind it. Any other is told as prose. -/
theorem output_silent_iff (cs : List Char) (i : Nat) (h : IsOutput (lines cs) i) :
    (IsSilent cs i ↔ isCode (lines cs) (i - 1) = true ∨ isContinuation (lines cs) i = true ∨
        ∀ j, i < j → isPrompt (lines cs) j = false) ∧
      (¬ IsSilent cs i → ∃ e ∈ extract cs, textAt (lines cs) i <:+: e.description) := by
  have hplain := h.mem_plainPlaces
  obtain ⟨hcode, htext⟩ := mem_plainPlaces.mp hplain
  have hprompt : isPrompt (lines cs) i = false := (Bool.or_eq_false_iff.mp hcode).1
  rw [isSilent_iff hplain, not_not]
  refine ⟨?_, exists_example_of_told⟩
  rw [mem_toldPlaces, isProse_iff, ← isOpen_iff_isCode_pred h]
  cases isOpen (lines cs) i <;> cases isContinuation (lines cs) i <;> simp [hprompt, htext]

def traceback : List Char :=
  ">>> f()\nTraceback (most recent call last):\n  ...\nValueError: no\n\n>>> g()\n".toList

theorem output_silent_traceback :
    IsOutput (lines traceback) 2 ∧ IsSilent traceback 2 ∧ IsOutput (lines traceback) 3 ∧
      ∃ e ∈ extract traceback, textAt (lines traceback) 3 <:+: e.description := by
  obtain ⟨hmiddle, hmark, hlast, hbefore, hplain, hprompt⟩ : IsOutput (lines traceback) 2 ∧
      isContinuation (lines traceback) 2 = true ∧ IsOutput (lines traceback) 3 ∧
      ¬ isCode (lines traceback) 2 = true ∧ ¬ isContinuation (lines traceback) 3 = true ∧
      isPrompt (lines traceback) 5 = true := by
    decide +kernel
  have hspeaks : ¬ IsSilent traceback 3 := by
    rw [(output_silent_iff traceback 3 hlast).1, not_or, not_or]
    refine ⟨hbefore, hplain, fun h => ?_⟩
    rw [h 5 (by decide)] at hprompt
    cases hprompt
  exact ⟨hmiddle, (output_silent_iff traceback 2 hmiddle).1.mpr (.inr (.inl hmark)), hlast,
    (output_silent_iff traceback 3 hlast).2 hspeaks⟩

def twoResults : List Char := ">>> f()\n1\n2\n\n>>> g()\n".toList

/-- The second line of an output is told as the prose before the next code. -/
theorem second_result_told :
    IsOutput (lines twoResults) 2 ∧
      (extract twoResults).map Example.description = [[], "2".toList] ∧
      ¬ IsSilent twoResults 2 := by
  refine ⟨by decide +kernel, by decide +kernel, fun hsilent => ?_⟩
  have hsame := hsilent "3".toList (by decide) ⟨rfl, rfl, rfl⟩
  exact absurd hsame (by decide +kernel)

end Output

end DocSite.Doctest
