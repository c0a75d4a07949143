import DocSite.Section.Function
import DocSite.Proofs.Text
import Mathlib.Data.List.Chain
import Mathlib.Data.List.DropRight

/-!
The description of a result, line by line. One blank line before a fence is left out, so a blank
line stays before a fence exactly where there were two or more.
-/

namespace DocSite.Section

open Text Api

variable {l : List Char} {ls hs : List (List Char)}

section Hanging

/-- Whether no blank line stands directly before a fence. -/
def NoGap (ls : List (List Char)) : Prop :=
  ls.IsChain fun a b => strip a = [] → isFenceLine b = false

instance (ls : List (List Char)) : Decidable (NoGap ls) :=
  inferInstanceAs (Decidable (ls.IsChain _))

def isPrinted (l : List Char) : Bool := !(strip l).isEmpty

def hangingIndent : List Char := "  ".toList

/-- The lines of a list entry after the first one. -/
def hangingLines : List (List Char) → List (List Char)
  | [] => []
  | l :: ls =>
    if isPrinted l then (hangingIndent ++ l) :: hangingLines ls
    else if ls.head?.any isFenceLine then hangingLines ls
    else [] :: hangingLines ls

theorem continuationLines_eq (ls : List (List Char)) :
    continuationLines ls = (hangingLines ls).flatMap ('\n' :: ·) := by
  induction ls with
  | nil => rfl
  | cons l ls ih =>
    rw [hangingLines]
    by_cases hprinted : isPrinted l = true
    · have hhead : continuationLines (l :: ls) = "\n  ".toList ++ l ++ continuationLines ls := by
        cases ls <;> exact if_pos hprinted
      rw [hhead, if_pos hprinted, ih]
      rfl
    · rw [if_neg hprinted]
      cases ls with
      | nil => exact if_neg hprinted
      | cons next ls =>
        rw [continuationLines, ← isPrinted, if_neg hprinted, ih]
        by_cases hfence : isFenceLine next = true <;> simp [hfence]

theorem strip_hangingIndent (l : List Char) : strip (hangingIndent ++ l) = strip l :=
  strip_blanks_append (List.all_eq_true.mp rfl) l

theorem isFenceLine_hangingIndent (l : List Char) :
    isFenceLine (hangingIndent ++ l) = isFenceLine l := by
  rw [isFenceLine, strip_hangingIndent, isFenceLine]

theorem isFenceLine_nil : isFenceLine [] = false := rfl

theorem isPrinted_of_isFenceLine (h : isFenceLine l = true) : isPrinted l = true := by
  rw [isPrinted, Bool.not_eq_true', ← Bool.not_eq_true, List.isEmpty_iff]
  intro hblank
  rw [isFenceLine, hblank] at h
  cases h

theorem isPrinted_eq_false : isPrinted l = false ↔ strip l = [] := by
  rw [isPrinted, Bool.not_eq_false', List.isEmpty_iff]

theorem filter_hangingLines (ls : List (List Char)) :
    (hangingLines ls).filter isPrinted = (ls.filter isPrinted).map (hangingIndent ++ ·) := by
  induction ls with
  | nil => rfl
  | cons l ls ih =>
    rw [hangingLines]
    by_cases hprinted : isPrinted l = true
    · have hhanging : isPrinted (hangingIndent ++ l) = true := by
        rw [isPrinted, strip_hangingIndent]
        exact hprinted
      rw [if_pos hprinted, List.filter_cons_of_pos hhanging, List.filter_cons_of_pos hprinted, ih,
        List.map_cons]
    · rw [if_neg hprinted, List.filter_cons_of_neg hprinted, ← ih]
      split
      · rfl
      · exact List.filter_cons_of_neg (by decide)

/-- The first line is a fence only behind a single blank line, unless one comes first anyway. -/
theorem head?_hangingLines (h : ls.head?.any isFenceLine = false) :
    (∀ y ∈ (hangingLines ls).head?, isFenceLine y = false) ↔
      ∀ b c, [b, c] <+: ls → strip b = [] → isFenceLine c = false := by
  cases ls with
  | nil => simp [hangingLines]
  | cons l ls =>
    have hfence : isFenceLine l = false := by simpa using h
    rw [hangingLines]
    by_cases hprinted : isPrinted l = true
    · have hstrip : strip l ≠ [] := by simpa [isPrinted] using hprinted
      rw [if_pos hprinted]
      constructor
      · rintro - b c hbc hblank
        cases (List.cons_prefix_cons.mp hbc).1
        exact absurd hblank hstrip
      · rintro - y hy
        obtain rfl : hangingIndent ++ l = y := by simpa using hy
        rw [isFenceLine_hangingIndent, hfence]
    · have hstrip : strip l = [] := isPrinted_eq_false.mp (by simpa using hprinted)
      rw [if_neg hprinted]
      cases ls with
      | nil => simp [hangingLines, isFenceLine_nil]
      | cons next ls =>
        have hnext : (∀ b c, [b, c] <+: l :: next :: ls → strip b = [] → isFenceLine c = false) ↔
            isFenceLine next = false := by
          simp [List.cons_prefix_cons, hstrip]
        rw [hnext, List.head?_cons, Option.any_some]
        by_cases hfence : isFenceLine next = true
        · rw [if_pos hfence, hangingLines, if_pos (isPrinted_of_isFenceLine hfence)]
          simp [isFenceLine_hangingIndent, hfence]
        · rw [if_neg hfence]
          simpa [isFenceLine_nil] using hfence

/-- A blank line stays before a fence exactly where there are two. -/
theorem noGap_hangingLines_iff (ls : List (List Char)) : NoGap (hangingLines ls) ↔
    ∀ a b c, [a, b, c] <:+: ls → strip a = [] → strip b = [] → isFenceLine c = false := by
  induction ls with
  | nil => simp [hangingLines, NoGap]
  | cons l ls ih =>
    have hsplit : (∀ a b c, [a, b, c] <:+: l :: ls → strip a = [] → strip b = [] →
          isFenceLine c = false) ↔
        (strip l = [] → ∀ b c, [b, c] <+: ls → strip b = [] → isFenceLine c = false) ∧
          ∀ a b c, [a, b, c] <:+: ls → strip a = [] → strip b = [] → isFenceLine c = false := by
      simp only [List.infix_cons_iff, List.cons_prefix_cons]
      constructor
      · intro h
        exact ⟨fun hl b c hbc => h l b c (.inl ⟨rfl, hbc⟩) hl,
          fun a b c habc => h a b c (.inr habc)⟩
      · rintro ⟨hl, hls⟩ a b c (⟨rfl, hbc⟩ | habc) hblank
        · exact hl hblank b c hbc
        · exact hls a b c habc hblank
    rw [hsplit, ← ih, hangingLines]
    by_cases hprinted : isPrinted l = true
    · have hstrip : strip l ≠ [] := by simpa [isPrinted] using hprinted
      rw [if_pos hprinted, NoGap, List.isChain_cons, strip_hangingIndent]
      simp [hstrip, NoGap]
    · have hstrip : strip l = [] := isPrinted_eq_false.mp (by simpa using hprinted)
      rw [if_neg hprinted]
      by_cases hfence : ls.head?.any isFenceLine = true
      · rw [if_pos hfence]
        refine ⟨fun h => ⟨fun _ b c hbc hblank => ?_, h⟩, And.right⟩
        -- a fence is not blank
        obtain ⟨rest, rfl⟩ := hbc
        have hprinted := isPrinted_of_isFenceLine (l := b) (by simpa using hfence)
        rw [isPrinted_eq_false.mpr hblank] at hprinted
        cases hprinted
      · have hstart := head?_hangingLines (Bool.eq_false_iff.mpr hfence)
        have hempty : strip [] = [] := rfl
        rw [if_neg hfence, NoGap, List.isChain_cons, ← NoGap, ← hstart]
        simp [hstrip, hempty]

end Hanging

section Layout

theorem dropTail_eq_rdropWhile (p : Char → Bool) (cs : List Char) :
    dropTail p cs = cs.rdropWhile p := rfl

/-- Newlines at the end go with the empty lines. -/
theorem rdropWhile_newlines {t : List Char} (ht : '\n' ∉ t) (hhs : ∀ h ∈ hs, '\n' ∉ h) :
    (t ++ hs.flatMap ('\n' :: ·)).rdropWhile (· = '\n') =
      t ++ (hs.rdropWhile List.isEmpty).flatMap ('\n' :: ·) := by
  induction hs using List.reverseRecOn with
  | nil =>
    rw [List.rdropWhile_nil, List.flatMap_nil, List.append_nil, List.rdropWhile_eq_self_iff]
    intro hne heq
    exact ht (of_decide_eq_true heq ▸ List.getLast_mem hne)
  | append_singleton hs h ih =>
    obtain rfl | ⟨as, a, rfl⟩ := List.eq_nil_or_concat h
    · rw [List.rdropWhile_concat_pos _ _ _ rfl, ← ih fun h hh => hhs h (List.mem_append_left _ hh),
        List.flatMap_append, List.flatMap_singleton, ← List.append_assoc,
        List.rdropWhile_concat_pos _ _ _ rfl]
    · have ha : a ≠ '\n' := by
        rintro rfl
        exact hhs (as.concat '\n') (by simp) (by simp)
      rw [List.concat_eq_append, List.rdropWhile_concat_neg _ _ _ (by simp), List.flatMap_append,
        List.flatMap_singleton, ← List.cons_append, ← List.append_assoc, ← List.append_assoc,
        List.rdropWhile_concat_neg _ _ _ (by simpa using ha)]

theorem lines_append_flatMap (hhs : ∀ h ∈ hs, '\n' ∉ h) (cs : List Char) :
    lines (cs ++ hs.flatMap ('\n' :: ·)) = lines cs ++ hs := by
  induction hs generalizing cs with
  | nil => simp
  | cons h hs ih =>
    have hsplit : cs ++ (h :: hs).flatMap ('\n' :: ·) =
        cs ++ '\n' :: h ++ hs.flatMap ('\n' :: ·) := by simp
    have hline : lines (cs ++ '\n' :: h) = lines cs ++ [h] := by
      rw [lines, splitChar_append, splitChar_of_not_mem (hhs h (by simp)), lines]
    rw [hsplit, ih fun k hk => hhs k (List.mem_cons_of_mem _ hk), hline, List.append_assoc,
      List.singleton_append]

theorem noGap_append_empty {es : List (List Char)} (h : ∀ e ∈ es, e = []) :
    NoGap (ls ++ es) ↔ NoGap ls := by
  have hchain : es.IsChain fun a b => strip a = [] → isFenceLine b = false := by
    refine List.Pairwise.isChain (List.pairwise_of_forall_mem_list fun a _ b hb _ => ?_)
    rw [h b hb, isFenceLine_nil]
  rw [NoGap, List.isChain_append]
  refine ⟨And.left, fun hls => ⟨hls, hchain, fun a _ b hb _ => ?_⟩⟩
  rw [h b (List.mem_of_mem_head? hb), isFenceLine_nil]

theorem newline_not_mem_hangingLines (hls : ∀ l ∈ ls, '\n' ∉ l) :
    ∀ h ∈ hangingLines ls, '\n' ∉ h := by
  induction ls with
  | nil => simp [hangingLines]
  | cons l ls ih =>
    have ih := ih fun k hk => hls k (List.mem_cons_of_mem _ hk)
    have hl : '\n' ∉ hangingIndent ++ l := by
      rw [List.mem_append, not_or]
      exact ⟨by decide, hls l (by simp)⟩
    rw [hangingLines]
    split
    · exact List.forall_mem_cons.mpr ⟨hl, ih⟩
    · split
      · exact ih
      · exact List.forall_mem_cons.mpr ⟨by simp, ih⟩

/-- The lines of a list entry after the first one, without the empty ones at the end. -/
def entryLines (ls : List (List Char)) : List (List Char) :=
  (hangingLines ls).rdropWhile List.isEmpty

theorem exists_eq_entryLines (ls : List (List Char)) :
    ∃ es, hangingLines ls = entryLines ls ++ es ∧ ∀ e ∈ es, e = [] := by
  refine ⟨(hangingLines ls).rtakeWhile List.isEmpty, ?_, fun e he => ?_⟩
  · rw [entryLines, List.rdropWhile_append_rtakeWhile]
  · exact List.isEmpty_iff.mp (List.mem_rtakeWhile_imp he)

theorem noGap_entryLines_iff (ls : List (List Char)) : NoGap (entryLines ls) ↔
    ∀ a b c, [a, b, c] <:+: ls → strip a = [] → strip b = [] → isFenceLine c = false := by
  obtain ⟨es, hes, hempty⟩ := exists_eq_entryLines ls
  rw [← noGap_hangingLines_iff, hes, noGap_append_empty hempty]

theorem filter_entryLines (ls : List (List Char)) :
    (entryLines ls).filter isPrinted = (ls.filter isPrinted).map (hangingIndent ++ ·) := by
  obtain ⟨es, hes, hempty⟩ := exists_eq_entryLines ls
  have hnone : es.filter isPrinted = [] := by
    rw [List.filter_eq_nil_iff]
    intro e he
    rw [hempty e he]
    decide
  rw [← filter_hangingLines, hes, List.filter_append, hnone, List.append_nil]

theorem hangingText_eq {cs first : List Char} (h : lines cs = first :: ls) :
    hangingText cs = first ++ (entryLines ls).flatMap ('\n' :: ·) := by
  have hlines : ∀ l ∈ first :: ls, '\n' ∉ l := by
    rw [← h]
    exact fun l hl => not_mem_of_mem_splitChar hl
  rw [hangingText, h]
  simp only
  rw [continuationLines_eq, dropTail_eq_rdropWhile, rdropWhile_newlines (hlines first (by simp)),
    entryLines]
  exact newline_not_mem_hangingLines fun l hl => hlines l (List.mem_cons_of_mem _ hl)

end Layout

section Result

variable {doc : Docstring} {r : DocReturns} {e? : Option Entity} {first : List Char}

/-- The type that is shown for a result. -/
def shownResult (r : DocReturns) (e? : Option Entity) : List Char :=
  (plainClassesText
    ((present? (e?.bind returnType?)).getD ((present? r.type?).getD "Any"))).toList

/-- What is said about a result. -/
def resultText (r : DocReturns) : List Char :=
  Mdx.escape ((present? r.description?).getD "Return value").toList

def returnsHeading : List Char := "**Returns:**".toList

/-- How the list entry of a result begins. -/
def resultOpening (type first : List Char) : List Char :=
  "- \x60".toList ++ type ++ "\x60: ".toList ++ first

theorem returns_eq (h : doc.returns? = some r) (hlines : lines (resultText r) = first :: ls) :
    (returns doc e?).toList = returnsHeading ++ '\n' :: '\n' ::
      (resultOpening (shownResult r e?) first ++
        (entryLines ls ++ [[], []]).flatMap ('\n' :: ·)) := by
  have htext := hangingText_eq hlines
  rw [resultText] at htext
  have hheading : "**Returns:**\n\n- \x60".toList =
      returnsHeading ++ '\n' :: '\n' :: "- \x60".toList := rfl
  have hclosing : "\n\n".toList = [[], []].flatMap ('\n' :: ·) := rfl
  unfold resultOpening
  rw [returns, h]
  simp only [String.toList_append, onChars, String.toList_ofList, htext, hheading, hclosing,
    shownResult, List.flatMap_append, List.append_assoc, List.cons_append]

theorem lines_returns (h : doc.returns? = some r) (hlines : lines (resultText r) = first :: ls) :
    lines (returns doc e?).toList = returnsHeading :: [] ::
      (lines (resultOpening (shownResult r e?) first) ++ (entryLines ls ++ [[], []])) := by
  have hbody : ∀ l ∈ entryLines ls ++ [[], []], '\n' ∉ l := by
    have hothers : ∀ l ∈ ls, '\n' ∉ l := fun l hl =>
      not_mem_of_mem_splitChar (hlines ▸ List.mem_cons_of_mem first hl)
    refine List.forall_mem_append.mpr ⟨fun l hl => ?_, by simp⟩
    exact newline_not_mem_hangingLines hothers l ((List.rdropWhile_prefix _ _).subset hl)
  have hheading : splitChar '\n' returnsHeading = [returnsHeading] :=
    splitChar_of_not_mem (by decide)
  rw [returns_eq h hlines, lines, splitChar_append, hheading, splitChar, if_pos rfl, ← lines,
    lines_append_flatMap hbody, List.singleton_append]

theorem head?_lines_resultOpening (type first : List Char) :
    ∀ l ∈ (lines (resultOpening type first)).head?, isFenceLine l = false := by
  intro l hl
  have hstart : '\n' ∉ "- \x60".toList := by decide
  obtain ⟨piece, pieces, -, hlines⟩ :=
    splitChar_append_of_not_mem hstart (type ++ "\x60: ".toList ++ first)
  unfold resultOpening at hl
  rw [lines, List.append_assoc, List.append_assoc, ← List.append_assoc type, hlines,
    List.head?_cons] at hl
  obtain rfl := Option.some.inj hl
  have hhead : ∀ a ∈ ([] : List Char).head?, isBlank a = false := by simp
  have hstrip : strip ("- \x60".toList ++ piece) = '-' :: stripRight (" \x60".toList ++ piece) :=
    strip_append_cons hhead rfl _
  rw [isFenceLine, hstrip]
  rfl

theorem getLast?_lines_resultOpening (hfirst : '\n' ∉ first) (type : List Char) :
    ∀ l ∈ (lines (resultOpening type first)).getLast?, strip l ≠ [] := by
  intro l hl
  have hend : '\n' ∉ "\x60: ".toList ++ first := by
    rw [List.mem_append, not_or]
    exact ⟨by decide, hfirst⟩
  obtain ⟨pieces, last, -, hlines⟩ := splitChar_append_end hend ("- \x60".toList ++ type)
  unfold resultOpening at hl
  rw [lines, List.append_assoc, hlines, List.getLast?_concat] at hl
  obtain rfl := Option.some.inj hl
  intro hblank
  have hmark := strip_eq_nil_iff.mp hblank '\x60' (by simp)
  exact absurd hmark (by decide)

theorem noGap_returns_iff (h : doc.returns? = some r)
    (hlines : lines (resultText r) = first :: ls) : NoGap (lines (returns doc e?).toList) ↔
      NoGap (lines (resultOpening (shownResult r e?) first)) ∧ NoGap (entryLines ls) := by
  have hfirst : '\n' ∉ first := not_mem_of_mem_splitChar (hlines ▸ List.mem_cons_self ..)
  have hblanks : NoGap (entryLines ls ++ [[], []]) ↔ NoGap (entryLines ls) :=
    noGap_append_empty (by simp)
  have hopening := head?_lines_resultOpening (shownResult r e?) first
  have hclosing := getLast?_lines_resultOpening hfirst (shownResult r e?)
  have hne : lines (resultOpening (shownResult r e?) first) ≠ [] := splitChar_ne_nil _ _
  rw [lines_returns h hlines, NoGap, List.isChain_cons_cons, List.isChain_cons, List.isChain_append,
    ← NoGap, ← NoGap, hblanks]
  constructor
  · rintro ⟨-, -, hgap, hbody, -⟩
    exact ⟨hgap, hbody⟩
  · rintro ⟨hgap, hbody⟩
    refine ⟨fun _ => isFenceLine_nil, fun l hl _ => ?_, hgap, hbody, fun a ha b _ hblank => ?_⟩
    · rw [List.head?_append_of_ne_nil _ hne] at hl
      exact hopening l hl
    · exact absurd hblank (hclosing a ha)

/-- The description of a result is laid out line by line, all lines that are not blank in order and
indented after the first. No blank line stands directly before a fence if and only if no two of
them do after the first line of what is said, and the type has none. -/
theorem returns_noGap_iff (doc : Docstring) (r : DocReturns) (e? : Option Entity)
    (first : List Char) (others : List (List Char)) (h : doc.returns? = some r)
    (hlines : lines (resultText r) = first :: others) :
    ∃ body, lines (returns doc e?).toList = returnsHeading :: [] ::
          (lines (resultOpening (shownResult r e?) first) ++ (body ++ [[], []])) ∧
      body.filter isPrinted = (others.filter isPrinted).map (hangingIndent ++ ·) ∧
      (NoGap (lines (returns doc e?).toList) ↔
        NoGap (lines (resultOpening (shownResult r e?) first)) ∧
          ∀ a b c, [a, b, c] <:+: others → strip a = [] → strip b = [] →
            isFenceLine c = false) := by
  refine ⟨entryLines others, lines_returns h hlines, filter_entryLines others, ?_⟩
  rw [noGap_returns_iff h hlines, noGap_entryLines_iff]

def documented (description : String) : Docstring :=
  { Docstring.empty with returns? := some ⟨some "T", some description⟩ }

theorem returns_noGap_oneBlank :
    let description := "A.\n\n\x60\x60\x60\n\ncode\n\x60\x60\x60\n\nB."
    (documented description).returns? = some ⟨some "T", some description⟩ ∧
      NoGap (lines (returns (documented description) none).toList) := by
  intro description
  have hlines : lines (resultText ⟨some "T", some description⟩) = "A.".toList ::
      ["", "\x60\x60\x60", "", "code", "\x60\x60\x60", "", "B."].map String.toList := by
    decide +kernel
  obtain ⟨body, -, -, hiff⟩ := returns_noGap_iff (documented description) _ none _ _ rfl hlines
  refine ⟨rfl, hiff.mpr ⟨by decide +kernel, (noGap_hangingLines_iff _).mp (by decide +kernel)⟩⟩

/-- Of two blank lines before a fence one stays. -/
theorem returns_leaves_gap :
    ¬ NoGap (lines
      (returns (documented "A.\n\n\n\x60\x60\x60\ncode\n\x60\x60\x60") none).toList) := by
  decide +kernel

end Result

end DocSite.Section
