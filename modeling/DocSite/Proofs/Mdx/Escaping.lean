import DocSite.Mdx.Angles
import DocSite.Mdx.Braces
import DocSite.Proofs.Mdx.Reference

/-!
What the scan for code makes of a text that was escaped. Backslashes before braces never come
between backquotes, so that nothing in the scan moves. Angle brackets are written with backquotes,
which can be read otherwise than they are meant: lines are followed together with what is written
for their brackets, and where no backquotes meet, the scan of the result is known.
-/

namespace DocSite.Mdx

open Text

/-- The state of a scan at the end of a text. -/
def stateAfter (s : CodeState) : List Char → CodeState
  | '\x60' :: '\x60' :: '\x60' :: cs => stateAfter { s with fence := !s.fence } cs
  | c :: cs =>
    if c = '\x60' && !s.fence then stateAfter { s with inline := !s.inline } cs
    else stateAfter s cs
  | [] => s

/-- The part of a character that belongs to no mark. -/
def CodeState.role (s : CodeState) : Role := if s.isProse then .prose else .code

/-- What a scan makes of a text: the parts of its characters, and the state it ends in. -/
structure Scans (s : CodeState) (cs : List Char) (xs : List (Role × Char)) (t : CodeState) :
    Prop where
  roles : classifyFrom s cs = xs
  state : stateAfter s cs = t

section Scan

variable {s t : CodeState} {c : Char} {as cs : List Char} {xs : List (Role × Char)}

theorem not_fence_cons (h : c ≠ '\x60') (cs : List Char) : ¬fenceMark <+: c :: cs :=
  fun hfence => h (List.cons_prefix_cons.mp hfence).1.symm

namespace Scans

theorem refl (s : CodeState) (cs : List Char) : Scans s cs (classifyFrom s cs) (stateAfter s cs) :=
  ⟨rfl, rfl⟩

theorem fence (h : Scans { s with fence := !s.fence } cs xs t) :
    Scans s (fenceMark ++ cs) (fenceMark.map (Prod.mk .mark) ++ xs) t :=
  ⟨by simp [fenceMark, classifyFrom, h.roles], by simp [fenceMark, stateAfter, h.state]⟩

theorem inline (h : Scans { s with inline := !s.inline } cs xs t) (hs : s.fence = false)
    (hno : ¬fenceMark <+: '\x60' :: cs) : Scans s ('\x60' :: cs) ((.mark, '\x60') :: xs) t := by
  have hcut (rest : List Char) (_ : '\x60' = '\x60')
      (hcs : cs = '\x60' :: '\x60' :: rest) : False :=
    hno ⟨rest, by rw [hcs]; rfl⟩
  have hmark : ('\x60' = '\x60' && !s.fence) = true := by simp [hs]
  constructor
  · rw [classifyFrom, if_pos hmark, h.roles]
    exact hcut
  · rw [stateAfter, if_pos hmark, h.state]
    exact hcut

theorem keep (h : Scans s cs xs t) (hc : c = '\x60' → s.fence = true)
    (hno : ¬fenceMark <+: c :: cs) : Scans s (c :: cs) ((s.role, c) :: xs) t := by
  have hcut (rest : List Char) (hc : c = '\x60') (hcs : cs = '\x60' :: '\x60' :: rest) : False :=
    hno ⟨rest, by rw [hc, hcs]; rfl⟩
  have hmark : ¬(c = '\x60' && !s.fence) = true := by simpa using hc
  constructor
  · rw [classifyFrom, if_neg hmark, h.roles]
    · rfl
    · exact hcut
  · rw [stateAfter, if_neg hmark, h.state]
    exact hcut

theorem plain (h : Scans s cs xs t) (has : '\x60' ∉ as) :
    Scans s (as ++ cs) (as.map (Prod.mk s.role) ++ xs) t := by
  induction as with
  | nil => exact h
  | cons a as ih =>
    have ha : a ≠ '\x60' := fun heq => has (heq ▸ List.mem_cons_self)
    exact (ih fun hmem => has (List.mem_cons_of_mem _ hmem)).keep (fun heq => absurd heq ha)
      (not_fence_cons ha _)

end Scans

theorem scan_induction {motive : CodeState → List Char → Prop} (nil : ∀ s, motive s [])
    (fence : ∀ s cs, motive { s with fence := !s.fence } cs → motive s (fenceMark ++ cs))
    (inline : ∀ s cs, s.fence = false → ¬fenceMark <+: '\x60' :: cs →
      motive { s with inline := !s.inline } cs → motive s ('\x60' :: cs))
    (keep : ∀ s c cs, (c = '\x60' → s.fence = true) → ¬fenceMark <+: c :: cs →
      motive s cs → motive s (c :: cs)) (s : CodeState) (cs : List Char) : motive s cs := by
  fun_induction classifyFrom s cs with
  | case1 s cs ih => exact fence s cs ih
  | case2 s c cs hno hc ih =>
    simp only [Bool.and_eq_true, decide_eq_true_eq, Bool.not_eq_true'] at hc
    obtain ⟨rfl, hs⟩ := hc
    exact inline s cs hs (fun ⟨rest, h⟩ => hno rest rfl (List.cons.inj h).2.symm) ih
  | case3 s c cs hno hc ih =>
    refine keep s c cs (by simpa using hc) (fun ⟨rest, h⟩ => ?_) ih
    exact hno rest (List.cons.inj h).1.symm (List.cons.inj h).2.symm
  | case4 s => exact nil s

theorem map_snd_classifyFrom (s : CodeState) (cs : List Char) :
    (classifyFrom s cs).map Prod.snd = cs := by
  fun_induction classifyFrom s cs <;> simp_all

end Scan

section Braces

/-- A brace that a scan finds outside code. -/
def isProseBrace (x : Role × Char) : Bool := x.1 = .prose && isBrace x.2

/-- A brace in prose with a backslash directly before it, and all else as it is. -/
def guarded (x : Role × Char) : List (Role × Char) :=
  if isProseBrace x then [(.prose, '\\'), x] else [x]

/-- The regions of a text that a scan finds to be code, each with its marks. -/
def codeRegions (cs : List Char) : List (List (Role × Char)) :=
  ((classify cs).splitOnP (·.1 = .prose)).filter fun region => !region.isEmpty

/-- The characters of a scanned text without the backslash directly before each brace in prose. -/
def unguard : List (Role × Char) → List Char
  | [] => []
  | x :: xs => if x.2 = '\\' && xs.head?.any isProseBrace then unguard xs else x.2 :: unguard xs

/-- A text without the backslash directly before each brace outside code. -/
def unescapeBraces (cs : List Char) : List Char := unguard (classify cs)

variable {s : CodeState} {c : Char} {cs p : List Char} {xs : List (Role × Char)}

theorem writeBrace_eq (x : Role × Char) : writeBrace x = (guarded x).map Prod.snd := by
  rcases x with ⟨_ | _ | _, c⟩ <;> by_cases h : isBrace c <;>
    simp [writeBrace, guarded, isProseBrace, h]

/-- Nothing but backquotes of the text is written as backquotes. -/
theorem ticks_of_ticks_guarded (hp : ∀ c ∈ p, c = '\x60') (h : p <+: xs.flatMap writeBrace) :
    p <+: xs.map Prod.snd := by
  induction xs generalizing p with
  | nil => exact h
  | cons x xs ih =>
    cases p with
    | nil => exact List.nil_prefix
    | cons c p =>
      obtain ⟨rfl, hrest⟩ := List.forall_mem_cons.mp hp
      rw [List.flatMap_cons, writeBrace_eq, guarded] at h
      split at h
      · cases (List.cons_prefix_cons.mp h).1
      · obtain ⟨hx, h⟩ := List.cons_prefix_cons.mp h
        exact List.cons_prefix_cons.mpr ⟨hx, ih hrest h⟩

theorem not_fence_guarded (h : ¬fenceMark <+: c :: cs) :
    ¬fenceMark <+: c :: (classifyFrom s cs).flatMap writeBrace := by
  intro hfence
  obtain ⟨hc, htail⟩ := List.cons_prefix_cons.mp hfence
  have htext := ticks_of_ticks_guarded (by simp) htail
  rw [map_snd_classifyFrom] at htext
  exact h (List.cons_prefix_cons.mpr ⟨hc, htext⟩)

/-- Backslashes before braces do not change what a scan finds. -/
theorem scans_guarded (s : CodeState) (cs : List Char) :
    Scans s ((classifyFrom s cs).flatMap writeBrace) ((classifyFrom s cs).flatMap guarded)
      (stateAfter s cs) := by
  induction s, cs using scan_induction with
  | nil s => exact .refl s []
  | fence s cs ih =>
    have hcs := (Scans.refl _ cs).fence (s := s)
    rw [hcs.roles, hcs.state]
    exact ih.fence
  | inline s cs hs hno ih =>
    have hcs := (Scans.refl _ cs).inline hs hno
    rw [hcs.roles, hcs.state]
    exact ih.inline hs (not_fence_guarded hno)
  | keep s c cs hc hno ih =>
    have hcs := (Scans.refl s cs).keep hc hno
    rw [hcs.roles, hcs.state, List.flatMap_cons, List.flatMap_cons, writeBrace_eq, guarded]
    split
    · rename_i hbrace
      have hrole : s.role = .prose := by simpa using (Bool.and_eq_true_iff.mp hbrace).1
      have hplain : '\x60' ∉ ['\\', c] := by
        rintro h
        obtain rfl : '\x60' = c := by simpa using h
        simp [isProseBrace, isBrace] at hbrace
      have hwritten := ih.plain hplain
      rw [hrole] at hwritten ⊢
      exact hwritten
    · exact ih.keep hc (not_fence_guarded hno)

theorem classify_escapeBraces (cs : List Char) :
    classify (escapeBraces cs) = (classify cs).flatMap guarded :=
  (scans_guarded .start cs).roles

theorem unguard_guarded (xs : List (Role × Char)) :
    unguard (xs.flatMap guarded) = xs.map Prod.snd := by
  -- what is written begins with no brace in prose, since each has its backslash
  have hhead (ys : List (Role × Char)) : (ys.flatMap guarded).head?.any isProseBrace = false := by
    cases ys with
    | nil => rfl
    | cons y ys =>
      rw [List.flatMap_cons, guarded]
      split
      · rfl
      · simpa using ‹¬isProseBrace y = true›
  induction xs with
  | nil => rfl
  | cons x xs ih =>
    rw [List.flatMap_cons, List.map_cons, ← ih, guarded]
    split
    · rename_i hx
      have hslash : x.2 ≠ '\\' := by
        intro heq
        simp [isProseBrace, isBrace, heq] at hx
      simp [unguard, hx, hslash]
    · simp [unguard, hhead]

theorem splitOnP_guarded (xs : List (Role × Char)) :
    ∃ first rest rest', xs.splitOnP (·.1 = .prose) = first :: rest ∧
      (xs.flatMap guarded).splitOnP (·.1 = .prose) = first :: rest' ∧
      rest'.filter (fun region => !region.isEmpty) =
        rest.filter fun region => !region.isEmpty := by
  induction xs with
  | nil => exact ⟨[], [], [], rfl, rfl, rfl⟩
  | cons x xs ih =>
    obtain ⟨first, rest, rest', hxs, hys, hrest⟩ := ih
    rw [List.flatMap_cons, guarded]
    by_cases hbrace : isProseBrace x = true
    · have hrole : x.1 = .prose := by simpa using (Bool.and_eq_true_iff.mp hbrace).1
      refine ⟨[], first :: rest, [] :: first :: rest', ?_, ?_, ?_⟩
      · simp [List.splitOnP_cons_eq_if_modifyHead, hrole, hxs]
      · simp [List.splitOnP_cons_eq_if_modifyHead, hbrace, hrole, hys]
      · simp [List.filter_cons, hrest]
    rw [if_neg hbrace, List.singleton_append, List.splitOnP_cons_eq_if_modifyHead,
      List.splitOnP_cons_eq_if_modifyHead, hxs, hys]
    by_cases hrole : x.1 = .prose
    · refine ⟨[], first :: rest, first :: rest', if_pos (by simpa using hrole),
        if_pos (by simpa using hrole), ?_⟩
      simp [List.filter_cons, hrest]
    · exact ⟨x :: first, rest, rest', if_neg (by simpa using hrole), if_neg (by simpa using hrole),
        hrest⟩

theorem codeRegions_escapeBraces (cs : List Char) :
    codeRegions (escapeBraces cs) = codeRegions cs := by
  obtain ⟨first, rest, rest', hxs, hys, hrest⟩ := splitOnP_guarded (classify cs)
  rw [codeRegions, codeRegions, classify_escapeBraces, hxs, hys, List.filter_cons,
    List.filter_cons, hrest]

theorem unescapeBraces_escapeBraces (cs : List Char) : unescapeBraces (escapeBraces cs) = cs := by
  rw [unescapeBraces, classify_escapeBraces, unguard_guarded, classify, map_snd_classifyFrom]

/-- Each brace outside code gets one backslash directly before it, and nothing else changes: a scan
of the result finds the same regions of code, and without these backslashes it is the text again. -/
theorem escapeBraces_exact :
    (∀ cs, (classify cs).map Prod.snd = cs ∧
      escapeBraces cs = ((classify cs).flatMap guarded).map Prod.snd ∧
      classify (escapeBraces cs) = (classify cs).flatMap guarded ∧
      codeRegions (escapeBraces cs) = codeRegions cs ∧
      unescapeBraces (escapeBraces cs) = cs) ∧
    Function.Injective escapeBraces := by
  refine ⟨fun cs => ⟨map_snd_classifyFrom .start cs, ?_, classify_escapeBraces cs,
    codeRegions_escapeBraces cs, unescapeBraces_escapeBraces cs⟩, fun cs ds h => ?_⟩
  · rw [← classify_escapeBraces]
    exact (map_snd_classifyFrom .start _).symm
  · rw [← unescapeBraces_escapeBraces cs, h, unescapeBraces_escapeBraces]

end Braces

section Angles

/-- Whether an angle bracket stands open in prose and a closing one behind it. -/
def hasTag : List (Role × Char) → Bool
  | [] => false
  | x :: xs => x = (.prose, '<') && xs.any (·.2 = '>') || hasTag xs

/-- Whether no line has a tag outside code: fences go on across lines, inline code ends with its
line, and lines indented by four spaces outside fences are passed over. -/
def isTagFree (fence : Bool) : List (List Char) → Bool
  | [] => true
  | line :: rest =>
    if isIndented line && !fence then isTagFree fence rest
    else !hasTag (classifyFrom ⟨fence, false⟩ line) &&
      isTagFree (stateAfter ⟨fence, false⟩ line).fence rest

/-- A pair of angle brackets that is found in prose: what it holds, between what is written of its
line before and behind it. -/
structure Bracket where
  before : List Char
  inner : List Char
  after : List Char

def bracketsFrom (s : CodeState) (written : List Char) : Nat → List Char → List Bracket
  | _, [] => []
  | skip + 1, _ :: cs => bracketsFrom s written skip cs
  | 0, c :: cs =>
    if startsWith fenceMark (c :: cs) then
      bracketsFrom { s with fence := !s.fence } (written ++ fenceMark) 2 cs
    else if !s.fence && c = '\x60' then
      bracketsFrom { s with inline := !s.inline } (written ++ [c]) 0 cs
    else
      match (if s.isProse then bracketed? (c :: cs) else none) with
      | some inner => ⟨written, inner, (angleLineFrom s (inner.length + 1) cs).1⟩ ::
          bracketsFrom s (written ++ writeBracketed inner) (inner.length + 1) cs
      | none => bracketsFrom s (written ++ [c]) 0 cs

/-- The pairs of angle brackets that are found in the prose of some lines. -/
def brackets (fence : Bool) : List (List Char) → List Bracket
  | [] => []
  | line :: rest =>
    (if isIndented line && !fence then [] else bracketsFrom ⟨fence, false⟩ [] 0 line) ++
      brackets (angleLine fence line).2 rest

/-- Whether what stands in angle brackets is written as a link. -/
def isLinked (inner : List Char) : Bool :=
  isAddress (webSchemes ++ fileSchemes ++ mailSchemes) inner

namespace Bracket

/-- The backquotes around what is written as code meet no others to make a fence. -/
structure IsApart (b : Bracket) : Prop where
  before : ¬['\x60', '\x60'] <:+ b.before
  after : ¬['\x60', '\x60'] <+: b.after
  empty : b.inner = [] → ¬['\x60'] <:+ b.before ∧ ¬['\x60'] <+: b.after

/-- What is written for a pair of brackets is read as it is meant. -/
structure IsSteady (b : Bracket) : Prop where
  inner : '\x60' ∉ b.inner
  apart : isLinked b.inner = false → b.IsApart

/-- A link with an angle bracket in it that is closed behind it. -/
def IsOpen (b : Bracket) : Prop := isLinked b.inner = true ∧ '<' ∈ b.inner ∧ '>' ∈ b.after

instance (b : Bracket) : Decidable b.IsApart :=
  decidable_of_iff (¬['\x60', '\x60'] <:+ b.before ∧ ¬['\x60', '\x60'] <+: b.after ∧
      (b.inner = [] → ¬['\x60'] <:+ b.before ∧ ¬['\x60'] <+: b.after))
    ⟨fun ⟨hbefore, hafter, hempty⟩ => ⟨hbefore, hafter, hempty⟩,
      fun h => ⟨h.before, h.after, h.empty⟩⟩

instance (b : Bracket) : Decidable b.IsSteady :=
  decidable_of_iff ('\x60' ∉ b.inner ∧ (isLinked b.inner = false → b.IsApart))
    ⟨fun ⟨hinner, hapart⟩ => ⟨hinner, hapart⟩, fun h => ⟨h.inner, h.apart⟩⟩

instance (b : Bracket) : Decidable b.IsOpen := inferInstanceAs (Decidable (_ ∧ _ ∧ _))

end Bracket

/-- What becomes of a line: the state before it, what was written so far, the line, what is written
for it, the brackets found in it, and the state after it. -/
inductive Writes : CodeState → List Char → List Char → List Char → List Bracket → CodeState → Prop
  | nil {s w} : Writes s w [] [] [] s
  | fence {s w cs out bs t} : Writes { s with fence := !s.fence } (w ++ fenceMark) cs out bs t →
      Writes s w (fenceMark ++ cs) (fenceMark ++ out) bs t
  | inline {s w cs out bs t} : s.fence = false → ¬fenceMark <+: '\x60' :: cs →
      Writes { s with inline := !s.inline } (w ++ ['\x60']) cs out bs t →
      Writes s w ('\x60' :: cs) ('\x60' :: out) bs t
  | link {w inner cs out bs t} : '>' ∉ inner → isLinked inner = true →
      Writes .start (w ++ linkTo inner) cs out bs t →
      Writes .start w ('<' :: (inner ++ '>' :: cs)) (linkTo inner ++ out) (⟨w, inner, out⟩ :: bs) t
  | code {w inner cs out bs t} : '>' ∉ inner → isLinked inner = false →
      Writes .start (w ++ inlineCode inner) cs out bs t →
      Writes .start w ('<' :: (inner ++ '>' :: cs)) (inlineCode inner ++ out)
        (⟨w, inner, out⟩ :: bs) t
  | keep {s w c cs out bs t} : (c = '\x60' → s.fence = true) → ¬fenceMark <+: c :: cs →
      (s.isProse = true → c = '<' → '>' ∉ cs) → Writes s (w ++ [c]) cs out bs t →
      Writes s w (c :: cs) (c :: out) bs t

variable {s t : CodeState} {c : Char} {w cs out inner : List Char}

theorem angleLineFrom_skip (s : CodeState) (as cs : List Char) :
    angleLineFrom s as.length (as ++ cs) = angleLineFrom s 0 cs := by
  induction as with
  | nil => rfl
  | cons a as ih => exact ih

theorem bracketsFrom_skip (s : CodeState) (w as cs : List Char) :
    bracketsFrom s w as.length (as ++ cs) = bracketsFrom s w 0 cs := by
  induction as with
  | nil => rfl
  | cons a as ih => exact ih

theorem eq_start_of_isProse (h : s.isProse = true) : s = .start := by
  rcases s with ⟨_ | _, _ | _⟩ <;> first | rfl | cases h

theorem exists_writes (s : CodeState) (w cs : List Char) :
    ∃ t, Writes s w cs (angleLineFrom s 0 cs).1 (bracketsFrom s w 0 cs) t ∧
      t.fence = (angleLineFrom s 0 cs).2 := by
  -- a fence or a bracket takes several characters at once, so the induction is on the length
  induction hn : cs.length using Nat.strongRecOn generalizing s w cs with
  | ind n ih =>
  subst hn
  cases cs with
  | nil => exact ⟨s, .nil, rfl⟩
  | cons c cs =>
    by_cases hfence : fenceMark <+: c :: cs
    · obtain ⟨rest, hrest⟩ := hfence
      rw [← hrest]
      obtain ⟨t, ht, hend⟩ := ih rest.length (by rw [← hrest]; simp [fenceMark]; omega)
        { s with fence := !s.fence } (w ++ fenceMark) rest rfl
      exact ⟨t, .fence ht, hend⟩
    have hstart : ¬startsWith fenceMark (c :: cs) = true := mt startsWith_iff_isPrefix.mp hfence
    rw [angleLineFrom, bracketsFrom, if_neg hstart, if_neg hstart]
    by_cases hmark : (!s.fence && c = '\x60') = true
    · rw [if_pos hmark, if_pos hmark]
      simp only [Bool.and_eq_true, Bool.not_eq_true', decide_eq_true_eq] at hmark
      obtain ⟨hs, rfl⟩ := hmark
      obtain ⟨t, ht, hend⟩ :=
        ih cs.length (by simp) { s with inline := !s.inline } (w ++ ['\x60']) cs rfl
      exact ⟨t, .inline hs hfence ht, hend⟩
    rw [if_neg hmark, if_neg hmark]
    have hc : c = '\x60' → s.fence = true := by rintro rfl; simpa using hmark
    cases hfound : (if s.isProse then bracketed? (c :: cs) else none) with
    | none =>
      obtain ⟨t, ht, hend⟩ := ih cs.length (by simp) s (w ++ [c]) cs rfl
      refine ⟨t, .keep hc hfence ?_ ht, hend⟩
      rintro hprose rfl hangle
      obtain ⟨inner, rest, rfl, hinner⟩ := List.eq_append_cons_of_mem hangle
      rw [if_pos hprose, bracketed?_eq_some_iff.mpr ⟨hinner, rest, rfl⟩] at hfound
      cases hfound
    | some inner =>
      rw [Option.ite_none_right_eq_some] at hfound
      obtain rfl := eq_start_of_isProse hfound.1
      obtain ⟨hangle, rest, hcs⟩ := bracketed?_eq_some_iff.mp hfound.2
      obtain ⟨rfl, rfl⟩ := List.cons.inj hcs
      obtain ⟨t, ht, hend⟩ :=
        ih rest.length (by simp; omega) .start (w ++ writeBracketed inner) rest rfl
      have hline := angleLineFrom_skip .start (inner ++ ['>']) rest
      have hlist := bracketsFrom_skip .start (w ++ writeBracketed inner) (inner ++ ['>']) rest
      rw [List.append_assoc, List.singleton_append, List.length_append, List.length_singleton]
        at hline hlist
      dsimp only
      rw [hline, hlist]
      refine ⟨t, ?_, hend⟩
      cases hlink : isLinked inner with
      | true =>
        have hwrite : writeBracketed inner = linkTo inner := if_pos hlink
        rw [hwrite] at ht ⊢
        exact .link hangle hlink ht
      | false =>
        have hwrite : writeBracketed inner = inlineCode inner := if_neg (ne_true_of_eq_false hlink)
        rw [hwrite] at ht ⊢
        exact .code hangle hlink ht

section Run

variable {bs : List Bracket}

/-- What is written holds nothing but characters of the line and marks of code and links. -/
theorem Writes.mem_of_mem {d : Char} (h : Writes s w cs out bs t)
    (hd : d ∉ ['\x60', '[', ']', '(', ')']) (hmem : d ∈ out) : d ∈ cs := by
  induction h with
  | nil => exact hmem
  | fence h ih =>
    exact List.mem_append.mpr ((List.mem_append.mp hmem).imp_right ih)
  | inline hs hno h ih | keep hc hno hangle h ih =>
    exact List.mem_cons.mpr ((List.mem_cons.mp hmem).imp_right ih)
  | link hangle hlink h ih | code hangle hlink h ih =>
    simp [linkTo, inlineCode] at hd hmem ⊢
    grind

/-- A backquote is written first for a backquote, or for brackets. -/
theorem Writes.head_tick (h : Writes s w cs out bs t) (hout : ['\x60'] <+: out) :
    ['\x60'] <+: cs ∨ ∃ b ∈ bs, isLinked b.inner = false ∧ b.before = w := by
  cases h with
  | nil => exact .inl hout
  | fence h => exact .inl ⟨_, rfl⟩
  | inline hs hno h => exact .inl ⟨_, rfl⟩
  | keep hc hno hangle h =>
    obtain ⟨rfl, -⟩ := List.cons_prefix_cons.mp hout
    exact .inl ⟨_, rfl⟩
  | link hangle hlink h => cases (List.cons_prefix_cons.mp hout).1
  | code hangle hlink h => exact .inr ⟨_, List.mem_cons_self, hlink, rfl⟩

/-- No fence arises behind a backquote that is written. -/
theorem Writes.ticks_of_ticks (h : Writes s (w ++ ['\x60']) cs out bs t)
    (hbs : ∀ b ∈ bs, b.IsSteady) (hout : ['\x60', '\x60'] <+: out) : ['\x60', '\x60'] <+: cs := by
  -- after one more backquote, brackets would stand behind two
  have hnext {s' cs' out' t'} (h' : Writes s' (w ++ ['\x60'] ++ ['\x60']) cs' out' bs t')
      (hout' : ['\x60'] <+: out') : ['\x60'] <+: cs' := by
    refine (h'.head_tick hout').resolve_right ?_
    rintro ⟨b, hb, hcode, hbefore⟩
    exact ((hbs b hb).apart hcode).before ⟨w, by simp [hbefore]⟩
  cases h with
  | nil => exact hout
  | fence h => exact ⟨_, rfl⟩
  | inline hs hno h =>
    exact List.cons_prefix_cons.mpr ⟨rfl, hnext h (List.cons_prefix_cons.mp hout).2⟩
  | keep hc hno hangle h =>
    obtain ⟨rfl, htail⟩ := List.cons_prefix_cons.mp hout
    exact List.cons_prefix_cons.mpr ⟨rfl, hnext h htail⟩
  | link hangle hlink h => cases (List.cons_prefix_cons.mp hout).1
  | @code _ inner cs out bs t hangle hlink h =>
    have hsteady := hbs _ List.mem_cons_self
    cases inner with
    | nil => exact absurd ⟨w, rfl⟩ ((hsteady.apart hlink).empty rfl).1
    | cons d inner =>
      obtain ⟨-, htail⟩ := List.cons_prefix_cons.mp hout
      exact absurd ((List.cons_prefix_cons.mp htail).1 ▸ List.mem_cons_self) hsteady.inner

theorem hasTag_append {as : List Char} (h : '>' ∉ as) (role : Role) (xs : List (Role × Char)) :
    hasTag (as.map (Prod.mk role) ++ xs) = true ↔
      (role = .prose ∧ '<' ∈ as ∧ '>' ∈ xs.map Prod.snd) ∨ hasTag xs = true := by
  induction as with
  | nil => simp
  | cons a as ih =>
    obtain ⟨ha, has⟩ : '>' ≠ a ∧ '>' ∉ as := by simpa using h
    have hany : (as.map (Prod.mk role) ++ xs).any (·.2 = '>') = true ↔ '>' ∈ xs.map Prod.snd := by
      simp [has]
    rw [List.map_cons, List.cons_append, hasTag, Bool.or_eq_true, Bool.and_eq_true, hany, ih has]
    simp only [decide_eq_true_eq, Prod.mk.injEq, List.mem_cons]
    grind

/-- A steady line is scanned as it was written, and has a tag only where a link holds one. -/
theorem Writes.scans (h : Writes s w cs out bs t) (hbs : ∀ b ∈ bs, b.IsSteady) :
    ∃ xs, Scans s out xs t ∧ (hasTag xs = true ↔ ∃ b ∈ bs, b.IsOpen) := by
  induction h with
  | nil => exact ⟨[], ⟨rfl, rfl⟩, by simp [hasTag]⟩
  | fence h ih =>
    obtain ⟨xs, hscans, htag⟩ := ih hbs
    refine ⟨_, hscans.fence, ?_⟩
    rw [hasTag_append (by decide), htag]
    simp
  | inline hs hno h ih =>
    obtain ⟨xs, hscans, htag⟩ := ih hbs
    refine ⟨_, hscans.inline hs fun hfence => hno ?_, by simpa [hasTag] using htag⟩
    have htail := (List.cons_prefix_cons.mp hfence).2
    exact List.cons_prefix_cons.mpr ⟨rfl, h.ticks_of_ticks hbs htail⟩
  | @keep s w c cs out bs t hc hno hangle h ih =>
    obtain ⟨xs, hscans, htag⟩ := ih hbs
    refine ⟨_, hscans.keep hc fun hfence => hno ?_, ?_⟩
    · obtain ⟨rfl, htail⟩ := List.cons_prefix_cons.mp hfence
      exact List.cons_prefix_cons.mpr ⟨rfl, h.ticks_of_ticks hbs htail⟩
    · have hnone : ((s.role, c) = (.prose, '<') && xs.any (·.2 = '>')) = false := by
        rw [← Bool.not_eq_true, Bool.and_eq_true, decide_eq_true_eq, Prod.mk.injEq]
        rintro ⟨⟨hrole, rfl⟩, hany⟩
        have hout : '>' ∈ out := by
          rw [← map_snd_classifyFrom s out, hscans.roles]
          simpa using hany
        exact hangle (by simpa [CodeState.role] using hrole) rfl (h.mem_of_mem (by decide) hout)
      rw [hasTag, hnone, Bool.false_or, htag]
  | @link w inner cs out bs t hangle hlink h ih =>
    obtain ⟨hsteady, hbs⟩ := List.forall_mem_cons.mp hbs
    obtain ⟨xs, hscans, htag⟩ := ih hbs
    have hplain : '\x60' ∉ linkTo inner := by simp [linkTo, hsteady.inner]
    refine ⟨_, hscans.plain hplain, ?_⟩
    rw [hasTag_append (by simp [linkTo, hangle]), htag, ← hscans.roles, map_snd_classifyFrom]
    simp [linkTo, Bracket.IsOpen, hlink, CodeState.role, CodeState.isProse, CodeState.start]
  | @code w inner cs out bs t hangle hlink h ih =>
    obtain ⟨hsteady, hbs⟩ := List.forall_mem_cons.mp hbs
    obtain ⟨xs, hscans, htag⟩ := ih hbs
    have hapart := hsteady.apart hlink
    -- in a steady line, neither backquote around the code is part of a fence
    have hclose : Scans ⟨false, true⟩ ('\x60' :: out) ((.mark, '\x60') :: xs) t :=
      hscans.inline rfl fun hfence => hapart.after (List.cons_prefix_cons.mp hfence).2
    have hopen : ¬fenceMark <+: '\x60' :: (inner ++ '\x60' :: out) := by
      intro hfence
      have htail := (List.cons_prefix_cons.mp hfence).2
      cases inner with
      | nil => exact (hapart.empty rfl).2 (List.cons_prefix_cons.mp htail).2
      | cons d inner =>
        exact hsteady.inner ((List.cons_prefix_cons.mp htail).1 ▸ List.mem_cons_self)
    have hwhole := (hclose.plain hsteady.inner).inline (s := .start) rfl hopen
    refine ⟨_, by simpa [inlineCode] using hwhole, ?_⟩
    have hcode : CodeState.role ⟨false, true⟩ = .code := rfl
    simp [hasTag, hasTag_append hangle, hcode, htag, Bracket.IsOpen, hlink]

/-- Spaces at the start of what is written are spaces of the line. -/
theorem Writes.spaces_of_spaces {p : List Char} (h : Writes s w cs out bs t) (hp : ∀ c ∈ p, c = ' ')
    (hout : p <+: out) : p <+: cs := by
  induction h generalizing p with
  | nil => exact hout
  | keep hc hno hangle h ih =>
    cases p with
    | nil => exact List.nil_prefix
    | cons d p =>
      obtain ⟨hd, htail⟩ := List.cons_prefix_cons.mp hout
      exact List.cons_prefix_cons.mpr ⟨hd, ih (List.forall_mem_cons.mp hp).2 htail⟩
  | _ =>
    cases p with
    | nil => exact List.nil_prefix
    | cons d p =>
      obtain rfl := hp d List.mem_cons_self
      cases (List.cons_prefix_cons.mp hout).1

end Run

section Lines

variable {fence : Bool} {line : List Char}

theorem isIndented_iff : isIndented cs = true ↔ "    ".toList <+: cs := startsWith_iff_isPrefix

theorem isIndented_escapeAngles (h : isIndented line = true) :
    isIndented (escapeAngles line) = true := by
  obtain ⟨rest, rfl⟩ := isIndented_iff.mp h
  rw [isIndented_iff, escapeAngles, List.flatMap_append]
  exact List.prefix_append _ _

theorem isIndented_angleLineFrom (h : isIndented line = false) :
    isIndented (angleLineFrom s 0 line).1 = false := by
  obtain ⟨t, ht, -⟩ := exists_writes s [] line
  rw [← Bool.not_eq_true, isIndented_iff] at h ⊢
  exact fun hout => h (ht.spaces_of_spaces (by simp) hout)

theorem not_mem_angleLine (h : '\n' ∉ line) : '\n' ∉ (angleLine fence line).1 := by
  unfold angleLine
  split
  · simp only [escapeAngles, List.mem_flatMap, not_exists, not_and]
    intro c hc
    have hne : c ≠ '\n' := fun heq => h (heq ▸ hc)
    split <;> simp [Ne.symm hne]
  · obtain ⟨t, ht, -⟩ := exists_writes ⟨fence, false⟩ [] line
    exact fun hmem => h (ht.mem_of_mem (by decide) hmem)

theorem not_mem_angleLines {ls : List (List Char)} (h : ∀ line ∈ ls, '\n' ∉ line) :
    ∀ line ∈ angleLines fence ls, '\n' ∉ line := by
  induction ls generalizing fence with
  | nil => exact h
  | cons line ls ih =>
    obtain ⟨hline, hls⟩ := List.forall_mem_cons.mp h
    exact List.forall_mem_cons.mpr ⟨not_mem_angleLine hline, ih hls⟩

theorem length_angleLines (fence : Bool) (ls : List (List Char)) :
    (angleLines fence ls).length = ls.length := by
  induction ls generalizing fence with
  | nil => rfl
  | cons line ls ih => exact congrArg (· + 1) (ih _)

theorem lines_escapeTags (cs : List Char) :
    lines (escapeTags cs) = angleLines false (lines cs) := by
  refine splitChar_intercalate_of_not_mem (List.ne_nil_of_length_pos ?_)
    (not_mem_angleLines fun line hline => not_mem_of_mem_splitChar hline)
  rw [length_angleLines]
  exact List.length_pos_iff.mpr (splitChar_ne_nil _ _)

theorem isTagFree_angleLines (fence : Bool) (ls : List (List Char))
    (h : ∀ b ∈ brackets fence ls, b.IsSteady) :
    isTagFree fence (angleLines fence ls) = true ↔ ∀ b ∈ brackets fence ls, ¬b.IsOpen := by
  induction ls generalizing fence with
  | nil => simp [angleLines, isTagFree, brackets]
  | cons line ls ih =>
    rw [brackets, List.forall_mem_append] at h
    rw [angleLines, isTagFree, brackets, List.forall_mem_append, ← ih _ h.2]
    by_cases hcode : (isIndented line && !fence) = true
    · obtain ⟨hindent, hfence⟩ := Bool.and_eq_true_iff.mp hcode
      have hline : angleLine fence line = (escapeAngles line, fence) := if_pos hcode
      rw [if_pos hcode, hline, isIndented_escapeAngles hindent, hfence]
      simp
    · obtain ⟨t, ht, hend⟩ := exists_writes ⟨fence, false⟩ [] line
      have hline : angleLine fence line = angleLineFrom ⟨fence, false⟩ 0 line := if_neg hcode
      rw [if_neg hcode] at h
      obtain ⟨xs, hscans, htag⟩ := ht.scans h.1
      have hout : ¬(isIndented (angleLineFrom ⟨fence, false⟩ 0 line).1 && !fence) = true := by
        cases fence with
        | true => simp
        | false => simp [isIndented_angleLineFrom (by simpa using hcode)]
      rw [hline, if_neg hout, if_neg hcode, hscans.roles, hscans.state, hend, Bool.and_eq_true,
        Bool.not_eq_true', ← Bool.not_eq_true, htag]
      simp

end Lines

/-- The written text has as many lines as the text. If what is written for angle brackets is read as
it is meant, it has a tag outside code exactly if some link holds an angle bracket that is closed
behind it. -/
theorem escapeTags_tagFree_iff (cs : List Char) :
    (lines (escapeTags cs)).length = (lines cs).length ∧
    ((∀ b ∈ brackets false (lines cs), b.IsSteady) →
      (isTagFree false (lines (escapeTags cs)) = true ↔
        ∀ b ∈ brackets false (lines cs), ¬b.IsOpen)) := by
  rw [lines_escapeTags]
  exact ⟨length_angleLines false _, isTagFree_angleLines false _⟩

def mixedText : List Char :=
  "\x60a<b>\x60 <T>\n\x60\x60\x60\n<i>\n\x60\x60\x60\n<ftp://x<y>".toList

theorem escapeTags_tagFree_mixed :
    (∀ b ∈ brackets false (lines mixedText), b.IsSteady) ∧
      isTagFree false (lines (escapeTags mixedText)) = true := by
  have hbrackets : (∀ b ∈ brackets false (lines mixedText), b.IsSteady) ∧
      ∀ b ∈ brackets false (lines mixedText), ¬b.IsOpen := by decide +kernel
  exact ⟨hbrackets.1, ((escapeTags_tagFree_iff mixedText).2 hbrackets.1).mpr hbrackets.2⟩

/-- A tag is left by a link that holds an angle bracket, by brackets that hold a backquote, and
where the backquotes of empty brackets and of the code behind them make a fence. -/
theorem escapeTags_leaves_tags :
    ["<http://x<y> >", "<a\x60b<c> d>", "<>\x60x\x60\n\x60\x60\x60\n<i>\n\x60\x60\x60"].any
      (fun text => isTagFree false (lines (escapeTags text.toList))) = false := by
  decide +kernel

end Angles

end DocSite.Mdx
