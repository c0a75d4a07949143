import DocSite.Notebook.Page
import DocSite.Proofs.Text

/-!
Printed output on a page. What is written for it cannot end the block it stands in, and the output
can be read back from it: the three steps in which it is written are undone one after the other.
-/

namespace DocSite.Notebook

open Text

/-- The characters that markup gives a meaning, and what stands for them. -/
def entities : List (Char × List Char) :=
  [('&', "&amp;".toList), ('<', "&lt;".toList), ('>', "&gt;".toList), ('\x22', "&quot;".toList),
    ('\x27', "&#x27;".toList)]

def entity (c : Char) : List Char := (entities.lookup c).getD [c]

/-- The characters that a page gives a meaning outside of markup. -/
def isPageMark (c : Char) : Bool := ['\x60', '\x7b', '\x7d', '[', ']'].contains c

def marked (c : Char) : List Char := if isPageMark c then ['\\', c] else [c]

def hardSpace : List Char := "&nbsp;".toList

def spaced (c : Char) : List Char := if c = ' ' then hardSpace else [c]

/-- The entity that a text begins with, read as its character. -/
def entity? (cs : List Char) : Option Hit :=
  (entities.find? fun e => startsWith e.2 cs).map fun e => ⟨e.2.length, [e.1]⟩

/-- The backslash that a text begins with, taken off the mark behind it. -/
def mark? : List Char → Option Hit
  | '\\' :: c :: _ => if isPageMark c then some ⟨2, [c]⟩ else none
  | _ => none

def unescaped (cs : List Char) : List Char := substitute entity? cs

def unmarked (cs : List Char) : List Char := substitute mark? cs

def unspaced (cs : List Char) : List Char := replace hardSpace [' '] cs

variable {c : Char} {code cs : List Char}

/-- Codes are undone one by one if each is, whatever codes follow it. -/
theorem substitute_flatMap {find : List Char → Option Hit} {code out : Char → List Char}
    (hstep : ∀ c (cs : List Char), substitute find (code c ++ cs.flatMap code) =
      out c ++ substitute find (cs.flatMap code)) (cs : List Char) :
    substitute find (cs.flatMap code) = cs.flatMap out := by
  induction cs with
  | nil => rfl
  | cons c cs ih => rw [List.flatMap_cons, hstep, ih, List.flatMap_cons]

section Entities

theorem entity_cases (c : Char) :
    (c, entity c) ∈ entities ∨ entity c = [c] ∧ c ∉ entities.map Prod.fst := by
  cases hc : entities.lookup c with
  | none =>
    refine .inr ⟨by rw [entity, hc, Option.getD_none], fun hmem => ?_⟩
    obtain ⟨e, he, rfl⟩ := List.mem_map.mp hmem
    simpa using List.lookup_eq_none_iff.mp hc e he
  | some code =>
    obtain ⟨front, back, hentities, -⟩ := List.lookup_eq_some_iff.mp hc
    rw [entity, hc, Option.getD_some, hentities]
    exact .inl (by simp)

theorem entity?_append (h : (c, code) ∈ entities) (v : List Char) :
    entity? (code ++ v) = some ⟨code.length, [c]⟩ := by
  simp only [entities, List.mem_cons, List.not_mem_nil, or_false, Prod.mk.injEq] at h
  rcases h with ⟨rfl, rfl⟩ | ⟨rfl, rfl⟩ | ⟨rfl, rfl⟩ | ⟨rfl, rfl⟩ | ⟨rfl, rfl⟩ <;> rfl

theorem ne_ampersand (hc : c ∉ entities.map Prod.fst) : c ≠ '&' :=
  fun heq => hc (heq ▸ List.mem_cons_self)

theorem entity?_eq_none (hc : c ≠ '&') (cs : List Char) : entity? (c :: cs) = none := by
  simp [entity?, entities, startsWith, afterStart?, hc.symm]

/-- Every ampersand begins an entity, so that none is read that was not written. -/
theorem unescaped_entities (cs : List Char) : unescaped (cs.flatMap entity) = cs := by
  have hstep (c : Char) (v : List Char) :
      substitute entity? (entity c ++ v) = [c] ++ substitute entity? v := by
    rcases entity_cases c with hcode | ⟨hplain, hc⟩
    · have hne : entity c ≠ [] := by
        intro hnil
        simp [hnil, entities] at hcode
      exact substitute_hit hne (entity?_append hcode v)
    · rw [hplain]
      exact substitute_keep (entity?_eq_none (ne_ampersand hc) v)
  rw [unescaped, substitute_flatMap (fun c cs => hstep c _), List.flatMap_singleton']

end Entities

section Marks

/-- No code begins with a mark. -/
theorem head?_flatMap_marked (cs : List Char) :
    ∀ c ∈ (cs.flatMap marked).head?, isPageMark c = false := by
  cases cs with
  | nil => nofun
  | cons d ds =>
    intro c hc
    rw [List.flatMap_cons, marked] at hc
    split at hc
    · cases hc
      rfl
    · rename_i hd
      cases hc
      simpa using hd

theorem mark?_eq_none (h : ∀ d ∈ cs.head?, isPageMark d = false) : mark? (c :: cs) = none := by
  unfold mark?
  split
  · rename_i heq
    cases heq
    simp [h _ rfl]
  · rfl

/-- A backslash of the text itself stays, since no mark follows it. -/
theorem unmarked_marks (cs : List Char) : unmarked (cs.flatMap marked) = cs := by
  have hstep (c : Char) (cs : List Char) : substitute mark? (marked c ++ cs.flatMap marked) =
      [c] ++ substitute mark? (cs.flatMap marked) := by
    by_cases hc : isPageMark c = true
    · rw [marked, if_pos hc]
      exact substitute_hit (by simp) (by simp [mark?, hc])
    · rw [marked, if_neg hc]
      exact substitute_keep (mark?_eq_none (head?_flatMap_marked cs))
  rw [unmarked, substitute_flatMap hstep, List.flatMap_singleton']

end Marks

section Spaces

/-- What the first two steps write for a character. -/
def shown (c : Char) : List Char := (entity c).flatMap marked

theorem shown_cases (c : Char) :
    (c, shown c) ∈ entities ∨ isPageMark c = true ∧ shown c = ['\\', c] ∨
      isPageMark c = false ∧ shown c = [c] ∧ c ∉ entities.map Prod.fst := by
  rcases entity_cases c with hcode | ⟨hplain, hc⟩
  · left
    have hkeep : ∀ e ∈ entities, e.2.flatMap marked = e.2 := by decide
    rwa [shown, hkeep _ hcode]
  · right
    rw [shown, hplain, List.flatMap_singleton, marked]
    by_cases hmark : isPageMark c = true
    · exact .inl ⟨hmark, if_pos hmark⟩
    · exact .inr ⟨by simpa using hmark, if_neg hmark, hc⟩

theorem hardSpace_eq : hardSpace = ['&', 'n', 'b', 's', 'p', ';'] := String.toList_ofList

theorem startsWith_hardSpace (hc : c ≠ '&') (cs : List Char) :
    startsWith hardSpace (c :: cs) = false := by
  simp [startsWith, hardSpace_eq, afterStart?, hc.symm]

/-- Nothing that the first two steps write can be taken for a space. -/
theorem hardSpace_not_shown {w : List Char} (hw : w <:+ shown c) (hne : w ≠ []) (v : List Char) :
    startsWith hardSpace (w ++ v) = false := by
  have hother {cs : List Char} (hcs : '&' ∉ cs) (hw : w <:+ cs) :
      startsWith hardSpace (w ++ v) = false := by
    obtain ⟨a, as, rfl⟩ := List.exists_cons_of_ne_nil hne
    exact startsWith_hardSpace (fun ha => hcs (hw.subset (by simp [ha]))) _
  rcases shown_cases c with hcode | ⟨hmark, hshown⟩ | ⟨-, hshown, hc⟩
  · obtain ⟨d, body, hshown, hd, hbody⟩ : ∃ d body, shown c = '&' :: d :: body ∧ d ≠ 'n' ∧
        '&' ∉ d :: body := by
      simp only [entities, List.mem_cons, List.not_mem_nil, or_false, Prod.mk.injEq] at hcode
      rcases hcode with ⟨-, h⟩ | ⟨-, h⟩ | ⟨-, h⟩ | ⟨-, h⟩ | ⟨-, h⟩ <;>
        exact ⟨_, _, h, by decide, by decide⟩
    rw [hshown] at hw
    rcases List.suffix_cons_iff.mp hw with rfl | hw
    · simp [startsWith, hardSpace_eq, afterStart?, hd.symm]
    · exact hother hbody hw
  · refine hother ?_ (hshown ▸ hw)
    simp only [List.mem_cons, List.not_mem_nil, or_false, not_or]
    refine ⟨by decide, ?_⟩
    rintro rfl
    cases hmark
  · exact hother (by simpa using (ne_ampersand hc).symm) (hshown ▸ hw)

theorem space_not_mem_shown (hc : c ≠ ' ') : ' ' ∉ shown c := by
  rcases shown_cases c with hcode | ⟨-, hshown⟩ | ⟨-, hshown, -⟩
  · have hall : ∀ e ∈ entities, ' ' ∉ e.2 := by decide
    exact hall _ hcode
  · simpa [hshown] using hc.symm
  · simpa [hshown] using hc.symm

theorem outputChar_of_ne (hc : c ≠ ' ') : outputChar c = shown c := by
  unfold outputChar
  split
  case h_6 => exact absurd rfl hc
  case h_7 hamp hlt hgt hquot hapos _ =>
    change (if isPageMark c then ['\\', c] else [c]) = shown c
    rcases shown_cases c with hcode | ⟨hmark, hshown⟩ | ⟨hmark, hshown, -⟩
    · have hkey : c ∈ entities.map Prod.fst := List.mem_map_of_mem hcode
      simp only [entities, List.map_cons, List.map_nil, List.mem_cons, List.not_mem_nil,
        or_false] at hkey
      rcases hkey with h | h | h | h | h <;> contradiction
    · rw [if_pos hmark, hshown]
    · rw [if_neg (by simp [hmark]), hshown]
  all_goals rfl

theorem flatMap_spaced (h : ' ' ∉ cs) : cs.flatMap spaced = cs := by
  induction cs with
  | nil => rfl
  | cons c cs ih =>
    obtain ⟨hc, hcs⟩ : ' ' ≠ c ∧ ' ' ∉ cs := by simpa using h
    rw [List.flatMap_cons, ih hcs, spaced, if_neg hc.symm]
    rfl

theorem outputChar_eq (c : Char) : outputChar c = (shown c).flatMap spaced := by
  by_cases hc : c = ' '
  · subst hc
    rfl
  · rw [outputChar_of_ne hc, flatMap_spaced (space_not_mem_shown hc)]

theorem flatMap_shown (cs : List Char) : cs.flatMap shown = (cs.flatMap entity).flatMap marked :=
  List.flatMap_assoc.symm

/-- Output is written in three steps, one after the other. -/
theorem outputText_eq (cs : List Char) :
    outputText cs = ((cs.flatMap entity).flatMap marked).flatMap spaced := by
  rw [← flatMap_shown, List.flatMap_assoc]
  exact congrArg (List.flatMap · cs) (funext outputChar_eq)

/-- Every hard space is one that was written. -/
theorem unspaced_outputText (cs : List Char) : unspaced (outputText cs) = cs.flatMap shown := by
  change substitute (hitAt hardSpace [' ']) (cs.flatMap outputChar) = _
  refine substitute_flatMap (fun c cs => ?_) cs
  generalize cs.flatMap outputChar = v
  by_cases hc : c = ' '
  · subst hc
    exact substitute_hit (by decide : hardSpace ≠ []) rfl
  · rw [outputChar_of_ne hc]
    refine substitute_append_of_none fun w hw hne => ?_
    rw [hitAt, hardSpace_not_shown hw hne]
    rfl

end Spaces

section Result

/-- What is written for a character is its entity, a hard space, the character behind a backslash,
or the character. -/
theorem outputChar_cases (c : Char) :
    outputChar c ∈ hardSpace :: entities.map Prod.snd ∨
      isPageMark c = true ∧ outputChar c = ['\\', c] ∨
      isPageMark c = false ∧ outputChar c = [c] ∧ c ∉ ' ' :: entities.map Prod.fst := by
  by_cases hspace : c = ' '
  · subst hspace
    exact .inl List.mem_cons_self
  rw [outputChar_of_ne hspace]
  rcases shown_cases c with hcode | hmark | ⟨hmark, hshown, hc⟩
  · exact .inl (List.mem_cons_of_mem _ (List.mem_map_of_mem hcode))
  · exact .inr (.inl hmark)
  · exact .inr (.inr ⟨hmark, hshown, by simpa [hspace] using hc⟩)

theorem getLast?_in_code {front back : List Char} {d : Char} (h : outputChar d = front ++ c :: back)
    (hc : isPageMark c = true) : front.getLast? = some '\\' := by
  rcases outputChar_cases d with hcode | ⟨-, hcode⟩ | ⟨hmark, hcode, -⟩
  · have hall : ∀ code ∈ hardSpace :: entities.map Prod.snd, code.any isPageMark = false := by
      decide
    have hany := hall _ hcode
    simp [h, hc] at hany
  · rw [hcode] at h
    cases front with
    | nil =>
      cases h
      cases hc
    | cons a front =>
      obtain ⟨rfl, hrest⟩ := List.cons.inj h
      rcases List.append_eq_singleton_iff.mp hrest.symm with ⟨rfl, -⟩ | ⟨-, hnil⟩
      · rfl
      · cases hnil
  · rcases List.append_eq_singleton_iff.mp (h.symm.trans hcode) with ⟨-, hsame⟩ | ⟨-, hnil⟩
    · cases hsame
      cases hc.symm.trans hmark
    · cases hnil

/-- A mark has a backslash before it. -/
theorem getLast?_before_mark {front back : List Char} (h : outputText cs = front ++ c :: back)
    (hc : isPageMark c = true) : front.getLast? = some '\\' := by
  induction cs generalizing front with
  | nil => simp [outputText] at h
  | cons d ds ih =>
    rw [outputText, List.flatMap_cons] at h
    rcases List.append_eq_append_iff.mp h with ⟨more, rfl, hrest⟩ | ⟨code, hcode, hrest⟩
    · rw [List.getLast?_append, ih hrest, Option.some_or]
    · cases code with
      | nil =>
        have hnil : [].getLast? = some '\\' := ih hrest.symm
        cases hnil
      | cons a code =>
        obtain ⟨rfl, -⟩ := List.cons.inj hrest
        exact getLast?_in_code hcode hc

/-- The characters that could end a block, or the element that holds it, or be lost in it. -/
def breaking : List Char := ['<', '>', '\x22', '\x27', ' ']

theorem outputText_not_breaking (cs : List Char) : ∀ c ∈ outputText cs, c ∉ breaking := by
  intro c hc hbreaking
  obtain ⟨d, -, hd⟩ := List.mem_flatMap.mp hc
  rcases outputChar_cases d with hcode | ⟨hmark, hcode⟩ | ⟨-, hcode, hplain⟩
  · have hall : ∀ code ∈ hardSpace :: entities.map Prod.snd,
        breaking.all (fun b => !code.contains b) = true := by decide
    simpa [hd] using List.all_eq_true.mp (hall _ hcode) c hbreaking
  · rw [hcode] at hd
    have hother : ∀ b ∈ breaking, (!isPageMark b && b != '\\') = true := List.all_eq_true.mp rfl
    have hc := hother c hbreaking
    rcases List.mem_cons.mp hd with rfl | hd
    · simp at hc
    · rw [List.mem_singleton.mp hd, hmark] at hc
      cases hc
  · rw [hcode, List.mem_singleton] at hd
    subst hd
    have hkeys : ∀ b ∈ breaking, (' ' :: entities.map Prod.fst).contains b = true :=
      List.all_eq_true.mp rfl
    exact hplain (List.contains_iff_mem.mp (hkeys c hbreaking))

theorem cutAt?_of_not_mem {n : Char} {as : List Char} (h : n ∉ as) (ns bs : List Char) :
    cutAt? (n :: ns) (as ++ (n :: ns ++ bs)) = some (as, bs) := by
  induction as with
  | nil =>
    have hstart : afterStart? (n :: ns) (n :: ns ++ bs) = some bs := afterStart?_eq_some.mpr rfl
    rw [List.nil_append, List.cons_append, cutAt?, ← List.cons_append, hstart]
  | cons a as ih =>
    obtain ⟨ha, has⟩ : n ≠ a ∧ n ∉ as := by simpa using h
    simpa [cutAt?, afterStart?, ha] using ih has

end Result

/-- Printed output, whatever it is, is written in three steps, without the characters that could end
its block, with a backslash before every mark, and undoing the steps from the last to the first
gives it back. Its block ends with the tag that closes it, whatever follows on the page. -/
theorem outputText_reads_back (cs : List Char) :
    outputText cs = ((cs.flatMap entity).flatMap marked).flatMap spaced ∧
      (∀ c ∈ outputText cs, c ∉ breaking) ∧
      (∀ front c back, outputText cs = front ++ c :: back → isPageMark c = true →
        front.getLast? = some '\\') ∧
      unescaped (unmarked (unspaced (outputText cs))) = cs ∧
      ∀ rest, cutAt? "</pre>".toList (outputText cs ++ ("</pre>".toList ++ rest)) =
        some (outputText cs, rest) := by
  refine ⟨outputText_eq cs, outputText_not_breaking cs,
    fun front c back h hc => getLast?_before_mark h hc, ?_, fun rest => ?_⟩
  · rw [unspaced_outputText, flatMap_shown, unmarked_marks, unescaped_entities]
  · have hopen : '<' ∉ outputText cs := fun hmem =>
      outputText_not_breaking cs '<' hmem List.mem_cons_self
    exact cutAt?_of_not_mem hopen "/pre>".toList rest

/-- Output that looks as if it were written already. -/
theorem outputText_reads_back_written :
    let cs := "&amp;&nbsp; \\[0]".toList
    outputText cs = "&amp;amp;&amp;nbsp;&nbsp;\\\\[0\\]".toList ∧
      (∀ c ∈ outputText cs, c ∉ breaking) ∧
      unescaped (unmarked (unspaced (outputText cs))) = cs := by
  intro cs
  obtain ⟨-, hbreaking, -, hback, -⟩ := outputText_reads_back cs
  exact ⟨by decide, hbreaking, hback⟩

end DocSite.Notebook
