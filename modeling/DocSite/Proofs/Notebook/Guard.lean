import DocSite.Notebook.Guard
import DocSite.Proofs.Text

/-!
Guards for the tags of list items. What is put for a tag never makes a guard of the text around it,
so that taking guards off finds those that were put and those that stood in the text before.
-/

namespace DocSite.Notebook

open Text

variable {c : Char} {tag cs rest t : List Char} {hit : Hit}

/-- What may stand in a guard for a tag. -/
def IsTag (tag : List Char) : Prop := ∀ c ∈ tag, isTagChar c = true

/-- The tags that guards are put for. -/
def itemTags : List (List Char) := ["li".toList, "/li".toList]

/-- No guard stands in a text, whatever its tag. -/
def IsUnguarded (t : List Char) : Prop := ∀ tag, IsTag tag → ¬tagGuard tag <:+: t

theorem isTag_of_mem (h : tag ∈ itemTags) : IsTag tag := by
  have hall : itemTags.all (·.all isTagChar) = true := rfl
  exact List.all_eq_true.mp (List.all_eq_true.mp hall tag h)

theorem IsTag.not_mem (h : IsTag tag) (hc : isTagChar c = false) : c ∉ tag := by
  intro hmem
  rw [h c hmem] at hc
  cases hc

theorem guardOpening_eq : "(((HTML-".toList = ['(', '(', '(', 'H', 'T', 'M', 'L', '-'] := by simp

theorem guardClosing_eq : ")))".toList = [')', ')', ')'] := by simp

theorem tagGuard_eq (tag : List Char) : tagGuard tag =
    '(' :: '(' :: '(' :: 'H' :: 'T' :: 'M' :: 'L' :: '-' :: (tag ++ [')', ')', ')']) := by
  unfold tagGuard
  rw [guardOpening_eq, guardClosing_eq]
  rfl

theorem length_tagGuard (tag : List Char) : (tagGuard tag).length = 8 + tag.length + 3 := by
  simp only [tagGuard_eq, List.length_cons, List.length_append, List.length_nil]
  omega

/-- A guard opens with its three parentheses, and none are opened behind them. -/
theorem exists_tagGuard_eq (htag : IsTag tag) : ∃ inner : List Char,
    tagGuard tag = '(' :: '(' :: '(' :: 'H' :: inner ∧ '(' ∉ inner ∧ '<' ∉ inner := by
  have hopen : '(' ∉ tag := htag.not_mem rfl
  have hangle : '<' ∉ tag := htag.not_mem rfl
  exact ⟨_, tagGuard_eq tag, by simp [hopen], by simp [hangle]⟩

theorem guardedTag?_eq_some_iff : guardedTag? cs = some hit ↔
    ∃ tag rest, IsTag tag ∧ cs = tagGuard tag ++ rest ∧
      hit = ⟨(tagGuard tag).length, '<' :: tag ++ ['>']⟩ := by
  constructor
  · intro h
    obtain ⟨ahead, hopen, h⟩ := Option.bind_eq_some_iff.mp h
    obtain ⟨rest, hclose, h⟩ := Option.bind_eq_some_iff.mp h
    cases h
    rw [drop_takeWhile, guardClosing_eq, afterStart?_eq_some] at hclose
    rw [guardOpening_eq, afterStart?_eq_some] at hopen
    refine ⟨ahead.takeWhile isTagChar, rest, List.all_eq_true.mp List.all_takeWhile, ?_, ?_⟩
    · have hahead : ahead.takeWhile isTagChar ++ ([')', ')', ')'] ++ rest) = ahead := by
        rw [← hclose, List.takeWhile_append_dropWhile]
      rw [hopen, tagGuard_eq]
      simpa using hahead.symm
    · rw [length_tagGuard]
  · rintro ⟨tag, rest, htag, rfl, rfl⟩
    have htake : (tag ++ ([')', ')', ')'] ++ rest)).takeWhile isTagChar = tag := by
      rw [List.takeWhile_append_of_pos htag]
      exact List.append_nil tag
    have hopen : afterStart? "(((HTML-".toList (tagGuard tag ++ rest) =
        some (tag ++ ([')', ')', ')'] ++ rest)) := by
      rw [guardOpening_eq, afterStart?_eq_some, tagGuard_eq]
      simp
    have hclose : afterStart? ")))".toList ([')', ')', ')'] ++ rest) = some rest := by
      rw [guardClosing_eq, afterStart?_eq_some]
    rw [guardedTag?, hopen, length_tagGuard]
    simp only [Option.bind_eq_bind, Option.bind_some, htake, List.drop_left, hclose]
    rfl

theorem itemTag?_eq_some_iff : itemTag? cs = some hit ↔
    ∃ tag ∈ itemTags, ∃ rest, cs = '<' :: tag ++ ['>'] ++ rest ∧
      hit = ⟨('<' :: tag ++ ['>']).length, tagGuard tag⟩ := by
  have hitem : "<li>".toList = '<' :: "li".toList ++ ['>'] := by simp
  have hend : "</li>".toList = '<' :: "/li".toList ++ ['>'] := by simp
  have hstarts (start : List Char) : startsWith start cs = true ↔ ∃ rest, cs = start ++ rest := by
    rw [startsWith_iff_isPrefix]
    exact exists_congr fun rest => eq_comm
  rw [itemTag?, hitem, hend]
  constructor
  · intro h
    split at h
    case isTrue hstart =>
      cases h
      obtain ⟨rest, hrest⟩ := (hstarts _).mp hstart
      exact ⟨_, .head _, rest, hrest, by simp⟩
    case isFalse =>
      split at h
      case isTrue hstart =>
        cases h
        obtain ⟨rest, hrest⟩ := (hstarts _).mp hstart
        exact ⟨_, .tail _ (.head _), rest, hrest, by simp⟩
      case isFalse => cases h
  · rintro ⟨tag, htag, rest, rfl, rfl⟩
    obtain rfl | rfl : tag = "li".toList ∨ tag = "/li".toList := by simpa [itemTags] using htag
    · rw [if_pos (startsWith_append _ _)]
      simp
    · rw [if_neg (by simp [startsWith, afterStart?]), if_pos (startsWith_append _ _)]
      simp

theorem turns_itemTag? : Turns '<' '(' itemTag? := by
  refine ⟨fun cs hit h => ?_, fun cs hit h => ?_⟩
  all_goals
    rw [itemTag?_eq_some_iff] at h
    obtain ⟨tag, -, rest, rfl, rfl⟩ := h
  · simp
  · simp [tagGuard_eq]

theorem guardedTag?_tagGuard (htag : IsTag tag) (rest : List Char) :
    guardedTag? (tagGuard tag ++ rest) = some ⟨(tagGuard tag).length, '<' :: tag ++ ['>']⟩ := by
  rw [guardedTag?_eq_some_iff]
  exact ⟨tag, rest, htag, rfl, rfl⟩

theorem turns_guardedTag? : Turns '(' '<' guardedTag? := by
  refine ⟨fun cs hit h => ?_, fun cs hit h => ?_⟩
  all_goals
    rw [guardedTag?_eq_some_iff] at h
    obtain ⟨tag, rest, -, rfl, rfl⟩ := h
  · simp [length_tagGuard]
  · simp [tagGuard_eq]

/-- Guarding leaves guards as they are. -/
theorem guardTags_tagGuard (htag : IsTag tag) (rest : List Char) :
    guardTags (tagGuard tag ++ rest) = tagGuard tag ++ guardTags rest := by
  obtain ⟨inner, heq, -, hinner⟩ := exists_tagGuard_eq htag
  rw [heq]
  exact Turns.substitute_append turns_itemTag? (by simp [hinner]) rest

theorem guardTags_itemTag (htag : tag ∈ itemTags) (rest : List Char) :
    guardTags ('<' :: tag ++ ['>'] ++ rest) = tagGuard tag ++ guardTags rest := by
  apply substitute_hit (by simp)
  rw [itemTag?_eq_some_iff]
  exact ⟨tag, htag, rest, rfl, rfl⟩

theorem unguardTags_tagGuard (htag : IsTag tag) (rest : List Char) :
    unguardTags (tagGuard tag ++ rest) = '<' :: tag ++ ['>'] ++ unguardTags rest :=
  substitute_hit (by simp [tagGuard_eq]) (guardedTag?_tagGuard htag rest)

theorem unguardTags_tag (htag : IsTag tag) (rest : List Char) :
    unguardTags ('<' :: tag ++ ['>'] ++ rest) = '<' :: tag ++ ['>'] ++ unguardTags rest := by
  have hopen : '(' ∉ tag := htag.not_mem rfl
  exact Turns.substitute_append turns_guardedTag? (by simp [hopen]) rest

/-- A parenthesis in front of a guarded text was there or begins a guard that was put. -/
theorem guardTags_eq_cons {u : List Char} (h : guardTags cs = '(' :: u) :
    (∃ s, cs = '(' :: s ∧ guardTags s = u) ∨ ∃ v, u = '(' :: '(' :: v := by
  cases cs with
  | nil => cases h
  | cons d cs =>
    cases hfind : itemTag? (d :: cs) with
    | none =>
      rw [guardTags, substitute_keep hfind] at h
      obtain ⟨rfl, rfl⟩ := List.cons.inj h
      exact .inl ⟨cs, rfl, rfl⟩
    | some hit =>
      rw [itemTag?_eq_some_iff] at hfind
      obtain ⟨tag, htag, rest, hcs, -⟩ := hfind
      rw [hcs, guardTags_itemTag htag, tagGuard_eq] at h
      exact .inr ⟨_, (List.cons.inj h).2.symm⟩

/-- Guards that are put do not make guards of what stands before them: a guard has its parentheses
in front, and three of them are not followed by another one. -/
theorem guardedTag?_guardTags (h : guardedTag? (c :: cs) = none) :
    guardedTag? (c :: guardTags cs) = none := by
  cases hfind : guardedTag? (c :: guardTags cs) with
  | none => rfl
  | some hit =>
    rw [guardedTag?_eq_some_iff] at hfind
    obtain ⟨tag, rest, htag, heq, -⟩ := hfind
    obtain ⟨inner, hopens, hinner, -⟩ := exists_tagGuard_eq htag
    rw [hopens] at heq
    obtain ⟨rfl, hcs⟩ := List.cons.inj heq
    obtain ⟨u, rfl, hu⟩ | ⟨v, hv⟩ := guardTags_eq_cons hcs
    · obtain ⟨w, rfl, hw⟩ | ⟨v, hv⟩ := guardTags_eq_cons hu
      · have hfront : '(' ∉ 'H' :: inner := by simpa using hinner
        obtain ⟨s, rfl, -⟩ := Turns.eq_append_of_substitute turns_itemTag? hfront hw
        have hguard := guardedTag?_tagGuard htag s
        rw [hopens] at hguard
        cases h.symm.trans hguard
      · simp at hv
    · simp at hv

/-- Tags that are guarded come back, and guards that were there before become tags as they would
have anyway. -/
theorem unguardTags_guardTags (t : List Char) : unguardTags (guardTags t) = unguardTags t := by
  induction hn : t.length using Nat.strongRecOn generalizing t with
  | ind n ih =>
    subst hn
    cases t with
    | nil => rfl
    | cons c cs =>
      -- there is no tag in a guard and no guard in a tag: what stands in front goes as a whole
      cases hitem : itemTag? (c :: cs) with
      | some hit =>
        rw [itemTag?_eq_some_iff] at hitem
        obtain ⟨tag, htag, rest, hcs, -⟩ := hitem
        rw [hcs] at ih ⊢
        rw [guardTags_itemTag htag, unguardTags_tagGuard (isTag_of_mem htag),
          unguardTags_tag (isTag_of_mem htag), ih rest.length (by simp; omega) rest rfl]
      | none =>
        cases hguard : guardedTag? (c :: cs) with
        | some hit =>
          rw [guardedTag?_eq_some_iff] at hguard
          obtain ⟨tag, rest, htag, hcs, -⟩ := hguard
          rw [hcs] at ih ⊢
          rw [guardTags_tagGuard htag, unguardTags_tagGuard htag, unguardTags_tagGuard htag,
            ih rest.length (by rw [List.length_append, length_tagGuard]; omega) rest rfl]
        | none =>
          have hkeep : guardTags (c :: cs) = c :: guardTags cs := substitute_keep hitem
          have hunguard (rest : List Char) (h : guardedTag? (c :: rest) = none) :
              unguardTags (c :: rest) = c :: unguardTags rest := substitute_keep h
          rw [hkeep, hunguard _ (guardedTag?_guardTags hguard), hunguard _ hguard,
            ih cs.length (by simp) cs rfl]

theorem isUnguarded_iff :
    IsUnguarded t ↔ ∀ w, w <:+ t → w ≠ [] → guardedTag? w = none := by
  constructor
  · intro h w hw _
    cases hfind : guardedTag? w with
    | none => rfl
    | some hit =>
      rw [guardedTag?_eq_some_iff] at hfind
      obtain ⟨tag, rest, htag, rfl, -⟩ := hfind
      exact absurd ((List.prefix_append _ _).isInfix.trans hw.isInfix) (h tag htag)
  · rintro h tag htag ⟨front, rest, rfl⟩
    rw [List.append_assoc] at h
    have hnone := h _ (List.suffix_append _ _) (by simp [tagGuard_eq])
    cases hnone.symm.trans (guardedTag?_tagGuard htag rest)

theorem unguardTags_eq_self_iff : unguardTags t = t ↔ IsUnguarded t := by
  have hfront : t <+: unguardTags t ↔ IsUnguarded t := by
    have hprefix := Turns.isPrefix_substitute_iff turns_guardedTag? (u := t) (v := []) (by decide)
    simp only [List.append_nil] at hprefix
    rw [isUnguarded_iff]
    exact hprefix
  rw [← hfront]
  constructor
  · intro h
    exact ⟨[], (List.append_nil t).trans h.symm⟩
  · intro h
    rw [hfront, isUnguarded_iff] at h
    have hsame := substitute_append_of_none (v := []) (by simpa using h)
    rwa [List.append_nil, substitute_nil, List.append_nil] at hsame

/-- Putting guards and taking them off again gives a text back exactly if it had none before. -/
theorem guards_round_trip_iff (t : List Char) : unguardTags (guardTags t) = t ↔ IsUnguarded t := by
  rw [unguardTags_guardTags, unguardTags_eq_self_iff]

end DocSite.Notebook
