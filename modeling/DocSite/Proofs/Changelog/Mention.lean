import DocSite.Changelog.Release
import DocSite.Proofs.Text

/-!
Mentions of users and the links that are written for them. A link shows its mention behind an
opening bracket, so no mention is left to be linked in a text that has been worked on. A mention
that a closing bracket follows loses its last character to the text behind the link.
-/

namespace DocSite.Changelog

open Text

variable {before before' : Option Char} {c : Char} {as cs out rest rest' user user' : List Char}

section Users

/-- The user that follows the sign of a mention. -/
def userAt (rest : List Char) : List Char :=
  if (rest.dropWhile isUserChar).head? = some ']' then (rest.takeWhile isUserChar).dropLast
  else rest.takeWhile isUserChar

/-- Whether a user follows: a character of a name that no closing bracket stands behind. -/
def startsUser : List Char → Bool
  | [] => false
  | c :: rest => isUserChar c && rest.head? ≠ some ']'

theorem userAt_isPrefix (rest : List Char) : userAt rest <+: rest := by
  unfold userAt
  split
  · exact (List.dropLast_prefix _).trans (List.takeWhile_prefix _)
  · exact List.takeWhile_prefix _

theorem isUserChar_of_mem_userAt (h : c ∈ userAt rest) : isUserChar c = true := by
  have hrun : c ∈ rest.takeWhile isUserChar := by
    unfold userAt at h
    split at h
    · exact List.dropLast_subset _ h
    · exact h
  exact List.all_eq_true.mp List.all_takeWhile c hrun

theorem userAt_ne_nil_iff : userAt rest ≠ [] ↔ startsUser rest = true := by
  cases rest with
  | nil => simp [userAt, startsUser]
  | cons c rest =>
    by_cases hc : isUserChar c = true
    · cases rest with
      | nil => simp [userAt, startsUser, hc]
      | cons d rest =>
        by_cases hd : isUserChar d = true
        · have hbracket : d ≠ ']' := by rintro rfl; exact absurd hd (by decide)
          by_cases hnext : (rest.dropWhile isUserChar).head? = some ']' <;>
            simp [userAt, startsUser, hc, hd, hbracket, hnext]
        · by_cases hbracket : d = ']'
          · subst hbracket
            simp [userAt, startsUser, hc, hd]
          · simp [userAt, startsUser, hc, hd, hbracket]
    · simp [userAt, startsUser, hc]

theorem mention_sign (before : Option Char) (rest : List Char) :
    mention before ('@' :: rest) =
      if before = some '[' then none
      else if (userAt rest).isEmpty then none
      else some ⟨(userAt rest).length + 1, profileLink (userAt rest)⟩ := by
  unfold mention userAt
  rw [← drop_takeWhile]
  rfl

theorem mention_eq_none_iff : mention before (c :: cs) = none ↔
    (c = '@' → before = some '[' ∨ startsUser cs = false) := by
  by_cases hc : c = '@'
  · subst hc
    rw [mention_sign, ← Bool.not_eq_true, ← userAt_ne_nil_iff]
    by_cases hbefore : before = some '[' <;> simp [hbefore]
  · simp [mention, hc]

theorem mention_eq_some {hit : Hit} (h : mention before (c :: cs) = some hit) :
    ∃ user rest, c = '@' ∧ cs = user ++ rest ∧ user ≠ [] ∧ (∀ u ∈ user, isUserChar u = true) ∧
      hit = ⟨user.length + 1, profileLink user⟩ := by
  have hsome : mention before (c :: cs) ≠ none := by simp [h]
  rw [Ne, mention_eq_none_iff] at hsome
  obtain ⟨rfl, hfree⟩ := Classical.not_imp.mp hsome
  obtain ⟨hbefore, huser⟩ := not_or.mp hfree
  have hne : userAt cs ≠ [] := userAt_ne_nil_iff.mpr (by simpa using huser)
  rw [mention_sign, if_neg hbefore, if_neg (by simpa using hne)] at h
  obtain ⟨rest, hrest⟩ := userAt_isPrefix cs
  exact ⟨userAt cs, rest, rfl, hrest.symm, hne, fun _ => isUserChar_of_mem_userAt,
    (Option.some.inj h).symm⟩

end Users

section Linking

theorem profileLink_append (user more : List Char) : profileLink user ++ more =
    '[' :: '@' :: (user ++ ']' :: ("(https://github.com/".toList ++ user ++ ')' :: more)) := by
  unfold profileLink
  simp

/-- A text with its mentions linked, read behind a character. -/
def linkAfter (before : Option Char) (cs : List Char) : List Char :=
  substituteFrom mention 0 before cs

theorem linkAfter_keep (h : mention before (c :: cs) = none) :
    linkAfter before (c :: cs) = c :: linkAfter (some c) cs := by
  rw [linkAfter, substituteFrom, h, linkAfter]

theorem linkAfter_mention (huser : user ≠ [])
    (h : mention before ('@' :: (user ++ rest)) = some ⟨user.length + 1, profileLink user⟩) :
    linkAfter before ('@' :: (user ++ rest)) = profileLink user ++ linkAfter user.getLast? rest := by
  rw [linkAfter, substituteFrom, h]
  simp only
  rw [substituteFrom_length, linkAfter, Option.or_of_isSome]
  simpa using huser

/-- What holds of a text and its form with links, character by character and mention by mention. -/
theorem linkAfter_induction {motive : Option Char → List Char → List Char → Prop}
    (nil : ∀ before, motive before [] [])
    (keep : ∀ before c cs, (c = '@' → before = some '[' ∨ startsUser cs = false) →
      motive (some c) cs (linkAfter (some c) cs) →
      motive before (c :: cs) (c :: linkAfter (some c) cs))
    (mention : ∀ before user rest, user ≠ [] → (∀ u ∈ user, isUserChar u = true) →
      motive user.getLast? rest (linkAfter user.getLast? rest) →
      motive before ('@' :: (user ++ rest)) (profileLink user ++ linkAfter user.getLast? rest))
    (before : Option Char) (cs : List Char) : motive before cs (linkAfter before cs) := by
  induction hn : cs.length using Nat.strongRecOn generalizing before cs with
  | ind n ih =>
    cases cs with
    | nil => exact nil before
    | cons c cs =>
      cases hmention : Changelog.mention before (c :: cs) with
      | none =>
        rw [linkAfter_keep hmention]
        exact keep before c cs (mention_eq_none_iff.mp hmention)
          (ih cs.length (by simp [← hn]) (some c) cs rfl)
      | some hit =>
        obtain ⟨user, rest, rfl, rfl, huser, hchars, rfl⟩ := mention_eq_some hmention
        rw [linkAfter_mention huser hmention]
        refine mention before user rest huser hchars (ih rest.length ?_ user.getLast? rest rfl)
        simp only [← hn, List.length_cons, List.length_append]
        omega

end Linking

section Linked

/-- Whether no mention in a text, read behind a character, is still to be linked: each sign stands
behind an opening bracket, or no user follows it. -/
def Linked : Option Char → List Char → Prop
  | _, [] => True
  | before, c :: cs => (c = '@' → before = some '[' ∨ startsUser cs = false) ∧ Linked (some c) cs

theorem linked_append (h : '@' ∉ as) :
    Linked before (as ++ cs) ↔ Linked (as.getLast?.or before) cs := by
  induction as generalizing before with
  | nil => rfl
  | cons a as ih =>
    obtain ⟨ha, has⟩ : '@' ≠ a ∧ '@' ∉ as := by simpa using h
    rw [List.cons_append, Linked, ih has]
    cases as <;> simp [List.getLast?_cons, Ne.symm ha]

theorem linkAfter_of_linked (h : Linked before cs) : linkAfter before cs = cs := by
  induction cs generalizing before with
  | nil => rfl
  | cons c cs ih =>
    obtain ⟨hc, hcs⟩ := h
    rw [linkAfter_keep (mention_eq_none_iff.mpr hc), ih hcs]

theorem head?_linkAfter (before : Option Char) (cs : List Char) :
    (linkAfter before cs).head? = cs.head? ∨
      cs.head? = some '@' ∧ (linkAfter before cs).head? = some '[' :=
  linkAfter_induction (motive := fun _ cs out =>
    out.head? = cs.head? ∨ cs.head? = some '@' ∧ out.head? = some '[')
    (fun _ => .inl rfl) (fun _ _ _ _ _ => .inl rfl) (fun _ _ _ _ _ _ => .inr ⟨rfl, rfl⟩) before cs

theorem startsUser_linkAfter (before : Option Char) (cs : List Char) :
    startsUser (linkAfter before cs) = startsUser cs := by
  refine linkAfter_induction (motive := fun _ cs out => startsUser out = startsUser cs)
    (fun _ => rfl) ?_ ?_ before cs
  · intro _ c cs _ _
    -- a link that begins behind the character does so with the other bracket
    have hnext : (linkAfter (some c) cs).head? = some ']' ↔ cs.head? = some ']' := by
      rcases head?_linkAfter (some c) cs with hsame | ⟨hsign, hlink⟩
      · rw [hsame]
      · rw [hsign, hlink]
        decide
    simp only [startsUser, ne_eq, hnext]
  · intro _ user rest _ _ _
    rfl

theorem linked_linkAfter (h : before = some '[' → before' = some '[') :
    Linked before' (linkAfter before cs) := by
  -- what stands before a sign in the result is what stood there, or the end of a link
  refine linkAfter_induction (motive := fun before _ out =>
    ∀ before', (before = some '[' → before' = some '[') → Linked before' out)
    (fun _ _ _ => trivial) ?_ ?_ before cs before' h
  · intro before c cs hkept ih before' hbefore
    refine ⟨fun hc => ?_, ih (some c) id⟩
    rw [startsUser_linkAfter]
    exact (hkept hc).imp_left hbefore
  · intro before user rest huser hchars ih before' _
    have hsign : '@' ∉ user := fun hmem => absurd (hchars _ hmem) (by decide)
    have hlast : user.getLast? = some '[' → some ')' = some '[' := fun hlast =>
      absurd (hchars _ (List.mem_of_getLast? hlast)) (by decide)
    have hlink : profileLink user ++ linkAfter user.getLast? rest =
        '[' :: '@' :: ((user ++ "](https://github.com/".toList ++ user ++ [')']) ++
          linkAfter user.getLast? rest) := by
      simp [profileLink_append]
    rw [hlink, Linked, Linked, linked_append (by simp [hsign]), List.getLast?_concat]
    exact ⟨by simp, by simp, ih (some ')') hlast⟩

end Linked

/-- A text whose mentions have been linked has none that is still to be linked, so nothing changes
when this is done again. -/
theorem linkMentions_idem (cs : List Char) :
    Linked none (linkMentions cs) ∧ linkMentions (linkMentions cs) = linkMentions cs := by
  have hlinked : Linked none (linkAfter none cs) := linked_linkAfter id
  exact ⟨hlinked, linkAfter_of_linked hlinked⟩

section Whole

/-- Characters of a name in front of a text that has no more of them to give. -/
structure IsRun (user rest : List Char) : Prop where
  ne_nil : user ≠ []
  chars : ∀ u ∈ user, isUserChar u = true
  ends : ∀ d ∈ rest.head?, isUserChar d = false

theorem IsRun.takeWhile_eq (h : IsRun user rest) : (user ++ rest).takeWhile isUserChar = user := by
  have hstop : rest.takeWhile isUserChar = [] := by
    cases rest with
    | nil => rfl
    | cons d rest => simp [h.ends d rfl]
  rw [List.takeWhile_append_of_pos h.chars, hstop, List.append_nil]

theorem IsRun.dropWhile_eq (h : IsRun user rest) : (user ++ rest).dropWhile isUserChar = rest := by
  rw [List.dropWhile_append_of_pos h.chars]
  cases rest with
  | nil => rfl
  | cons d rest => simp [h.ends d rfl]

theorem IsRun.unique (h : IsRun user rest) (h' : IsRun user' rest')
    (heq : user ++ rest = user' ++ rest') : user = user' ∧ rest = rest' := by
  constructor
  · rw [← h.takeWhile_eq, heq, h'.takeWhile_eq]
  · rw [← h.dropWhile_eq, heq, h'.dropWhile_eq]

theorem IsRun.not_mem (h : IsRun user rest) (hc : isUserChar c = false) : c ∉ user := by
  intro hmem
  rw [h.chars c hmem] at hc
  cases hc

theorem IsRun.starts (h : IsRun user rest) : ∃ u ∈ (user ++ rest).head?, isUserChar u = true := by
  obtain ⟨u, user, rfl⟩ := List.exists_cons_of_ne_nil h.ne_nil
  exact ⟨u, rfl, h.chars u (by simp)⟩

theorem exists_isRun (hd : isUserChar c = true) (cs : List Char) :
    ∃ user rest, c :: cs = user ++ rest ∧ IsRun user rest := by
  refine ⟨(c :: cs).takeWhile isUserChar, (c :: cs).dropWhile isUserChar,
    List.takeWhile_append_dropWhile.symm, ?_, ?_, ?_⟩
  · simp [hd]
  · exact List.all_eq_true.mp List.all_takeWhile
  · intro d hd
    have hhead := List.head?_dropWhile_not isUserChar (c :: cs)
    rw [Option.mem_def.mp hd] at hhead
    simpa using hhead

/-- What holds of a text, mention by mention and character by character outside of them. -/
theorem runs_induction {motive : List Char → Prop} (nil : motive [])
    (other : ∀ c cs, (c = '@' → ∀ d ∈ cs.head?, isUserChar d = false) → motive cs →
      motive (c :: cs))
    (run : ∀ user rest, IsRun user rest → motive rest → motive ('@' :: (user ++ rest)))
    (cs : List Char) : motive cs := by
  induction hn : cs.length using Nat.strongRecOn generalizing cs with
  | ind n ih =>
    cases cs with
    | nil => exact nil
    | cons c cs =>
      by_cases hc : c = '@' → ∀ d ∈ cs.head?, isUserChar d = false
      · exact other c cs hc (ih cs.length (by simp [← hn]) cs rfl)
      · simp only [Classical.not_imp, Classical.not_forall, Bool.not_eq_false] at hc
        obtain ⟨rfl, d, hhead, hd⟩ := hc
        obtain ⟨rest, rfl⟩ := List.head?_eq_some_iff.mp hhead
        obtain ⟨user, back, heq, hrun⟩ := exists_isRun hd rest
        rw [heq] at hn ⊢
        apply run user back hrun
        apply ih back.length _ back rfl
        simp only [← hn, List.length_cons, List.length_append]
        omega

/-- What is written for the mention of a whole run, by the characters around it. A closing bracket
behind the run costs it its last character. -/
def mentionText (before : Option Char) (user : List Char) (after : Option Char) : List Char :=
  if before = some '[' then '@' :: user
  else if after = some ']' then
    if user.length = 1 then '@' :: user else profileLink user.dropLast ++ user.getLast?.toList
  else profileLink user

theorem linkAfter_before (h : before = some '[' ↔ before' = some '[') (cs : List Char) :
    linkAfter before cs = linkAfter before' cs := by
  have hmention (cs : List Char) : mention before cs = mention before' cs := by
    cases cs with
    | nil => rfl
    | cons c cs =>
      by_cases hc : c = '@'
      · subst hc
        simp only [mention_sign, h]
      · simp [mention, hc]
  cases cs with
  | nil => rfl
  | cons c cs => simp only [linkAfter, substituteFrom, hmention]

theorem linkAfter_other (h : c = '@' → ∀ d ∈ cs.head?, isUserChar d = false) :
    linkAfter before (c :: cs) = c :: linkAfter (some c) cs := by
  apply linkAfter_keep
  rw [mention_eq_none_iff]
  intro hc
  right
  cases cs with
  | nil => rfl
  | cons d cs => simp [startsUser, h hc d rfl]

theorem linkAfter_append (h : '@' ∉ as) :
    linkAfter before (as ++ cs) = as ++ linkAfter (as.getLast?.or before) cs := by
  induction as generalizing before with
  | nil => rfl
  | cons a as ih =>
    obtain ⟨ha, has⟩ : '@' ≠ a ∧ '@' ∉ as := by simpa using h
    rw [List.cons_append, linkAfter_other fun heq => absurd heq.symm ha, ih has]
    cases as <;> simp [List.getLast?_cons]

theorem IsRun.linkAfter_rest (h : IsRun user rest) (before : Option Char) :
    linkAfter (user.getLast?.or before) rest = linkAfter none rest := by
  apply linkAfter_before
  constructor
  · intro hlast
    rw [Option.or_of_isSome (by simpa using h.ne_nil)] at hlast
    exact absurd (List.mem_of_getLast? hlast) (h.not_mem (by decide))
  · rintro ⟨⟩

theorem IsRun.linkAfter_kept (h : IsRun user rest)
    (hnone : mention before ('@' :: (user ++ rest)) = none) :
    linkAfter before ('@' :: (user ++ rest)) = '@' :: (user ++ linkAfter none rest) := by
  rw [linkAfter_keep hnone, linkAfter_append (h.not_mem (by decide)), h.linkAfter_rest]

theorem IsRun.userAt_eq (h : IsRun user rest) :
    userAt (user ++ rest) = if rest.head? = some ']' then user.dropLast else user := by
  rw [userAt, h.takeWhile_eq, h.dropWhile_eq]

theorem linkAfter_run (h : IsRun user rest) : linkAfter before ('@' :: (user ++ rest)) =
    mentionText before user rest.head? ++ linkAfter none rest := by
  unfold mentionText
  by_cases hbefore : before = some '['
  · rw [if_pos hbefore]
    apply h.linkAfter_kept
    rw [mention_sign, if_pos hbefore]
  rw [if_neg hbefore]
  have huser := h.userAt_eq
  -- a closing bracket behind a name costs it its last character, so a name of one is none
  by_cases hafter : rest.head? = some ']'
  · rw [if_pos hafter] at huser ⊢
    by_cases hone : user.length = 1
    · rw [if_pos hone]
      apply h.linkAfter_kept
      obtain ⟨u, rfl⟩ := List.length_eq_one_iff.mp hone
      rw [mention_sign, if_neg hbefore, huser]
      rfl
    · obtain ⟨front, last, rfl⟩ := (List.eq_nil_or_concat user).resolve_left h.ne_nil
      have hfront : front ≠ [] := by
        rintro rfl
        exact hone rfl
      have hlast : last ≠ '@' := by
        rintro rfl
        exact h.not_mem (c := '@') (by decide) (by simp)
      rw [List.concat_eq_append, List.dropLast_concat] at huser
      rw [if_neg hone, List.concat_eq_append, List.dropLast_concat, List.getLast?_concat,
        List.append_assoc]
      rw [List.append_assoc] at huser
      rw [linkAfter_mention hfront]
      · rw [List.singleton_append, linkAfter_other fun heq => absurd heq hlast, ← h.linkAfter_rest none]
        simp
      · rw [mention_sign, if_neg hbefore, huser, if_neg (by simpa using hfront)]
  · rw [if_neg hafter] at huser ⊢
    rw [linkAfter_mention h.ne_nil, ← h.linkAfter_rest none, Option.or_none]
    rw [mention_sign, if_neg hbefore, huser, if_neg (by simpa using h.ne_nil)]

/-- An opening bracket at the end of a text stands behind every name in it. -/
theorem opens_iff (h : '[' ∉ user) (before : Option Char) (rest : List Char) :
    ('@' :: (user ++ rest)).getLast?.or before = some '[' ↔ rest.getLast? = some '[' := by
  obtain rfl | ⟨front, last, rfl⟩ := List.eq_nil_or_concat rest
  · rw [List.append_nil, Option.or_of_isSome (by simp)]
    constructor
    · intro hlast
      exact absurd (by simpa using List.mem_of_getLast? hlast) h
    · rintro ⟨⟩
  · rw [List.concat_eq_append, ← List.append_assoc, ← List.cons_append, List.getLast?_concat,
      List.getLast?_concat, Option.some_or]

/-- A sign cuts a text in two that are worked on by themselves. -/
theorem linkAfter_append_sign (before : Option Char) (front back : List Char) :
    linkAfter before (front ++ '@' :: back) =
      linkAfter before front ++ linkAfter (front.getLast?.or before) ('@' :: back) := by
  have hsign (cs : List Char) (h : ∀ d ∈ cs.head?, isUserChar d = false) :
      ∀ d ∈ (cs ++ '@' :: back).head?, isUserChar d = false := by
    cases cs with
    | nil => simp [isUserChar]
    | cons c cs => exact h
  refine runs_induction (motive := fun front => ∀ before,
    linkAfter before (front ++ '@' :: back) =
      linkAfter before front ++ linkAfter (front.getLast?.or before) ('@' :: back))
    (fun _ => rfl) ?_ ?_ front before
  · intro c cs hc ih before
    rw [List.cons_append, linkAfter_other fun heq => hsign cs (hc heq), linkAfter_other hc, ih,
      List.cons_append]
    cases cs <;> simp [List.getLast?_cons]
  · intro user rest hrun ih before
    have htext : mentionText before user (rest ++ '@' :: back).head? =
        mentionText before user rest.head? := by
      cases rest <;> simp [mentionText]
    rw [List.cons_append, List.append_assoc,
      linkAfter_run ⟨hrun.ne_nil, hrun.chars, hsign rest hrun.ends⟩, linkAfter_run hrun, htext, ih,
      List.append_assoc, linkAfter_before (opens_iff (hrun.not_mem (by decide)) before rest), Option.or_none]

theorem linkMentions_mention (h : IsRun user rest) (front : List Char) :
    linkMentions (front ++ '@' :: (user ++ rest)) =
      linkMentions front ++ mentionText front.getLast? user rest.head? ++ linkMentions rest := by
  have hcut := linkAfter_append_sign none front (user ++ rest)
  rw [linkAfter_run h, Option.or_none, ← List.append_assoc] at hcut
  exact hcut

/-- A text with some of its mentions written as links, each as a whole, and all else as it is. -/
inductive LinkedWhole : List Char → List Char → Prop
  | nil : LinkedWhole [] []
  | other {c : Char} {cs out : List Char} (h : c = '@' → ∀ d ∈ cs.head?, isUserChar d = false) :
      LinkedWhole cs out → LinkedWhole (c :: cs) (c :: out)
  | kept {user rest out : List Char} (h : IsRun user rest) :
      LinkedWhole rest out → LinkedWhole ('@' :: (user ++ rest)) ('@' :: (user ++ out))
  | linked {user rest out : List Char} (h : IsRun user rest) :
      LinkedWhole rest out → LinkedWhole ('@' :: (user ++ rest)) (profileLink user ++ out)

theorem linkedWhole_other (h : c = '@' → ∀ d ∈ cs.head?, isUserChar d = false) :
    LinkedWhole (c :: cs) (c :: out) ↔ LinkedWhole cs out := by
  have hrun (user rest : List Char) (hrun : IsRun user rest) : c :: cs ≠ '@' :: (user ++ rest) := by
    intro heq
    obtain ⟨rfl, rfl⟩ := List.cons.inj heq
    obtain ⟨u, hhead, hu⟩ := hrun.starts
    rw [h rfl u hhead] at hu
    cases hu
  constructor
  · intro hwhole
    generalize hcs : c :: cs = text, hout : c :: out = written at hwhole
    cases hwhole with
    | nil => cases hcs
    | other _ hrest =>
      cases hcs
      cases hout
      exact hrest
    | kept hkept _ => exact absurd hcs (hrun _ _ hkept)
    | linked hlinked _ => exact absurd hcs (hrun _ _ hlinked)
  · exact .other h

theorem linkedWhole_run (h : IsRun user rest) : LinkedWhole ('@' :: (user ++ rest)) out ↔
    ∃ back, LinkedWhole rest back ∧
      (out = '@' :: (user ++ back) ∨ out = profileLink user ++ back) := by
  constructor
  · intro hwhole
    generalize hcs : '@' :: (user ++ rest) = text at hwhole
    cases hwhole with
    | nil => cases hcs
    | other hother _ =>
      obtain ⟨rfl, rfl⟩ := List.cons.inj hcs
      obtain ⟨u, hhead, hu⟩ := h.starts
      rw [hother rfl u hhead] at hu
      cases hu
    | kept hkept hback =>
      obtain ⟨rfl, rfl⟩ := h.unique hkept (List.cons.inj hcs).2
      exact ⟨_, hback, .inl rfl⟩
    | linked hlinked hback =>
      obtain ⟨rfl, rfl⟩ := h.unique hlinked (List.cons.inj hcs).2
      exact ⟨_, hback, .inr rfl⟩
  · rintro ⟨back, hback, rfl | rfl⟩
    · exact .kept h hback
    · exact .linked h hback

theorem profileLink_concat_ne {front : List Char} {last : Char} (h : last ≠ ']') :
    profileLink front ++ as ≠ profileLink (front ++ [last]) ++ cs := by
  intro heq
  rw [profileLink_append, profileLink_append, List.append_assoc front] at heq
  have htail := List.append_cancel_left (List.cons.inj (List.cons.inj heq).2).2
  exact h (List.cons.inj htail).1.symm

theorem linkedWhole_mention {back : List Char} (h : IsRun user rest) :
    LinkedWhole ('@' :: (user ++ rest)) (mentionText before user rest.head? ++ back) ↔
      (rest.head? = some ']' → 2 ≤ user.length → before = some '[') ∧ LinkedWhole rest back := by
  rw [linkedWhole_run h, mentionText]
  by_cases hbefore : before = some '['
  · simp [hbefore, profileLink_append]
  by_cases hafter : rest.head? = some ']'
  · by_cases hone : user.length = 1
    · simp [hbefore, hafter, hone, profileLink_append]
    · obtain ⟨front, last, rfl⟩ := (List.eq_nil_or_concat user).resolve_left h.ne_nil
      have hmany : 2 ≤ (front.concat last).length := by
        have hpos := List.length_pos_iff.mpr h.ne_nil
        omega
      have hlast : last ≠ ']' := by
        rintro rfl
        exact h.not_mem (c := ']') (by decide) (by simp)
      rw [if_neg hbefore, if_pos hafter, if_neg hone, List.concat_eq_append, List.dropLast_concat]
      constructor
      · rintro ⟨out, -, heq | heq⟩
        · simp [profileLink_append] at heq
        · rw [List.append_assoc] at heq
          exact absurd heq (profileLink_concat_ne hlast)
      · rintro ⟨hpaired, -⟩
        exact absurd (hpaired hafter (by simpa using hmany)) hbefore
  · simp [hbefore, hafter, profileLink_append]

/-- Whether every mention of more than one character that a closing bracket follows stands behind
an opening one. -/
def Paired (before : Option Char) (cs : List Char) : Prop :=
  ∀ front user back, cs = front ++ '@' :: (user ++ ']' :: back) →
    (∀ u ∈ user, isUserChar u = true) → 2 ≤ user.length → front.getLast?.or before = some '['

theorem isRun_bracket (hchars : ∀ u ∈ user, isUserChar u = true) (hlen : 2 ≤ user.length)
    (back : List Char) : IsRun user (']' :: back) := by
  refine ⟨?_, hchars, by simp [isUserChar]⟩
  rintro rfl
  simp at hlen

theorem paired_other (h : c = '@' → ∀ d ∈ cs.head?, isUserChar d = false) :
    Paired before (c :: cs) ↔ Paired (some c) cs := by
  constructor
  · rintro hpaired front user back rfl hchars hlen
    have hfront := hpaired (c :: front) user back rfl hchars hlen
    rw [List.getLast?_cons] at hfront
    cases hlast : front.getLast? <;> simpa [hlast] using hfront
  · intro hpaired front user back heq hchars hlen
    cases front with
    | nil =>
      obtain ⟨rfl, rfl⟩ := List.cons.inj heq
      obtain ⟨u, hhead, hu⟩ := (isRun_bracket hchars hlen back).starts
      rw [h rfl u hhead] at hu
      cases hu
    | cons d front =>
      obtain ⟨rfl, rfl⟩ := List.cons.inj heq
      have hfront := hpaired front user back rfl hchars hlen
      rw [List.getLast?_cons]
      cases hlast : front.getLast? <;> simpa [hlast] using hfront

theorem paired_run (h : IsRun user rest) : Paired before ('@' :: (user ++ rest)) ↔
    (rest.head? = some ']' → 2 ≤ user.length → before = some '[') ∧ Paired none rest := by
  have hopen : '[' ∉ user := h.not_mem (by decide)
  have hsign : '@' ∉ user := h.not_mem (by decide)
  constructor
  · intro hpaired
    constructor
    · intro hafter hlen
      obtain ⟨back, rfl⟩ := List.head?_eq_some_iff.mp hafter
      exact hpaired [] user back rfl h.chars hlen
    · rintro front inner back rfl hchars hlen
      rw [Option.or_none, ← opens_iff hopen before]
      apply hpaired _ inner back _ hchars hlen
      rw [List.cons_append, List.append_assoc]
  · rintro ⟨hfirst, hrest⟩ front inner back heq hchars hlen
    cases front with
    | nil =>
      obtain ⟨rfl, rfl⟩ := h.unique (isRun_bracket hchars hlen back) (List.cons.inj heq).2
      exact hfirst rfl hlen
    | cons d front =>
      obtain ⟨rfl, hcut⟩ := List.cons.inj heq
      -- the next sign stands behind the whole run
      obtain ⟨tail, rfl, htail⟩ : ∃ tail, front = user ++ tail ∧
          rest = tail ++ '@' :: (inner ++ ']' :: back) := by
        rcases List.append_eq_append_iff.mp hcut with ⟨tail, rfl, htail⟩ | ⟨tail, rfl, htail⟩
        · exact ⟨tail, rfl, htail⟩
        · cases tail with
          | nil => exact ⟨[], by simp, by simpa using htail.symm⟩
          | cons t tail =>
            obtain ⟨rfl, -⟩ := List.cons.inj htail
            exact absurd (by simp) hsign
      rw [opens_iff hopen before, ← Option.or_none (o := tail.getLast?)]
      exact hrest tail inner back htail hchars hlen

theorem linkedWhole_linkAfter_iff (before : Option Char) (cs : List Char) :
    LinkedWhole cs (linkAfter before cs) ↔ Paired before cs := by
  refine runs_induction (motive := fun cs => ∀ before,
    LinkedWhole cs (linkAfter before cs) ↔ Paired before cs) ?_ ?_ ?_ cs before
  · intro before
    refine iff_of_true .nil ?_
    intro front user back heq
    simp at heq
  · intro c cs hc ih before
    rw [linkAfter_other hc, linkedWhole_other hc, ih, paired_other hc]
  · intro user rest hrun ih before
    rw [linkAfter_run hrun, linkedWhole_mention hrun, ih, paired_run hrun]

end Whole

/-- Every mention becomes what the characters around it say. Each is linked as a whole or not at
all, with the rest of the text as it is, exactly if none of more than one character stands before a
closing bracket without standing behind an opening one. -/
theorem linkMentions_whole_iff (cs : List Char) :
    (LinkedWhole cs (linkMentions cs) ↔ Paired none cs) ∧
    ∀ front user rest, cs = front ++ '@' :: (user ++ rest) → IsRun user rest →
      linkMentions cs =
        linkMentions front ++ mentionText front.getLast? user rest.head? ++ linkMentions rest := by
  constructor
  · exact linkedWhole_linkAfter_iff none cs
  · rintro front user rest rfl hrun
    exact linkMentions_mention hrun front

theorem linkMentions_whole_closed :
    LinkedWhole "by @bob (for @a-b)".toList (linkMentions "by @bob (for @a-b)".toList) := by
  apply (linkMentions_whole_iff _).1.mpr
  intro front user back heq
  have hmem : ']' ∈ "by @bob (for @a-b)".toList := by simp [heq]
  exact absurd hmem (by decide)

theorem linkMentions_cuts_name :
    linkMentions "[by @bob]".toList = "[by [@bo](https://github.com/bo)b]".toList ∧
      ¬LinkedWhole "[by @bob]".toList (linkMentions "[by @bob]".toList) := by
  constructor
  · decide +kernel
  · intro hwhole
    have hpaired := (linkedWhole_linkAfter_iff none _).mp hwhole
    have hopen := hpaired "[by ".toList "bob".toList [] rfl (List.all_eq_true.mp rfl) (by decide)
    exact absurd hopen (by decide)

end DocSite.Changelog
