import DocSite.Proofs.Mdx.Reference

/-!
When the text before a fence is left alone. Every pass raises the rank of the first character it
changes, so no later pass can bring back what an earlier one has changed, and a text comes through
all of them exactly if it comes through each.
-/

namespace DocSite.Mdx

open Text

section Rising

variable {p u v w : List Char} {find : List Char → Option Hit}

/-- The order in which characters can take the place of each other: a backtick that of a colon, an
opening bracket that of an angle bracket, and a parenthesis that of a bracket. -/
def rank (c : Char) : Nat :=
  if c = '(' then 2 else if c = '\x60' || c = '[' then 1 else 0

/-- Texts that are equal or at whose first difference the rank rises. -/
inductive Rises : List Char → List Char → Prop
  | refl (u : List Char) : Rises u u
  | head {a b : Char} (h : rank a < rank b) (u v : List Char) : Rises (a :: u) (b :: v)
  | cons (c : Char) {u v : List Char} (h : Rises u v) : Rises (c :: u) (c :: v)

theorem Rises.trans (h : Rises u v) (hw : Rises v w) : Rises u w := by
  induction h generalizing w with
  | refl => exact hw
  | head hab =>
    cases hw with
    | refl => exact .head hab _ _
    | head hbc => exact .head (Nat.lt_trans hab hbc) _ _
    | cons => exact .head hab _ _
  | cons c h ih =>
    cases hw with
    | refl => exact .cons c h
    | head hcb => exact .head hcb _ _
    | cons _ hw => exact .cons c (ih hw)

theorem Rises.append_left (h : Rises u v) (as : List Char) : Rises (as ++ u) (as ++ v) := by
  induction as with
  | nil => exact h
  | cons a as ih => exact .cons a ih

theorem Rises.rank_lt_or_eq {a c : Char} {as cs : List Char} (h : Rises (a :: as) (c :: cs)) :
    rank a < rank c ∨ a = c := by
  cases h with
  | refl => exact .inr rfl
  | head h => exact .inl h
  | cons => exact .inr rfl

/-- What the first and the last of three texts begin with, the one between begins with too. -/
theorem Rises.isPrefix (h : Rises u v) (hw : Rises v w) (hu : p <+: u) (hp : p <+: w) :
    p <+: v := by
  induction h generalizing p w with
  | refl => exact hu
  | @head a b hab u v =>
    cases p with
    | nil => exact List.nil_prefix
    | cons c p =>
      obtain ⟨w, rfl⟩ := hp
      obtain ⟨rfl, -⟩ := List.cons_prefix_cons.mp hu
      rcases hw.rank_lt_or_eq with hlt | rfl <;> omega
  | @cons c u v h ih =>
    cases p with
    | nil => exact List.nil_prefix
    | cons d p =>
      obtain ⟨rfl, hrest⟩ := List.cons_prefix_cons.mp hu
      cases hw with
      | refl => exact hp
      | head hlt =>
        obtain ⟨rfl, -⟩ := List.cons_prefix_cons.mp hp
        omega
      | cons _ hw =>
        exact List.cons_prefix_cons.mpr ⟨rfl, ih hw hrest (List.cons_prefix_cons.mp hp).2⟩

theorem rises_substitute (hfits : Fits find)
    (hhits : ∀ as cs written, find (as ++ cs) = some ⟨as.length, written⟩ →
      ∀ us vs, Rises us vs → Rises (as ++ us) (written ++ vs)) (cs : List Char) :
    Rises cs (substitute find cs) := by
  refine substitute_induction hfits (.refl []) ?_ ?_ cs
  · intro c cs _ ih
    exact .cons c ih
  · intro as cs written _ hhit ih
    exact hhits as cs written hhit _ _ ih

end Rising

section Recognisers

variable {cs : List Char}

/-- The first of several role marks that stands at the head of a text. -/
def roles (leads : List (List Char)) (ahead : List Char) : Option Hit :=
  leads.findSome? fun r => roleCode r ahead

def allRoles : List (List Char) := dataRole :: objectRoles

/-- What role marks and schemes are made of. -/
def isMarkChar (c : Char) : Bool := c = ':' || c = '/' || c.isLower

theorem not_mem_mark {c : Char} {mark : List Char}
    (h : mark ∈ allRoles ++ (webSchemes ++ mailSchemes)) (hc : isMarkChar c = false) :
    c ∉ mark := by
  have hall : (allRoles ++ (webSchemes ++ mailSchemes)).all (·.all isMarkChar) = true := by decide
  intro hmem
  rw [List.all_eq_true.mp (List.all_eq_true.mp hall mark h) c hmem] at hc
  cases hc

theorem head?_role : ∀ lead ∈ allRoles, lead.head? = some ':' := by decide

theorem turns_roles {leads : List (List Char)} (h : leads ⊆ allRoles) :
    Turns ':' '\x60' (roles leads) := by
  have hspec {cs : List Char} {hit : Hit} (hhit : roles leads cs = some hit) :
      ∃ lead ∈ leads, ∃ inner rest, cs = lead ++ inlineCode inner ++ rest ∧
        hit = ⟨(lead ++ inlineCode inner).length, inlineCode inner⟩ := by
    obtain ⟨lead, hlead, hcode⟩ := List.exists_of_findSome?_eq_some hhit
    obtain ⟨inner, rest, -, -, hcs, hhit⟩ := roleCode_eq_some_iff.mp hcode
    exact ⟨lead, hlead, inner, rest, hcs, hhit⟩
  constructor
  · intro cs hit hhit
    obtain ⟨lead, -, inner, rest, rfl, rfl⟩ := hspec hhit
    simp only [inlineCode, List.length_append, List.length_cons, List.length_nil]
    omega
  · intro cs hit hhit
    obtain ⟨lead, hlead, inner, rest, rfl, rfl⟩ := hspec hhit
    simp [List.head?_append, head?_role lead (h hlead), inlineCode]

theorem roles_hit {leads : List (List Char)} {as written : List Char}
    (h : roles leads (as ++ cs) = some ⟨as.length, written⟩) :
    ∃ lead ∈ leads, ∃ inner, as = lead ++ inlineCode inner ∧ written = inlineCode inner := by
  obtain ⟨lead, hlead, hcode⟩ := List.exists_of_findSome?_eq_some h
  obtain ⟨inner, rest, -, -, heq, hhit⟩ := roleCode_eq_some_iff.mp hcode
  obtain ⟨hlength, hwritten⟩ := Hit.mk.inj hhit
  exact ⟨lead, hlead, inner, (List.append_inj heq hlength).1, hwritten⟩

theorem autolink_hit {schemes : List (List Char)} {as written : List Char}
    (h : autolink schemes (as ++ cs) = some ⟨as.length, written⟩) :
    ∃ inner, '>' ∉ inner ∧ isAddress schemes inner = true ∧ as = '<' :: inner ++ ['>'] ∧
      written = linkTo inner := by
  obtain ⟨inner, rest, hinner, haddress, heq, hhit⟩ := autolink_eq_some_iff.mp h
  obtain ⟨hlength, hwritten⟩ := Hit.mk.inj hhit
  have htaken : as ++ cs = ('<' :: inner ++ ['>']) ++ rest := by simpa using heq
  exact ⟨inner, hinner, haddress, (List.append_inj htaken (by simpa using hlength)).1, hwritten⟩

theorem reference_hit {as written : List Char}
    (h : reference (as ++ cs) = some ⟨as.length, written⟩) :
    ∃ text path, ']' ∉ text ∧ ']' ∉ path ∧ as = referenceTo text path ∧
      written = rewritten text path := by
  obtain ⟨text, path, rest, htext, hpath, heq, hhit⟩ := reference_eq_some_iff.mp h
  obtain ⟨hlength, hwritten⟩ := Hit.mk.inj hhit
  exact ⟨text, path, htext, hpath, (List.append_inj heq hlength).1, hwritten⟩

theorem turns_autolink (schemes : List (List Char)) : Turns '<' '[' (autolink schemes) := by
  constructor
  · intro cs hit hhit
    obtain ⟨inner, rest, -, -, rfl, rfl⟩ := autolink_eq_some_iff.mp hhit
    simp only [List.length_append, List.length_cons]
    omega
  · intro cs hit hhit
    obtain ⟨inner, rest, -, -, rfl, rfl⟩ := autolink_eq_some_iff.mp hhit
    simp [linkTo]

theorem fits_reference : Fits reference := by
  intro cs hit hhit
  obtain ⟨text, path, rest, -, -, rfl, rfl⟩ := reference_eq_some_iff.mp hhit
  simp only [referenceTo, List.length_append, List.length_cons]
  omega

theorem rises_of_turns {a b : Char} {find : List Char → Option Hit} (h : Turns a b find)
    (hrank : rank a < rank b) (cs : List Char) : Rises cs (substitute find cs) := by
  refine rises_substitute h.fits ?_ cs
  intro as cs written hhit us vs _
  obtain ⟨a', as, rfl⟩ := List.exists_cons_of_length_pos (h.fits _ _ hhit).1
  obtain ⟨hold, hnew⟩ := h.starts _ _ hhit
  obtain ⟨written, rfl⟩ := List.head?_eq_some_iff.mp hnew
  rw [Option.some.inj hold]
  exact .head hrank _ _

theorem rises_reference (cs : List Char) : Rises cs (substitute reference cs) := by
  refine rises_substitute fits_reference ?_ cs
  intro as cs written hhit us vs hrises
  obtain ⟨text, path, -, -, rfl, rfl⟩ := reference_hit hhit
  rw [rewritten]
  cases target? path with
  | none => exact hrises.append_left _
  | some page =>
    have hparen : Rises ('[' :: (path ++ [']'] ++ us))
        ('(' :: ("./".toList ++ pageSlug page ++ [')'] ++ vs)) := .head (by decide) _ _
    simpa [referenceTo, linkBeside] using hparen.append_left ('[' :: text ++ [']'])

end Recognisers

/-- What opens and closes a block of code. -/
def fence : List Char := ['\x60', '\x60', '\x60']

section Fence

variable {leads schemes : List (List Char)} {lead region u v w : List Char}

theorem append_cons_inj {c : Char} {as as' bs bs' : List Char} (h : c ∉ as) (h' : c ∉ as')
    (heq : as ++ c :: bs = as' ++ c :: bs') : as = as' ∧ bs = bs' := by
  have has : as = as' := by rw [← takeWhile_append_stop h bs, heq, takeWhile_append_stop h']
  subst has
  exact ⟨rfl, (List.cons.inj (List.append_cancel_left heq)).2⟩

theorem exists_eq_append_of_not_mem {c : Char} {as as' bs bs' : List Char} (h : c ∉ as)
    (heq : as ++ bs = as' ++ c :: bs') : ∃ more, as' = as ++ more ∧ bs = more ++ c :: bs' := by
  rcases List.append_eq_append_iff.mp heq with ⟨more, has, hbs⟩ | ⟨more, has, hbs⟩
  · exact ⟨more, has, hbs⟩
  · cases more with
    | nil => exact ⟨[], by simpa using has.symm, by simpa using hbs.symm⟩
    | cons m more =>
      obtain ⟨rfl, -⟩ := List.cons.inj hbs
      exact absurd (by simp [has]) h

theorem suffix_fence (h : w <:+ u ++ fence) (hne : w ≠ []) :
    (∃ more, w = '\x60' :: more) ∨ ∃ front, front <:+ u ∧ w = front ++ fence := by
  obtain ⟨before, heq⟩ := h
  rcases List.append_eq_append_iff.mp heq with ⟨as, hu, hw⟩ | ⟨bs, hbefore, hfence⟩
  · exact .inr ⟨as, ⟨before, hu.symm⟩, hw⟩
  · left
    have hall : ∀ c ∈ fence, c = '\x60' := by simp [fence]
    obtain ⟨c, w, rfl⟩ := List.exists_cons_of_ne_nil hne
    exact ⟨w, by rw [hall c (by simp [hfence])]⟩

/-- Nothing behind a pair of backticks matters to a role mark before it. -/
theorem roleCode_closed (h : '\x60' ∉ lead) (w x : List Char) :
    roleCode lead (w ++ '\x60' :: '\x60' :: x) = roleCode lead (w ++ ['\x60']) := by
  apply Option.ext
  intro hit
  rw [roleCode_eq_some_iff, roleCode_eq_some_iff]
  constructor
  · rintro ⟨inner, rest, hne, hinner, heq, rfl⟩
    refine ⟨inner, ?_⟩
    have hcode : lead ++ inlineCode inner ++ rest =
        lead ++ '\x60' :: (inner ++ '\x60' :: rest) := by simp [inlineCode]
    rw [hcode] at heq
    by_cases hw : '\x60' ∈ w
    · obtain ⟨front, back, rfl, hfront⟩ := List.eq_append_cons_of_mem hw
      rw [List.append_assoc, List.cons_append] at heq
      obtain ⟨rfl, hclosed⟩ := append_cons_inj hfront h heq
      by_cases hback : '\x60' ∈ back
      · obtain ⟨inside, more, rfl, hinside⟩ := List.eq_append_cons_of_mem hback
        rw [List.append_assoc, List.cons_append] at hclosed
        obtain ⟨rfl, -⟩ := append_cons_inj hinside hinner hclosed
        exact ⟨more ++ ['\x60'], hne, hinner, by simp [inlineCode], rfl⟩
      · obtain ⟨rfl, -⟩ := append_cons_inj hback hinner hclosed
        exact ⟨[], hne, hinner, by simp [inlineCode], rfl⟩
    · obtain ⟨-, hclosed⟩ := append_cons_inj hw h heq
      rw [← List.nil_append ('\x60' :: x)] at hclosed
      exact absurd (append_cons_inj List.not_mem_nil hinner hclosed).1.symm hne
  · rintro ⟨inner, rest, hne, hinner, heq, rfl⟩
    refine ⟨inner, rest ++ '\x60' :: x, hne, hinner, ?_, rfl⟩
    rw [← List.append_assoc, ← heq]
    simp

theorem roleCode_fence (h : lead ∈ allRoles) (w v : List Char) :
    roleCode lead (w ++ fence ++ v) = roleCode lead (w ++ ['\x60']) := by
  have hcode : '\x60' ∉ lead := not_mem_mark (List.mem_append_left _ h) (by decide)
  have hfence : w ++ fence ++ v = w ++ '\x60' :: '\x60' :: ('\x60' :: v) := by simp [fence]
  rw [hfence, roleCode_closed hcode]

theorem roles_eq_none {w : List Char} : roles leads w = none ↔ ∀ r ∈ leads, roleCode r w = none :=
  List.findSome?_eq_none_iff

theorem roles_congr (h : ∀ r ∈ leads, roleCode r u = roleCode r v) :
    roles leads u = roles leads v := by
  induction leads with
  | nil => rfl
  | cons r leads ih =>
    have hleads := ih fun q hq => h q (List.mem_cons_of_mem _ hq)
    rw [roles] at hleads ⊢
    rw [roles, List.findSome?_cons, List.findSome?_cons, h r (by simp), hleads]
    rfl

/-- Role marks before a fence do not depend on what comes behind it. -/
theorem roles_settled (h : leads ⊆ allRoles) (hw : w <:+ u ++ fence) (hne : w ≠ [])
    (v : List Char) : roles leads (w ++ v) = roles leads w := by
  obtain ⟨more, rfl⟩ | ⟨front, -, rfl⟩ := suffix_fence hw hne
  · have hnone := (turns_roles h).eq_none (c := '\x60') (by decide)
    rw [List.cons_append, hnone, hnone]
  · have hsame : ∀ r ∈ leads, roleCode r (front ++ fence ++ v) = roleCode r (front ++ fence) := by
      intro r hr
      have hlast := roleCode_fence (h hr) front []
      rw [List.append_nil] at hlast
      rw [roleCode_fence (h hr), hlast]
    exact roles_congr hsame

/-- Inline code under a role mark, closed in a text or by a fence behind it. -/
def HasRole (leads : List (List Char)) (region : List Char) : Prop :=
  ∃ lead ∈ leads, ∃ inner, inner ≠ [] ∧ '\x60' ∉ inner ∧
    lead ++ inlineCode inner <:+: region ++ ['\x60']

theorem roles_none_iff (h : leads ⊆ allRoles) :
    (∀ w, w <:+ region ++ fence → w ≠ [] → roles leads (w ++ v) = none) ↔
      ¬HasRole leads region := by
  constructor
  · rintro hnone ⟨lead, hlead, inner, hne, hinner, hmid⟩
    obtain ⟨t, ⟨rest, rfl⟩, hsuffix⟩ := List.infix_iff_prefix_suffix.mp hmid
    rcases List.suffix_concat_iff.mp hsuffix with hnil | ⟨w, ht, hw⟩
    · simp [inlineCode] at hnil
    · have hcode := roleCode_fence (h hlead) w v
      rw [← ht, roleCode_eq_some_iff.mpr ⟨inner, rest, hne, hinner, rfl, rfl⟩] at hcode
      have hlast := hnone _ (List.suffix_append_self_iff.mpr hw) (by simp [fence])
      rw [roles_eq_none.mp hlast lead hlead] at hcode
      cases hcode
  · intro hno w hw hne
    obtain ⟨more, rfl⟩ | ⟨front, hfront, rfl⟩ := suffix_fence hw hne
    · exact (turns_roles h).eq_none (by decide) _
    · refine roles_eq_none.mpr fun lead hlead => ?_
      rw [roleCode_fence (h hlead)]
      cases hcode : roleCode lead (front ++ ['\x60']) with
      | none => rfl
      | some hit =>
        obtain ⟨inner, rest, hne, hinner, heq, -⟩ := roleCode_eq_some_iff.mp hcode
        refine absurd ⟨lead, hlead, inner, hne, hinner, ?_⟩ hno
        exact List.infix_iff_prefix_suffix.mpr
          ⟨_, ⟨rest, heq.symm⟩, List.suffix_append_self_iff.mpr hfront⟩

theorem isAddress_iff {cs : List Char} : isAddress schemes cs = true ↔
    ∃ scheme ∈ schemes, ∃ rest, rest ≠ [] ∧ cs = scheme ++ rest := by
  rw [isAddress, List.any_eq_true]
  constructor
  · rintro ⟨scheme, hscheme, hany⟩
    cases hstart : afterStart? scheme cs with
    | none => simp [hstart] at hany
    | some rest =>
      rw [hstart, Option.any_some] at hany
      exact ⟨scheme, hscheme, rest, by simpa using hany, afterStart?_eq_some.mp hstart⟩
  · rintro ⟨scheme, hscheme, rest, hne, rfl⟩
    refine ⟨scheme, hscheme, ?_⟩
    rw [afterStart?_eq_some.mpr rfl, Option.any_some]
    simpa using hne

/-- An address in angle brackets, closed in a text, or one that is left open in it and closed
behind it. -/
def HasAddress (schemes : List (List Char)) (region after : List Char) : Prop :=
  ∃ scheme ∈ schemes,
    (∃ x, x ≠ [] ∧ '>' ∉ x ∧ '<' :: scheme ++ x ++ ['>'] <:+: region) ∨
    ('>' ∈ after ∧ ∃ x, '>' ∉ x ∧ '<' :: scheme ++ x <:+ region)

theorem autolink_fence {hit : Hit} (h : schemes ⊆ webSchemes ++ mailSchemes)
    (hhit : autolink schemes (w ++ fence ++ v) = some hit) :
    (∃ inner rest, '>' ∉ inner ∧ isAddress schemes inner = true ∧
      w = '<' :: inner ++ '>' :: rest ∧ hit = ⟨inner.length + 2, linkTo inner⟩) ∨
    ('>' ∈ v ∧ ∃ scheme ∈ schemes, ∃ x, '>' ∉ x ∧ w = '<' :: scheme ++ x) := by
  obtain ⟨inner, rest, hinner, haddress, heq, hfound⟩ := autolink_eq_some_iff.mp hhit
  have hopen : '>' ∉ '<' :: inner := by simpa using hinner
  by_cases hw : '>' ∈ w
  · left
    obtain ⟨front, back, rfl, hfront⟩ := List.eq_append_cons_of_mem hw
    simp only [List.append_assoc, List.cons_append] at heq
    obtain ⟨rfl, -⟩ := append_cons_inj hfront hopen heq
    exact ⟨inner, back, hinner, haddress, rfl, hfound⟩
  · right
    have hclosed : '>' ∉ w ++ fence := by simp [hw, fence]
    obtain ⟨more, htext, rfl⟩ := exists_eq_append_of_not_mem hclosed heq
    refine ⟨by simp, ?_⟩
    cases w with
    | nil => simp [fence] at htext
    | cons c w =>
      obtain ⟨rfl, haddressed⟩ := List.cons.inj htext
      obtain ⟨scheme, hscheme, tail, -, rfl⟩ := isAddress_iff.mp haddress
      have hcode : '\x60' ∉ scheme :=
        not_mem_mark (List.mem_append_right _ (h hscheme)) (by decide)
      have hfence : scheme ++ tail = w ++ '\x60' :: ('\x60' :: '\x60' :: more) := by
        simpa [fence] using haddressed
      obtain ⟨x, rfl, -⟩ := exists_eq_append_of_not_mem hcode hfence
      exact ⟨scheme, hscheme, x, fun hx => hw (by simp [hx]), rfl⟩

theorem autolink_none_iff (h : schemes ⊆ webSchemes ++ mailSchemes) :
    (∀ w, w <:+ region ++ fence → w ≠ [] → autolink schemes (w ++ v) = none) ↔
      ¬HasAddress schemes region v := by
  constructor
  · rintro hnone ⟨scheme, hscheme, hopen⟩
    have hangle : '>' ∉ scheme := not_mem_mark (List.mem_append_right _ (h hscheme)) (by decide)
    have hfound {inner rest : List Char} (hne : inner ≠ []) (hinner : '>' ∉ inner) :
        autolink schemes ('<' :: (scheme ++ inner) ++ '>' :: rest) ≠ none := by
      rw [autolink_eq_some_iff.mpr ⟨scheme ++ inner, rest, by simp [hangle, hinner],
        isAddress_iff.mpr ⟨scheme, hscheme, inner, hne, rfl⟩, rfl, rfl⟩]
      exact nofun
    rcases hopen with ⟨x, hne, hx, hmid⟩ | ⟨hv, x, hx, hsuffix⟩
    · obtain ⟨t, ⟨rest, rfl⟩, ht⟩ := List.infix_iff_prefix_suffix.mp hmid
      have hlast := hnone _ (List.suffix_append_self_iff.mpr ht) (by simp)
      exact hfound hne hx (by simpa using hlast)
    · obtain ⟨front, back, rfl, hfront⟩ := List.eq_append_cons_of_mem hv
      have hlast := hnone _ (List.suffix_append_self_iff.mpr hsuffix) (by simp)
      have hinner : '>' ∉ x ++ fence ++ front := by simp [hx, hfront, fence]
      exact hfound (by simp [fence]) hinner (by simpa using hlast)
  · intro hno w hw hne
    obtain ⟨more, rfl⟩ | ⟨front, hfront, rfl⟩ := suffix_fence hw hne
    · exact (turns_autolink schemes).eq_none (by decide) _
    · cases hhit : autolink schemes (front ++ fence ++ v) with
      | none => rfl
      | some hit =>
        rcases autolink_fence h hhit with
          ⟨inner, rest, hinner, haddress, rfl, -⟩ | ⟨hv, scheme, hscheme, x, hx, rfl⟩
        · obtain ⟨scheme, hscheme, x, hx, rfl⟩ := isAddress_iff.mp haddress
          refine absurd ⟨scheme, hscheme, .inl ⟨x, hx, fun hmem => hinner (by simp [hmem]), ?_⟩⟩ hno
          exact List.infix_iff_prefix_suffix.mpr ⟨_, ⟨rest, by simp⟩, hfront⟩
        · exact absurd ⟨scheme, hscheme, .inr ⟨hv, x, hx, hfront⟩⟩ hno

end Fence

section Pairs

variable {text path region v cs : List Char} {c : Char}

/-- The pairs of brackets that stand side by side, read left to right. `skip` characters of a pair
are still to be passed over. -/
def pairsFrom : Nat → List Char → List (List Char × List Char)
  | _, [] => []
  | skip + 1, _ :: cs => pairsFrom skip cs
  | 0, c :: cs =>
    match referenceParts? (c :: cs) with
    | some (text, path) => (text, path) :: pairsFrom (text.length + path.length + 3) cs
    | none => pairsFrom 0 cs

def pairs (cs : List Char) : List (List Char × List Char) := pairsFrom 0 cs

theorem pairs_keep (h : referenceParts? (c :: cs) = none) : pairs (c :: cs) = pairs cs := by
  rw [pairs, pairsFrom, h, pairs]

theorem pairs_reference (htext : ']' ∉ text) (hpath : ']' ∉ path) (rest : List Char) :
    pairs (referenceTo text path ++ rest) = (text, path) :: pairs rest := by
  have hskip (as : List Char) : pairsFrom as.length (as ++ rest) = pairsFrom 0 rest := by
    induction as with
    | nil => rfl
    | cons a as ih => exact ih
  have hparts := referenceParts?_eq_some_iff.mpr ⟨htext, hpath, rest, rfl⟩
  have hlength : text.length + path.length + 3 =
      (text ++ ']' :: '[' :: (path ++ [']'])).length := by
    simp only [List.length_append, List.length_cons, List.length_nil]
    omega
  rw [referenceTo, List.cons_append] at hparts ⊢
  rw [pairs, pairsFrom, hparts]
  simp only [hlength]
  rw [hskip, pairs]

theorem count_referenceTo (text path rest : List Char) :
    2 ≤ (referenceTo text path ++ rest).count ']' := by
  have heq : referenceTo text path ++ rest =
      '[' :: text ++ ']' :: ('[' :: path ++ ']' :: rest) := by simp [referenceTo]
  rw [heq, List.count_append, List.count_cons_self, List.count_append, List.count_cons_self]
  omega

/-- A pair takes two closing brackets. -/
theorem pairs_eq_nil (h : cs.count ']' ≤ 1) : pairs cs = [] := by
  induction cs with
  | nil => rfl
  | cons c cs ih =>
    have hparts : referenceParts? (c :: cs) = none := by
      cases hparts : referenceParts? (c :: cs) with
      | none => rfl
      | some p =>
        obtain ⟨-, -, rest, heq⟩ := referenceParts?_eq_some_iff.mp hparts
        have htwo := count_referenceTo p.1 p.2 rest
        rw [← heq] at htwo
        omega
    rw [pairs_keep hparts]
    exact ih (Nat.le_trans (List.count_le_count_cons) h)

theorem target?_eq_none (h : '\x60' ∈ path) : target? path = none := by
  have hall : (splitChar '.' path).all isIdentifier = false := by
    rw [← Bool.not_eq_true, List.all_eq_true]
    intro hnames
    exact not_mem_of_isPath hnames (by decide) (by decide) h
  rw [target?, hall]
  rfl

theorem cons_isPrefix_rewritten (text path : List Char) : '[' :: text <+: rewritten text path := by
  rw [rewritten]
  cases target? path <;> simp [referenceTo, linkBeside]

/-- A pair that begins before a fence and ends behind it changes nothing up to the fence. -/
theorem reference_across {hit : Hit} (h : reference region = none)
    (hhit : reference (region ++ fence ++ v) = some hit) :
    region ++ fence <+: hit.written ∧ region.count ']' ≤ 1 := by
  obtain ⟨text, path, rest, htext, hpath, heq, rfl⟩ := reference_eq_some_iff.mp hhit
  cases region with
  | nil => simp [fence, referenceTo] at heq
  | cons c cs =>
    obtain ⟨rfl, hrest⟩ : c = '[' ∧
        cs ++ fence ++ v = text ++ ']' :: ('[' :: (path ++ ']' :: rest)) := by
      simpa [referenceTo] using heq
    by_cases hmem : ']' ∈ cs
    · -- the text ends before the fence, so it is the path that goes across
      obtain ⟨front, back, rfl, hfront⟩ := List.eq_append_cons_of_mem hmem
      simp only [List.append_assoc, List.cons_append] at hrest
      obtain ⟨rfl, hback⟩ := append_cons_inj hfront htext hrest
      cases back with
      | nil => simp [fence] at hback
      | cons d back =>
        rw [List.cons_append, ← List.append_assoc] at hback
        obtain ⟨rfl, hinner⟩ := List.cons.inj hback
        have hclose : ']' ∉ back := by
          intro hmem
          obtain ⟨inside, after, rfl, hinside⟩ := List.eq_append_cons_of_mem hmem
          rw [reference_eq_some_iff.mpr
            ⟨front, inside, after, hfront, hinside, by simp [referenceTo], rfl⟩] at h
          cases h
        have hbefore : ']' ∉ back ++ fence := by simp [hclose, fence]
        obtain ⟨more, rfl, -⟩ := exists_eq_append_of_not_mem hbefore hinner
        rw [rewritten, target?_eq_none (by simp [fence])]
        refine ⟨⟨more ++ [']'], by simp [referenceTo]⟩, ?_⟩
        simp [List.count_append, List.count_eq_zero.mpr hfront, List.count_eq_zero.mpr hclose]
    · have hbefore : ']' ∉ cs ++ fence := by simp [hmem, fence]
      obtain ⟨more, rfl, -⟩ := exists_eq_append_of_not_mem hbefore hrest
      refine ⟨.trans ⟨more, by simp⟩ (cons_isPrefix_rewritten _ path), ?_⟩
      simp [List.count_eq_zero.mpr hmem]

theorem reference_eq_none_iff : reference cs = none ↔ referenceParts? cs = none := by
  constructor
  · intro h
    cases hparts : referenceParts? cs with
    | none => rfl
    | some p =>
      obtain ⟨htext, hpath, rest, rfl⟩ := referenceParts?_eq_some_iff.mp hparts
      rw [reference_eq_some_iff.mpr ⟨p.1, p.2, rest, htext, hpath, rfl, rfl⟩] at h
      cases h
  · intro h
    rw [reference, h]
    rfl

theorem reference_fence {w : List Char} (hw : w <:+ fence) (hne : w ≠ []) (v : List Char) :
    reference (w ++ v) = none := by
  obtain ⟨more, rfl⟩ | ⟨front, hfront, rfl⟩ := suffix_fence (u := []) hw hne
  · rfl
  · rw [List.suffix_nil.mp hfront]
    rfl

/-- References leave a text before a fence as it is exactly if no pair in it points to a page. -/
theorem isPrefix_substitute_reference_iff (region v : List Char) :
    region ++ fence <+: substitute reference (region ++ fence ++ v) ↔
      ∀ p ∈ pairs region, target? p.2 = none := by
  refine substitute_induction (motive := fun region _ =>
    region ++ fence <+: substitute reference (region ++ fence ++ v) ↔
      ∀ p ∈ pairs region, target? p.2 = none) fits_reference ?_ ?_ ?_ region
  · rw [List.nil_append, substitute_append_of_none fun w hw hne => reference_fence hw hne v]
    simp [pairs, pairsFrom]
  · intro c cs hnone ih
    cases hacross : reference (c :: cs ++ fence ++ v) with
    | none =>
      rw [List.cons_append, List.cons_append] at hacross
      rw [List.cons_append, List.cons_append, substitute_keep hacross, List.cons_prefix_cons,
        pairs_keep (reference_eq_none_iff.mp hnone), ← ih]
      simp
    | some hit =>
      -- what is found reaches over the fence, and leaves no room for a pair before it
      obtain ⟨hfront, hcount⟩ := reference_across hnone hacross
      obtain ⟨as, rest, has, heq, hhit⟩ := fits_reference.exists_eq_append hacross
      rw [heq, hhit] at hacross
      rw [heq, substitute_hit has hacross, pairs_eq_nil hcount]
      simpa using hfront.trans (List.prefix_append _ _)
  · intro as cs written has hhit ih
    obtain ⟨text, path, htext, hpath, rfl, rfl⟩ := reference_hit hhit
    have hfound : reference (referenceTo text path ++ (cs ++ fence ++ v)) =
        some ⟨(referenceTo text path).length, rewritten text path⟩ :=
      reference_eq_some_iff.mpr ⟨text, path, _, htext, hpath, rfl, rfl⟩
    rw [pairs_reference htext hpath, List.forall_mem_cons, ← ih]
    simp only [List.append_assoc] at hfound ⊢
    rw [substitute_hit has hfound, rewritten]
    cases htarget : target? path with
    | none => simp
    | some page => simp [referenceTo, linkBeside]

end Pairs

section Region

variable {leads : List (List Char)} {region after u v : List Char}

/-- Role marks dropped before backticks, and all else kept. -/
inductive Unmarked : List Char → List Char → Prop
  | nil : Unmarked [] []
  | keep (c : Char) {u v : List Char} (h : Unmarked u v) : Unmarked (c :: u) (c :: v)
  | drop {lead u v : List Char} (hlead : lead ∈ allRoles) (h : Unmarked ('\x60' :: u) v) :
      Unmarked (lead ++ '\x60' :: u) v

theorem Unmarked.append_left (h : Unmarked u v) (as : List Char) :
    Unmarked (as ++ u) (as ++ v) := by
  induction as with
  | nil => exact h
  | cons a as ih => exact .keep a ih

theorem unmarked_roles (h : leads ⊆ allRoles) (cs : List Char) :
    Unmarked cs (substitute (roles leads) cs) := by
  refine substitute_induction (turns_roles h).fits .nil ?_ ?_ cs
  · intro c cs _ ih
    exact .keep c ih
  · intro as cs written _ hhit ih
    obtain ⟨lead, hlead, inner, rfl, rfl⟩ := roles_hit hhit
    have hkept := ih.append_left (inlineCode inner)
    rw [List.append_assoc]
    exact .drop (h hlead) hkept

theorem not_mem_role {c : Char} {lead : List Char} (h : lead ∈ allRoles)
    (hc : isMarkChar c = false) : c ∉ lead :=
  not_mem_mark (List.mem_append_left _ h) hc

theorem Unmarked.mem_iff {c : Char} (hc : isMarkChar c = false) (h : Unmarked u v) :
    c ∈ v ↔ c ∈ u := by
  induction h with
  | nil => rfl
  | keep d h ih => simp [ih]
  | drop hlead h ih =>
    rw [ih, List.mem_append]
    simp [not_mem_role hlead hc]

/-- Role marks taken off code. -/
def unrole (cs : List Char) : List Char :=
  substitute (roles objectRoles) (substitute (roles [dataRole]) cs)

theorem escape_eq_passes (cs : List Char) : escape cs = substitute reference
    (substitute (autolink mailSchemes) (substitute (autolink webSchemes) (unrole cs))) := by
  have hdata : roles [dataRole] = roleCode dataRole := by
    funext ahead
    cases hcode : roleCode dataRole ahead <;> simp [roles, hcode]
  rw [unrole, hdata]
  rfl

theorem data_subset : [dataRole] ⊆ allRoles := by simp [allRoles]

theorem objects_subset : objectRoles ⊆ allRoles := by simp [allRoles]

theorem close_mem_unrole {cs : List Char} : '>' ∈ unrole cs ↔ '>' ∈ cs :=
  ((unmarked_roles objects_subset _).mem_iff (by decide)).trans
    ((unmarked_roles data_subset _).mem_iff (by decide))

/-- A pass that comes first: a text stays at the front if nothing is found that begins in it and
what comes next keeps it there. -/
theorem isPrefix_pass_iff {a b : Char} {find : List Char → Option Hit} (h : Turns a b find)
    (hrank : rank a < rank b) {next : List Char → List Char} (hnext : ∀ cs, Rises cs (next cs)) :
    u <+: next (substitute find (u ++ v)) ↔
      (∀ w, w <:+ u → w ≠ [] → find (w ++ v) = none) ∧ u <+: next (u ++ substitute find v) := by
  have hne : a ≠ b := by
    rintro rfl
    omega
  constructor
  · intro hu
    have hfront := (rises_of_turns h hrank (u ++ v)).isPrefix (hnext _) (List.prefix_append u v) hu
    have hnone := (h.isPrefix_substitute_iff hne).mp hfront
    rw [substitute_append_of_none hnone] at hu
    exact ⟨hnone, hu⟩
  · rintro ⟨hnone, hu⟩
    rw [substitute_append_of_none hnone]
    exact hu

/-- Nothing in a text before a fence is taken for a mark. An address that is left open matters if
it is closed behind the fence, one of mail only by a bracket that no web address takes. -/
structure Untouched (region after : List Char) : Prop where
  roles : ¬HasRole allRoles region
  web : ¬HasAddress webSchemes region after
  mail : ¬HasAddress mailSchemes region (substitute (autolink webSchemes) (unrole after))
  references : ∀ p ∈ pairs region, target? p.2 = none

theorem untouched_iff : region ++ fence <+: escape (region ++ fence ++ after) ↔
    Untouched region after := by
  have hroles {leads : List (List Char)} (h : leads ⊆ allRoles) (cs : List Char) :=
    rises_of_turns (turns_roles h) (by decide) cs
  have hlinks (schemes : List (List Char)) (cs : List Char) :=
    rises_of_turns (turns_autolink schemes) (by decide) cs
  have hsplit : ¬HasRole allRoles region ↔
      ¬HasRole [dataRole] region ∧ ¬HasRole objectRoles region := by
    simp [HasRole, allRoles]
  have hweb : HasAddress webSchemes region (unrole after) ↔ HasAddress webSchemes region after := by
    simp only [HasAddress, close_mem_unrole]
  rw [escape_eq_passes, unrole,
    isPrefix_pass_iff (turns_roles data_subset) (by decide) fun cs =>
      (hroles objects_subset cs).trans
        ((hlinks _ _).trans ((hlinks _ _).trans (rises_reference _))),
    isPrefix_pass_iff (turns_roles objects_subset) (by decide) fun cs =>
      (hlinks _ cs).trans ((hlinks _ _).trans (rises_reference _)),
    isPrefix_pass_iff (turns_autolink _) (by decide) fun cs =>
      (hlinks _ cs).trans (rises_reference _),
    isPrefix_pass_iff (turns_autolink _) (by decide) rises_reference,
    roles_none_iff data_subset, roles_none_iff objects_subset, autolink_none_iff (by simp),
    autolink_none_iff (by simp), isPrefix_substitute_reference_iff, ← unrole, hweb]
  constructor
  · rintro ⟨hdata, hobjects, hweb, hmail, hreferences⟩
    exact ⟨hsplit.mpr ⟨hdata, hobjects⟩, hweb, hmail, hreferences⟩
  · intro h
    obtain ⟨hdata, hobjects⟩ := hsplit.mp h.roles
    exact ⟨hdata, hobjects, h.web, h.mail, h.references⟩

end Region

end DocSite.Mdx
