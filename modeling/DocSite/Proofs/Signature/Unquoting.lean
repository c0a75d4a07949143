import DocSite.Proofs.Signature.Printing
import DocSite.Signature.Layout
import Mathlib.Data.List.Forall2
import Mathlib.Data.List.Infix
import Mathlib.Data.Option.Basic

/-!
Taking the quotes off the types of a printed signature. A pass looks for a colon or an arrow before
a quoted text wherever it stands, so it does what it is meant to only where no such place is inside
a default, a type or a string.
-/

namespace DocSite.Signature

open Text Api

section Passes

variable {lead : List Char} {q c : Char} {as bs as' bs' t rest body blanks : List Char}

theorem quotedAfter_eq_some {hit : Hit} (h : quotedAfter lead q t = some hit) :
    ∃ blanks body rest, t = lead ++ (blanks ++ q :: (body ++ q :: rest)) ∧
      (∀ c ∈ blanks, isBlank c = true) ∧ body ≠ [] ∧ q ∉ body ∧
      hit = ⟨lead.length + blanks.length + body.length + 2, lead ++ ' ' :: body⟩ := by
  rw [quotedAfter] at h
  obtain ⟨ahead, hahead, h⟩ := Option.bind_eq_some_iff.mp h
  obtain ⟨inside, hinside, h⟩ := Option.bind_eq_some_iff.mp h
  rw [drop_takeWhile, afterStart?_eq_some] at hinside
  have hsplit : ahead = ahead.takeWhile isBlank ++ q :: inside := by
    have happend := List.takeWhile_append_dropWhile (p := isBlank) (l := ahead)
    rw [hinside] at happend
    exact happend.symm
  by_cases hmem : q ∈ inside
  · obtain ⟨body, rest, rfl, hbody⟩ := List.eq_append_cons_of_mem hmem
    rw [takeWhile_append_stop hbody] at h
    by_cases hnil : body = []
    · simp [hnil] at h
    · rw [if_neg (by simp [hnil])] at h
      refine ⟨ahead.takeWhile isBlank, body, rest, ?_, List.all_eq_true.mp List.all_takeWhile, hnil,
        hbody, (Option.some.inj h).symm⟩
      rw [← hsplit]
      exact afterStart?_eq_some.mp hahead
  · rw [takeWhile_of_not_mem hmem] at h
    simp at h

theorem quotedAfter_quoted (hq : isBlank q = false) (hblanks : ∀ c ∈ blanks, isBlank c = true)
    (hne : body ≠ []) (hbody : q ∉ body) (lead rest : List Char) :
    quotedAfter lead q (lead ++ (blanks ++ q :: (body ++ q :: rest))) =
      some ⟨lead.length + blanks.length + body.length + 2, lead ++ ' ' :: body⟩ := by
  have hspan : (blanks ++ q :: (body ++ q :: rest)).takeWhile isBlank = blanks := by
    rw [List.takeWhile_append_of_pos hblanks]
    simp [hq]
  have hafter : afterStart? lead (lead ++ (blanks ++ q :: (body ++ q :: rest))) =
      some (blanks ++ q :: (body ++ q :: rest)) := afterStart?_eq_some.mpr rfl
  rw [quotedAfter, hafter]
  simp only [Option.bind_eq_bind, Option.bind_some, hspan, List.drop_left]
  rw [afterStart?_eq_some.mpr (show q :: (body ++ q :: rest) = [q] ++ (body ++ q :: rest) from rfl),
    Option.bind_some, takeWhile_append_stop hbody, if_neg (by simp [hne])]

theorem dropQuotes_cons (h : quotedAfter lead q (c :: t) = none) :
    dropQuotes lead q (c :: t) = c :: dropQuotes lead q t := by
  rw [dropQuotes, substitute, substituteAfter, substituteFrom, h, dropQuotes, substitute,
    substituteAfter, substituteFrom_before]

theorem dropQuotes_cons_of_ne (hlead : lead ≠ []) (hc : lead.head? ≠ some c) :
    dropQuotes lead q (c :: t) = c :: dropQuotes lead q t := by
  apply dropQuotes_cons
  cases hhit : quotedAfter lead q (c :: t) with
  | none => rfl
  | some hit =>
    obtain ⟨blanks, body, after, htext, -⟩ := quotedAfter_eq_some hhit
    obtain ⟨a, lead, rfl⟩ := List.exists_cons_of_ne_nil hlead
    exact absurd (congrArg some (List.cons.inj htext).1.symm) hc

theorem dropQuotes_quoted (hlead : lead ≠ []) (hq : isBlank q = false)
    (hblanks : ∀ c ∈ blanks, isBlank c = true) (hne : body ≠ []) (hbody : q ∉ body)
    (rest : List Char) :
    dropQuotes lead q (lead ++ (blanks ++ q :: (body ++ q :: rest))) =
      lead ++ ' ' :: body ++ dropQuotes lead q rest := by
  obtain ⟨a, as, rfl⟩ := List.exists_cons_of_ne_nil hlead
  have hhit := quotedAfter_quoted hq hblanks hne hbody (a :: as) rest
  have htaken : (a :: as).length + blanks.length + body.length + 2 =
      (as ++ (blanks ++ q :: (body ++ [q]))).length + 1 := by
    simp
    omega
  have htext : as ++ (blanks ++ q :: (body ++ q :: rest)) =
      as ++ (blanks ++ q :: (body ++ [q])) ++ rest := by simp
  rw [htaken, List.cons_append] at hhit
  rw [dropQuotes, substitute, substituteAfter, List.cons_append, substituteFrom, hhit]
  simp only
  obtain ⟨before, hskip⟩ := substituteFrom_skip (fun _ => quotedAfter (a :: as) q)
    (as ++ (blanks ++ q :: (body ++ [q]))) rest (some a)
  rw [htext, hskip, substituteFrom_before _ _ before none]
  rfl

/-- A lead, white space, and something between two quotes. -/
def StartsQuoted (lead : List Char) (q : Char) (t : List Char) : Prop :=
  ∃ blanks body rest, t = lead ++ (blanks ++ q :: (body ++ q :: rest)) ∧
    (∀ c ∈ blanks, isBlank c = true) ∧ body ≠ [] ∧ q ∉ body

/-- A pass either keeps the first character or takes the quotes off what begins there. -/
theorem dropQuotes_induction {motive : List Char → List Char → Prop} (hlead : lead ≠ [])
    (hq : isBlank q = false) (nil : motive [] [])
    (plain : ∀ c t, ¬StartsQuoted lead q (c :: t) → motive t (dropQuotes lead q t) →
      motive (c :: t) (c :: dropQuotes lead q t))
    (quoted : ∀ blanks body rest, (∀ c ∈ blanks, isBlank c = true) → body ≠ [] → q ∉ body →
      motive rest (dropQuotes lead q rest) →
      motive (lead ++ (blanks ++ q :: (body ++ q :: rest)))
        (lead ++ ' ' :: body ++ dropQuotes lead q rest)) (t : List Char) :
    motive t (dropQuotes lead q t) := by
  induction hlength : t.length using Nat.strong_induction_on generalizing t with
  | _ n ih =>
    cases t with
    | nil => exact nil
    | cons c t =>
      cases hhit : quotedAfter lead q (c :: t) with
      | none =>
        rw [dropQuotes_cons hhit]
        refine plain c t ?_ (ih t.length (by simp [← hlength]) t rfl)
        rintro ⟨blanks, body, rest, htext, hblanks, hne, hbody⟩
        rw [htext, quotedAfter_quoted hq hblanks hne hbody] at hhit
        cases hhit
      | some hit =>
        obtain ⟨blanks, body, rest, htext, hblanks, hne, hbody, -⟩ := quotedAfter_eq_some hhit
        have hshort : rest.length < n := by
          rw [← hlength, htext]
          simp
          omega
        rw [htext, dropQuotes_quoted hlead hq hblanks hne hbody]
        exact quoted blanks body rest hblanks hne hbody (ih _ hshort rest rfl)

/-- Where a lead stands before a quote, white space aside, another quote follows at once: there is
nothing between the two. -/
def QuietFor (lead : List Char) (q : Char) (t : List Char) : Prop :=
  ∀ rest more, lead ++ rest <:+ t → rest.dropWhile isBlank = q :: more → more.head? = some q

/-- What follows does not go on with a lead, nor with a quote after one. -/
structure StopsAt (lead : List Char) (q : Char) (rest : List Char) : Prop where
  quote : (rest.dropWhile isBlank).head? ≠ some q
  lead : ∀ c ∈ rest.head?, c ∉ lead.tail

/-- A pass writes one text for another, whatever follows. -/
def Drops (lead : List Char) (q : Char) (as bs : List Char) : Prop :=
  ∀ rest, StopsAt lead q rest → dropQuotes lead q (as ++ rest) = bs ++ dropQuotes lead q rest

theorem StopsAt.append (ha : StopsAt lead q as) (hb : StopsAt lead q bs) :
    StopsAt lead q (as ++ bs) where
  quote := by
    rw [List.dropWhile_append]
    split
    · exact hb.quote
    · rename_i hne
      rw [List.head?_append_of_ne_nil _ (by simpa using hne)]
      exact ha.quote
  lead := by
    cases as with
    | nil => exact hb.lead
    | cons a as => exact ha.lead

theorem Drops.append (ha : Drops lead q as as') (hb : Drops lead q bs bs')
    (hstop : StopsAt lead q bs) : Drops lead q (as ++ bs) (as' ++ bs') := by
  intro rest hrest
  rw [List.append_assoc, ha _ (hstop.append hrest), hb _ hrest, List.append_assoc]

theorem Drops.cons (h : Drops lead q as bs) (hlead : lead ≠ []) (hc : lead.head? ≠ some c) :
    Drops lead q (c :: as) (c :: bs) := by
  intro rest hrest
  rw [List.cons_append, dropQuotes_cons_of_ne hlead hc, h rest hrest, List.cons_append]

theorem Drops.plain (h : Drops lead q bs bs') (hlead : lead ≠ [])
    (ha : ∀ c ∈ as, lead.head? ≠ some c) : Drops lead q (as ++ bs) (as ++ bs') := by
  induction as with
  | nil => exact h
  | cons a as ih =>
    exact (ih fun c hc => ha c (List.mem_cons_of_mem _ hc)).cons hlead (ha a (by simp))

theorem drops_nil : Drops lead q [] [] := fun _ _ => rfl

/-- No hit begins in a quiet text, not even one that ends behind it. -/
theorem QuietFor.quotedAfter_eq_none (hq : isBlank q = false) (h : QuietFor lead q (c :: t))
    (hrest : StopsAt lead q rest) : quotedAfter lead q (c :: (t ++ rest)) = none := by
  cases hhit : quotedAfter lead q (c :: (t ++ rest)) with
  | none => rfl
  | some hit =>
    obtain ⟨blanks, body, after, htext, hblanks, hne, hbody, -⟩ := quotedAfter_eq_some hhit
    have hdrop : (blanks ++ q :: (body ++ q :: after)).dropWhile isBlank =
        q :: (body ++ q :: after) := by
      rw [List.dropWhile_append_of_pos hblanks]
      simp [hq]
    rw [← List.cons_append] at htext
    obtain ⟨as, hlead, rfl⟩ | ⟨bs, hct, hahead⟩ := List.append_eq_append_iff.mp htext
    -- the lead reaches the end of the text or goes beyond it
    · cases as with
      | nil =>
        refine absurd ?_ hrest.quote
        rw [List.nil_append, hdrop, List.head?_cons]
      | cons a as => exact absurd (by simp [hlead]) (hrest.lead a rfl)
    -- the lead is inside, and then so is the quote that is not alone
    · rw [hahead, List.dropWhile_append] at hdrop
      split at hdrop
      · refine absurd ?_ hrest.quote
        rw [hdrop, List.head?_cons]
      · cases hbs : bs.dropWhile isBlank with
        | nil => simp_all
        | cons b more =>
          rw [hbs, List.cons_append] at hdrop
          obtain ⟨rfl, hmore⟩ := List.cons.inj hdrop
          have hpair : more.head? = some b := h bs more (hct ▸ List.suffix_rfl) hbs
          obtain ⟨x, body, rfl⟩ := List.exists_cons_of_ne_nil hne
          cases more with
          | nil => cases hpair
          | cons m more =>
            obtain rfl : m = b := by simpa using hpair
            have hx : m = x := (List.cons.inj hmore).1
            exact absurd (by simp [hx]) hbody

theorem QuietFor.drops (hq : isBlank q = false) (h : QuietFor lead q t) : Drops lead q t t := by
  intro rest hrest
  induction t with
  | nil => rfl
  | cons c t ih =>
    have htail : QuietFor lead q t :=
      fun ahead more hahead => h ahead more (hahead.trans (List.suffix_cons c t))
    rw [List.cons_append, dropQuotes_cons (h.quotedAfter_eq_none hq hrest), ih htail,
      List.cons_append]

theorem drops_quoted (hlead : lead ≠ []) (hq : isBlank q = false) (hne : body ≠ [])
    (hbody : q ∉ body) :
    Drops lead q (lead ++ ' ' :: q :: (body ++ [q])) (lead ++ ' ' :: body) := by
  intro rest _
  have hblanks : ∀ c ∈ [' '], isBlank c = true := by simp [isBlank]
  have hdrop := dropQuotes_quoted hlead hq hblanks hne hbody rest
  simpa using hdrop

end Passes

section Quiet

variable {lead : List Char} {q c : Char} {t u rest : List Char}

/-- What stands before the text of a type. -/
def leads : List (List Char) := [[':'], ['-', '>']]

/-- Nothing for any of the passes to find. -/
def Quiet (t : List Char) : Prop := ∀ lead ∈ leads, ∀ q, isQuote q = true → QuietFor lead q t

theorem Quiet.of_suffix (h : Quiet t) (hu : u <:+ t) : Quiet u :=
  fun lead hlead q hq rest more hrest => h lead hlead q hq rest more (hrest.trans hu)

theorem lead_ne_nil (h : lead ∈ leads) : lead ≠ [] := by
  rintro rfl
  simp [leads] at h

theorem head?_ne (h : lead ∈ leads) (hcolon : c ≠ ':') (hminus : c ≠ '-') :
    lead.head? ≠ some c := by
  obtain rfl | rfl : lead = [':'] ∨ lead = ['-', '>'] := by simpa [leads] using h
  · simpa using Ne.symm hcolon
  · simpa using Ne.symm hminus

theorem not_mem_tail (h : lead ∈ leads) (hc : c ≠ '>') : c ∉ lead.tail := by
  obtain rfl | rfl : lead = [':'] ∨ lead = ['-', '>'] := by simpa [leads] using h
  · simp
  · simpa using hc

theorem stopsAt_nil : StopsAt lead q [] := ⟨by simp, by simp⟩

theorem stopsAt_cons (h : lead ∈ leads) (hblank : isBlank c = false) (hq : c ≠ q) (hc : c ≠ '>')
    (rest : List Char) : StopsAt lead q (c :: rest) where
  quote := by simpa [hblank] using hq
  lead := by simpa using not_mem_tail h hc

theorem StopsAt.blank (h : lead ∈ leads) (hrest : StopsAt lead q rest) :
    StopsAt lead q (' ' :: rest) where
  quote := by
    rw [List.dropWhile_cons_of_pos rfl]
    exact hrest.quote
  lead := by simpa using not_mem_tail h (by decide)

/-- No quoted text stands after the lead at the front of a text. -/
def isQuietAt (lead : List Char) (q : Char) (ahead : List Char) : Bool :=
  match afterStart? lead ahead with
  | none => true
  | some rest =>
    match rest.dropWhile isBlank with
    | [] => true
    | c :: more => c ≠ q || more.head? = some q

theorem isQuietAt_iff : isQuietAt lead q t = true ↔
    ∀ rest, t = lead ++ rest → ∀ more, rest.dropWhile isBlank = q :: more →
      more.head? = some q := by
  unfold isQuietAt
  cases hstart : afterStart? lead t with
  | none =>
    refine iff_of_true rfl fun rest ht => ?_
    rw [afterStart?_eq_some.mpr ht] at hstart
    cases hstart
  | some rest =>
    obtain rfl := afterStart?_eq_some.mp hstart
    cases hdrop : rest.dropWhile isBlank with
    | nil => simp [hdrop]
    | cons c more =>
      by_cases hc : c = q <;> simp [hdrop, hc]

theorem quiet_iff : Quiet t ↔ (t.tails.all fun ahead => leads.all fun lead =>
    isQuietAt lead '\x22' ahead && isQuietAt lead '\x27' ahead) = true := by
  simp only [List.all_eq_true, List.mem_tails, Bool.and_eq_true, isQuietAt_iff]
  constructor
  · intro h ahead hahead lead hlead
    exact ⟨fun rest heq more => h lead hlead _ rfl rest more (heq ▸ hahead),
      fun rest heq more => h lead hlead _ rfl rest more (heq ▸ hahead)⟩
  · intro h lead hlead q hq rest more hrest
    obtain rfl | rfl : q = '\x22' ∨ q = '\x27' := by simpa [isQuote] using hq
    · exact (h _ hrest lead hlead).1 rest rfl more
    · exact (h _ hrest lead hlead).2 rest rfl more

instance (t : List Char) : Decidable (Quiet t) := decidable_of_iff _ quiet_iff.symm

/-- The text of a type that is quiet after a colon is so after an arrow. -/
theorem Quiet.after (h : Quiet (':' :: ' ' :: t)) (hlead : lead ∈ leads) (hq : isQuote q = true) :
    QuietFor lead q (lead ++ ' ' :: t) := by
  obtain rfl | rfl : lead = [':'] ∨ lead = ['-', '>'] := by simpa [leads] using hlead
  · exact h _ hlead q hq
  · intro rest more hrest hmore
    simp only [List.cons_append, List.nil_append, List.suffix_cons_iff, List.cons.injEq, true_and]
      at hrest
    obtain rfl | hrest | hrest | hrest := hrest
    · exact h [':'] (by simp [leads]) q hq (' ' :: t) more List.suffix_rfl hmore
    · simp at hrest
    · simp at hrest
    · refine h _ hlead q hq rest more (hrest.trans ?_) hmore
      exact (List.suffix_cons ' ' t).trans (List.suffix_cons ':' _)

end Quiet

section Changes

variable {lead : List Char} {q c : Char} {t : List Char}

/-- A quoted text stands after the lead somewhere. -/
def FindsQuoted (lead : List Char) (q : Char) (t : List Char) : Prop :=
  ∃ ahead, ahead <:+ t ∧ StartsQuoted lead q ahead

/-- A quoted text stands after one of the leads. -/
def HasQuoted (t : List Char) : Prop := ∃ lead ∈ leads, ∃ q, isQuote q = true ∧ FindsQuoted lead q t

theorem findsQuoted_cons :
    FindsQuoted lead q (c :: t) ↔ StartsQuoted lead q (c :: t) ∨ FindsQuoted lead q t := by
  simp only [FindsQuoted, List.suffix_cons_iff, or_and_right, exists_or, exists_eq_left]

/-- A pass with nothing to find changes nothing; any other leaves fewer quotes. -/
theorem dropQuotes_cases (hlead : lead ∈ leads) (hq : isQuote q = true) (t : List Char) :
    (¬FindsQuoted lead q t ∧ dropQuotes lead q t = t) ∨
      (FindsQuoted lead q t ∧ (dropQuotes lead q t).countP isQuote < t.countP isQuote) := by
  apply dropQuotes_induction (motive := fun t u => (¬FindsQuoted lead q t ∧ u = t) ∨
    (FindsQuoted lead q t ∧ u.countP isQuote < t.countP isQuote))
    (lead_ne_nil hlead) (isBlank_of_isQuote hq)
  · refine .inl ⟨?_, rfl⟩
    rintro ⟨ahead, hahead, blanks, body, rest, htext, -⟩
    rw [List.suffix_nil.mp hahead] at htext
    simp at htext
  · intro c t hnone ih
    obtain ⟨hnever, hsame⟩ | ⟨hfinds, hfewer⟩ := ih
    · exact .inl ⟨findsQuoted_cons.not.mpr (not_or.mpr ⟨hnone, hnever⟩), by rw [hsame]⟩
    · refine .inr ⟨findsQuoted_cons.mpr (.inr hfinds), ?_⟩
      rw [List.countP_cons, List.countP_cons]
      omega
  · intro blanks body rest hblanks hne hbody ih
    have hle : (dropQuotes lead q rest).countP isQuote ≤ rest.countP isQuote := by
      obtain ⟨-, hsame⟩ | ⟨-, hfewer⟩ := ih
      · rw [hsame]
      · exact hfewer.le
    refine .inr ⟨⟨_, List.suffix_rfl, blanks, body, rest, rfl, hblanks, hne, hbody⟩, ?_⟩
    have hspace : (' ' :: body).countP isQuote = body.countP isQuote := rfl
    simp only [List.countP_append, List.countP_cons_of_pos hq, hspace]
    omega

/-- The passes over a signature in their order. -/
def passes : List (List Char × Char) :=
  [([':'], '\x22'), ([':'], '\x27'), (['-', '>'], '\x22'), (['-', '>'], '\x27')]

theorem mem_passes : (lead, q) ∈ passes ↔ lead ∈ leads ∧ isQuote q = true := by
  simp only [passes, leads, isQuote, List.mem_cons, List.not_mem_nil, or_false, Prod.mk.injEq,
    Bool.or_eq_true, decide_eq_true_eq]
  tauto

theorem foldl_dropQuotes_cases {ps : List (List Char × Char)}
    (h : ∀ pass ∈ ps, pass.1 ∈ leads ∧ isQuote pass.2 = true) (t : List Char) :
    ((∀ pass ∈ ps, ¬FindsQuoted pass.1 pass.2 t) ∧
      ps.foldl (fun t pass => dropQuotes pass.1 pass.2 t) t = t) ∨
    ((∃ pass ∈ ps, FindsQuoted pass.1 pass.2 t) ∧
      (ps.foldl (fun t pass => dropQuotes pass.1 pass.2 t) t).countP isQuote <
        t.countP isQuote) := by
  induction ps generalizing t with
  | nil => simp
  | cons pass ps ih =>
    obtain ⟨hlead, hq⟩ := h pass List.mem_cons_self
    have hps := ih fun x hx => h x (List.mem_cons_of_mem pass hx)
    rw [List.foldl_cons]
    obtain ⟨hnone, hsame⟩ | ⟨hfinds, hfewer⟩ := dropQuotes_cases hlead hq t
    · rw [hsame]
      obtain ⟨hnever, hfold⟩ | ⟨⟨later, hlater, hfinds⟩, hfold⟩ := hps t
      · exact .inl ⟨List.forall_mem_cons.mpr ⟨hnone, hnever⟩, hfold⟩
      · exact .inr ⟨⟨later, List.mem_cons_of_mem pass hlater, hfinds⟩, hfold⟩
    · refine .inr ⟨⟨pass, List.mem_cons_self, hfinds⟩, ?_⟩
      obtain ⟨-, hfold⟩ | ⟨-, hfold⟩ := hps (dropQuotes pass.1 pass.2 t)
      · rwa [hfold]
      · exact hfold.trans hfewer

/-- A text comes back as it is exactly if there are no quotes to take off. -/
theorem unquoteTypes_eq_self_iff (t : List Char) : unquoteTypes t = t ↔ ¬HasQuoted t := by
  have hfold : unquoteTypes t = passes.foldl (fun t pass => dropQuotes pass.1 pass.2 t) t := rfl
  rw [hfold]
  obtain ⟨hnever, hsame⟩ | ⟨⟨pass, hpass, hfinds⟩, hfewer⟩ :=
    foldl_dropQuotes_cases (fun pass hpass => mem_passes.mp hpass) t
  · refine iff_of_true hsame ?_
    rintro ⟨lead, hlead, q, hq, hfinds⟩
    exact hnever (lead, q) (mem_passes.mpr ⟨hlead, hq⟩) hfinds
  · refine iff_of_false (fun hsame => ?_) (not_not_intro ?_)
    · rw [hsame] at hfewer
      exact Nat.lt_irrefl _ hfewer
    · obtain ⟨hlead, hq⟩ := mem_passes.mp hpass
      exact ⟨pass.1, hlead, pass.2, hq, hfinds⟩

end Changes

section Notes

variable {lead : List Char} {q : Char} {s : String} {a : TypeNote}

/-- What is written between the quotes of a string. -/
def bodyOf (s : String) : List Char :=
  s.toList.flatMap (Literal.escapeChar (Literal.quoteFor s.toList))

/-- The type that is shown as the text of a string. -/
def typeOf (s : String) : TypeNote := .type ⟨s, String.ofList (bodyOf s), none, none⟩

/-- A string as a type, without quotes if they are of the given kind. Those of an empty string
stay. -/
def bareNote (q : Char) : TypeNote → TypeNote
  | .text s => if Literal.quoteFor s.toList = q ∧ s ≠ "" then typeOf s else .text s
  | a => a

/-- A string as a type, without its quotes unless it is empty. -/
def plainNote : TypeNote → TypeNote
  | .text s => if s = "" then .text s else typeOf s
  | a => a

/-- A type whose text has nothing for a pass to find but the quotes around it. A string must not
have these quotes inside, escaped. -/
def CalmNote : TypeNote → Prop
  | .none => True
  | .text s => Literal.quoteFor s.toList ∉ s.toList ∧ Quiet (':' :: ' ' :: bodyOf s)
  | .type t => Quiet (':' :: ' ' :: t.inSignature.toList)

theorem quoted_eq (s : String) : Literal.quoted s.toList =
    Literal.quoteFor s.toList :: (bodyOf s ++ [Literal.quoteFor s.toList]) := rfl

theorem escapeChar_ne_nil (q c : Char) : Literal.escapeChar q c ≠ [] := by
  by_cases hself : c = q ∨ c = '\\'
  · simp [escapeChar_self hself]
  · obtain ⟨hq, hc⟩ := not_or.mp hself
    obtain hescape | ⟨letter, digits, hescape, -⟩ := escapeChar_cases hq hc <;> simp [hescape]

theorem bodyOf_ne_nil (h : s ≠ "") : bodyOf s ≠ [] := by
  obtain ⟨c, cs, hcs⟩ := List.exists_cons_of_ne_nil (mt String.toList_eq_nil_iff.mp h)
  intro hnil
  rw [bodyOf, List.flatMap_eq_nil_iff] at hnil
  exact escapeChar_ne_nil _ c (hnil c (by simp [hcs]))

theorem quoteFor_not_mem_bodyOf (h : Literal.quoteFor s.toList ∉ s.toList) :
    Literal.quoteFor s.toList ∉ bodyOf s := by
  intro hmem
  obtain ⟨c, hc, hescape⟩ := List.mem_flatMap.mp hmem
  exact not_mem_escapeChar (isQuote_quoteFor _) (ne_of_mem_of_not_mem hc h) hescape

theorem quoteFor_cases (cs : List Char) :
    Literal.quoteFor cs = '\x22' ∨ Literal.quoteFor cs = '\x27' := by
  unfold Literal.quoteFor
  split
  · exact .inl rfl
  · exact .inr rfl

theorem bareNote_bareNote (a : TypeNote) :
    bareNote '\x27' (bareNote '\x22' a) = plainNote a := by
  cases a with
  | none => rfl
  | type t => rfl
  | text s =>
    by_cases hs : s = ""
    · simp [bareNote, plainNote, hs]
    · obtain hquote | hquote := quoteFor_cases s.toList
      · simp [bareNote, plainNote, hs, hquote, typeOf]
      · simp [bareNote, plainNote, hs, hquote, typeOf]

theorem bareNote_text (h : Literal.quoteFor s.toList = q) (hs : s ≠ "") :
    bareNote q (.text s) = typeOf s := if_pos ⟨h, hs⟩

theorem bareNote_text_of_not (h : ¬(Literal.quoteFor s.toList = q ∧ s ≠ "")) :
    bareNote q (.text s) = .text s := if_neg h

theorem inSignature_typeOf (s : String) : (typeOf s).inSignature.toList = bodyOf s :=
  String.toList_ofList

theorem CalmNote.bare (h : CalmNote a) (q : Char) : CalmNote (bareNote q a) := by
  cases a with
  | none => trivial
  | type t => exact h
  | text s =>
    by_cases hs : Literal.quoteFor s.toList = q ∧ s ≠ ""
    · rw [bareNote_text hs.1 hs.2]
      show Quiet (':' :: ' ' :: (typeOf s).inSignature.toList)
      rw [inSignature_typeOf]
      exact h.2
    · rwa [bareNote_text_of_not hs]

/-- A type after its lead, before and after a pass. -/
theorem CalmNote.drops (h : CalmNote a) (hlead : lead ∈ leads) (hq : isQuote q = true) :
    Drops lead q (lead ++ ' ' :: a.inSignature.toList)
      (lead ++ ' ' :: (bareNote q a).inSignature.toList) := by
  have hblank := isBlank_of_isQuote hq
  cases a with
  | none =>
    have hnone : Quiet (':' :: ' ' :: "None".toList) := by decide
    exact (hnone.after hlead hq).drops hblank
  | type t => exact (Quiet.after h hlead hq).drops hblank
  | text s =>
    by_cases hempty : s = ""
    · have hquiet : Quiet (':' :: ' ' :: Literal.quoted []) := by decide
      rw [bareNote_text_of_not fun hs => hs.2 hempty, inSignature_text, hempty]
      exact (hquiet.after hlead hq).drops hblank
    by_cases hown : Literal.quoteFor s.toList = q
    · rw [bareNote_text hown hempty, inSignature_typeOf, inSignature_text, quoted_eq, hown]
      exact drops_quoted (lead_ne_nil hlead) hblank (bodyOf_ne_nil hempty)
        (hown ▸ quoteFor_not_mem_bodyOf h.1)
    -- the quotes are of the other kind, and end what comes before them
    · rw [bareNote_text_of_not fun hs => hown hs.1, inSignature_text, quoted_eq]
      have hquote := isQuote_quoteFor s.toList
      generalize Literal.quoteFor s.toList = other at hown hquote
      have hhead : lead.head? ≠ some other :=
        head?_ne hlead (isQuote_ne hquote rfl) (isQuote_ne hquote rfl)
      have hstop (more : List Char) : StopsAt lead q (other :: more) :=
        stopsAt_cons hlead (isBlank_of_isQuote hquote) hown (isQuote_ne hquote rfl) more
      have hbody : Drops lead q (bodyOf s) (bodyOf s) :=
        (h.2.of_suffix ((List.suffix_cons ' ' _).trans (List.suffix_cons ':' _)) _ hlead q hq).drops
          hblank
      have hquoted := (hbody.append (drops_nil.cons (lead_ne_nil hlead) hhead) (hstop [])).cons
        (lead_ne_nil hlead) hhead
      have hfront : Drops lead q (lead ++ [' ']) (lead ++ [' ']) :=
        (Quiet.after (t := []) (by decide) hlead hq).drops hblank
      simpa using hfront.append hquoted (hstop _)

end Notes

section Prototypes

variable {lead : List Char} {q : Char} {f g : TypeNote → TypeNote} {x : Parameter} {p : Prototype}
  {ts us : List (List Char)}

/-- A parameter with another type. -/
def reNote (f : TypeNote → TypeNote) (x : Parameter) : Parameter :=
  { x with note? := x.note?.map f }

/-- A prototype with other types for its parameters and its result. -/
def reNotes (f g : TypeNote → TypeNote) (p : Prototype) : Prototype :=
  ⟨p.params.map (reNote f), p.returns?.map g⟩

/-- A parameter that gives a pass nothing to find in its default. -/
structure HasCalmDefault (x : Parameter) : Prop where
  name : isIdentifier x.name.toList = true
  default : ∀ v ∈ x.default?, Quiet v.code

theorem head?_ne_of_mem_name (hlead : lead ∈ leads) (h : HasCalmDefault x) :
    ∀ c ∈ Parameter.marks x.kind ++ x.name.toList, lead.head? ≠ some c := by
  intro c hc
  obtain hc | hc := List.mem_append.mp hc
  · rw [eq_star_of_mem_marks hc]
    exact head?_ne hlead (by decide) (by decide)
  · apply head?_ne hlead
    · rintro rfl
      exact not_mem_of_isIdentifier rfl h.name hc
    · rintro rfl
      exact not_mem_of_isIdentifier rfl h.name hc

theorem head?_ne_of_mem_equals (hlead : lead ∈ leads) (x : Parameter) :
    ∀ c ∈ equalsOf x, lead.head? ≠ some c := by
  intro c hc
  obtain rfl | rfl : c = ' ' ∨ c = '=' := by
    unfold equalsOf at hc
    split at hc <;> simp at hc <;> tauto
  · exact head?_ne hlead (by decide) (by decide)
  · exact head?_ne hlead (by decide) (by decide)

theorem stopsAt_equals (hlead : lead ∈ leads) (hq : isQuote q = true) (x : Parameter)
    (more : List Char) : StopsAt lead q (equalsOf x ++ more) := by
  have hequals (rest : List Char) : StopsAt lead q ('=' :: rest) :=
    stopsAt_cons hlead rfl (isQuote_ne hq rfl).symm (by decide) rest
  unfold equalsOf
  split
  · exact (hequals _).blank hlead
  · exact hequals _

/-- What a pass does to the type, it does to the parameter. -/
theorem HasCalmDefault.drops (h : HasCalmDefault x) (hlead : lead ∈ leads) (hq : isQuote q = true)
    (hnote : ∀ a ∈ x.note?, Drops lead q (':' :: ' ' :: a.inSignature.toList)
      (':' :: ' ' :: (f a).inSignature.toList)) : Drops lead q x.code (reNote f x).code := by
  have hfront : Drops lead q (leadOf x) (leadOf (reNote f x)) := by
    unfold leadOf reNote
    cases hx : x.note? with
    | none => simpa using drops_nil.plain (lead_ne_nil hlead) (head?_ne_of_mem_name hlead h)
    | some a => exact (hnote a hx).plain (lead_ne_nil hlead) (head?_ne_of_mem_name hlead h)
  have hequals : equalsOf (reNote f x) = equalsOf x := by simp [equalsOf, reNote]
  rw [code_eq, code_eq, hequals]
  unfold reNote
  cases hx : x.default? with
  | none => exact hfront.append drops_nil stopsAt_nil
  | some v =>
    have hdefault := (h.default v hx lead hlead q hq).drops (isBlank_of_isQuote hq)
    exact hfront.append (hdefault.plain (lead_ne_nil hlead) (head?_ne_of_mem_equals hlead x))
      (stopsAt_equals hlead hq x _)

theorem drops_slash (hlead : lead ∈ leads) (inPositional : Bool) :
    List.Forall₂ (Drops lead q) (Prototype.entriesFrom.slash inPositional)
      (Prototype.entriesFrom.slash inPositional) := by
  cases inPositional with
  | false => exact .nil
  | true =>
    exact .cons (drops_nil.cons (lead_ne_nil hlead) (head?_ne hlead (by decide) (by decide))) .nil

theorem drops_entries (hlead : lead ∈ leads) {ps : List Parameter}
    (h : ∀ x ∈ ps, Drops lead q x.code (reNote f x).code) (inPositional starred : Bool) :
    List.Forall₂ (Drops lead q) (Prototype.entriesFrom inPositional starred ps)
      (Prototype.entriesFrom inPositional starred (ps.map (reNote f))) := by
  induction ps generalizing inPositional starred with
  | nil => exact drops_slash hlead inPositional
  | cons x ps ih =>
    have hx := h x List.mem_cons_self
    have hps := ih fun y hy => h y (List.mem_cons_of_mem x hy)
    have hslash := drops_slash (q := q) hlead inPositional
    have hstar : List.Forall₂ (Drops lead q) (if starred then [] else [['*']])
        (if starred then [] else [['*']]) := by
      split
      · exact .nil
      · exact .cons (drops_nil.cons (lead_ne_nil hlead) (head?_ne hlead (by decide) (by decide)))
          .nil
    have hkind : (reNote f x).kind = x.kind := rfl
    rw [List.map_cons, Prototype.entriesFrom, Prototype.entriesFrom, hkind]
    cases x.kind with
    | positional => exact .cons hx (hps _ _)
    | standard => exact List.rel_append hslash (.cons hx (hps _ _))
    | rest => exact List.rel_append hslash (.cons hx (hps _ _))
    | keyword => exact List.rel_append (List.rel_append hslash hstar) (.cons hx (hps _ _))
    | restKeyword => exact List.rel_append hslash (.cons hx (hps _ _))

theorem drops_intercalate (hlead : lead ∈ leads) (hq : isQuote q = true)
    (h : List.Forall₂ (Drops lead q) ts us) :
    Drops lead q (", ".toList.intercalate ts) (", ".toList.intercalate us) := by
  induction h with
  | nil => exact drops_nil
  | @cons t u ts us htu hrest ih =>
    cases hrest with
    | nil => simpa using htu
    | cons _ _ =>
      rw [List.intercalate_cons_cons, List.intercalate_cons_cons, List.append_assoc,
        List.append_assoc]
      refine htu.append (ih.plain (lead_ne_nil hlead) ?_)
        (stopsAt_cons hlead rfl (isQuote_ne hq rfl).symm (by decide) _)
      intro c hc
      obtain rfl | rfl : c = ',' ∨ c = ' ' := by simpa using hc
      · exact head?_ne hlead (by decide) (by decide)
      · exact head?_ne hlead (by decide) (by decide)

/-- The types are all that a pass changes, if that holds of the single types. -/
theorem dropQuotes_code (hlead : lead ∈ leads) (hq : isQuote q = true)
    (hparams : ∀ x ∈ p.params, HasCalmDefault x)
    (hnotes : ∀ x ∈ p.params, ∀ a ∈ x.note?, Drops lead q (':' :: ' ' :: a.inSignature.toList)
      (':' :: ' ' :: (f a).inSignature.toList))
    (hreturns : ∀ a ∈ p.returns?, Drops lead q (" -> ".toList ++ a.inSignature.toList)
      (" -> ".toList ++ (g a).inSignature.toList)) :
    dropQuotes lead q p.code = (reNotes f g p).code := by
  have hentries := drops_intercalate hlead hq (drops_entries hlead
    (fun x hx => (hparams x hx).drops hlead hq (hnotes x hx)) false false)
  have hopen : lead.head? ≠ some '(' := head?_ne hlead (by decide) (by decide)
  have hclose : lead.head? ≠ some ')' := head?_ne hlead (by decide) (by decide)
  have hstop (more : List Char) : StopsAt lead q (')' :: more) :=
    stopsAt_cons hlead rfl (isQuote_ne hq rfl).symm (by decide) more
  have hlist := (hentries.append (drops_nil.cons (lead_ne_nil hlead) hclose) (hstop [])).cons
    (lead_ne_nil hlead) hopen
  have hcode : Drops lead q p.code (reNotes f g p).code := by
    unfold Prototype.code reNotes
    cases hresult : p.returns? with
    | none => exact hlist.append drops_nil stopsAt_nil
    | some a =>
      have harrow : StopsAt lead q ('-' :: '>' :: ' ' :: a.inSignature.toList) :=
        stopsAt_cons hlead rfl (isQuote_ne hq rfl).symm (by decide) _
      exact hlist.append (hreturns a hresult) (harrow.blank hlead)
  have hdrop := hcode [] stopsAt_nil
  rwa [List.append_nil, show dropQuotes lead q [] = [] from rfl, List.append_nil] at hdrop

theorem dropQuotes_colon (hq : isQuote q = true) (hparams : ∀ x ∈ p.params, HasCalmDefault x)
    (hnotes : ∀ x ∈ p.params, ∀ a ∈ x.note?, CalmNote a)
    (hreturns : ∀ a ∈ p.returns?, Quiet a.inSignature.toList) :
    dropQuotes [':'] q p.code = (reNotes (bareNote q) id p).code := by
  have hlead : [':'] ∈ leads := by simp [leads]
  apply dropQuotes_code hlead hq hparams
  · exact fun x hx a ha => (hnotes x hx a ha).drops hlead hq
  · intro a ha
    have hcolon : ':' ∉ " -> ".toList := by decide
    apply ((hreturns a ha _ hlead q hq).drops (isBlank_of_isQuote hq)).plain (lead_ne_nil hlead)
    rintro c hc heq
    exact hcolon (Option.some.inj heq ▸ hc)

theorem dropQuotes_arrow (hq : isQuote q = true) (hparams : ∀ x ∈ p.params, HasCalmDefault x)
    (hnotes : ∀ x ∈ p.params, ∀ a ∈ x.note?, Quiet (':' :: ' ' :: a.inSignature.toList))
    (hreturns : ∀ a ∈ p.returns?, CalmNote a) :
    dropQuotes ['-', '>'] q p.code = (reNotes id (bareNote q) p).code := by
  have hlead : ['-', '>'] ∈ leads := by simp [leads]
  apply dropQuotes_code hlead hq hparams
  · exact fun x hx a ha => (hnotes x hx a ha _ hlead q hq).drops (isBlank_of_isQuote hq)
  · intro a ha
    exact ((hreturns a ha).drops hlead hq).cons (lead_ne_nil hlead) (by decide)

theorem CalmNote.quiet_plainNote {a : TypeNote} (h : CalmNote a) :
    Quiet (':' :: ' ' :: (plainNote a).inSignature.toList) := by
  cases a with
  | none => decide
  | type t => exact h
  | text s =>
    by_cases hs : s = ""
    · rw [plainNote, if_pos hs, hs]
      decide
    · rw [plainNote, if_neg hs, inSignature_typeOf]
      exact h.2

/-- A signature that gives the passes nothing to find but the quotes around its types. -/
structure IsCalm (p : Prototype) : Prop where
  params : ∀ x ∈ p.params, HasCalmDefault x
  notes : ∀ x ∈ p.params, ∀ a ∈ x.note?, CalmNote a
  returns : ∀ a ∈ p.returns?, CalmNote a ∧ Quiet a.inSignature.toList

theorem reNotes_reNotes (f g f' g' : TypeNote → TypeNote) (p : Prototype) :
    reNotes f g (reNotes f' g' p) = reNotes (f ∘ f') (g ∘ g') p := by
  simp [reNotes, reNote, Function.comp_def]

theorem params_reNotes_id (g : TypeNote → TypeNote) (p : Prototype) :
    (reNotes id g p).params = p.params := by
  have hid : reNote id = id := funext fun x => by simp [reNote]
  simp [reNotes, hid]

theorem hasCalmDefault_reNotes (h : ∀ x ∈ p.params, HasCalmDefault x) :
    ∀ x ∈ (reNotes f g p).params, HasCalmDefault x :=
  List.forall_mem_map.mpr fun x hx => ⟨(h x hx).name, (h x hx).default⟩

theorem forall_note_reNotes {P : TypeNote → Prop}
    (h : ∀ x ∈ p.params, ∀ a ∈ x.note?, P (f a)) :
    ∀ x ∈ (reNotes f g p).params, ∀ a ∈ x.note?, P a :=
  List.forall_mem_map.mpr fun x hx => Option.forall_mem_map.mpr (h x hx)

theorem bareNotes : bareNote '\x27' ∘ bareNote '\x22' = plainNote := funext bareNote_bareNote

theorem dropQuotes_colons (hparams : ∀ x ∈ p.params, HasCalmDefault x)
    (hnotes : ∀ x ∈ p.params, ∀ a ∈ x.note?, CalmNote a)
    (hreturns : ∀ a ∈ p.returns?, Quiet a.inSignature.toList) :
    dropQuotes [':'] '\x27' (dropQuotes [':'] '\x22' p.code) = (reNotes plainNote id p).code := by
  have hreturns' : ∀ a ∈ (reNotes (bareNote '\x22') id p).returns?, Quiet a.inSignature.toList :=
    Option.forall_mem_map.mpr hreturns
  rw [dropQuotes_colon rfl hparams hnotes hreturns,
    dropQuotes_colon rfl (hasCalmDefault_reNotes hparams)
      (forall_note_reNotes fun x hx a ha => (hnotes x hx a ha).bare _) hreturns',
    reNotes_reNotes, bareNotes, Function.comp_id]

theorem dropQuotes_arrows (hparams : ∀ x ∈ p.params, HasCalmDefault x)
    (hnotes : ∀ x ∈ p.params, ∀ a ∈ x.note?, Quiet (':' :: ' ' :: a.inSignature.toList))
    (hreturns : ∀ a ∈ p.returns?, CalmNote a) :
    dropQuotes ['-', '>'] '\x27' (dropQuotes ['-', '>'] '\x22' p.code) =
      (reNotes id plainNote p).code := by
  have hreturns' : ∀ a ∈ (reNotes id (bareNote '\x22') p).returns?, CalmNote a :=
    Option.forall_mem_map.mpr fun a ha => (hreturns a ha).bare _
  rw [dropQuotes_arrow rfl hparams hnotes hreturns,
    dropQuotes_arrow rfl (by rwa [params_reNotes_id]) (by rwa [params_reNotes_id]) hreturns',
    reNotes_reNotes, bareNotes, Function.comp_id]

theorem IsCalm.unquoteTypes_code (h : IsCalm p) :
    unquoteTypes p.code = (reNotes plainNote plainNote p).code := by
  have hreturns : ∀ a ∈ (reNotes plainNote id p).returns?, CalmNote a :=
    Option.forall_mem_map.mpr fun a ha => (h.returns a ha).1
  rw [unquoteTypes, dropQuotes_colons h.params h.notes fun a ha => (h.returns a ha).2,
    dropQuotes_arrows (hasCalmDefault_reNotes h.params)
      (forall_note_reNotes fun x hx a ha => (h.notes x hx a ha).quiet_plainNote) hreturns,
    reNotes_reNotes, Function.id_comp, Function.comp_id]

theorem code_mem_entriesFrom {ps : List Parameter} (hx : x ∈ ps) (inPositional starred : Bool) :
    x.code ∈ Prototype.entriesFrom inPositional starred ps := by
  induction ps generalizing inPositional starred with
  | nil => cases hx
  | cons y ps ih =>
    rw [Prototype.entriesFrom]
    obtain rfl | hx := List.mem_cons.mp hx
    · cases x.kind <;> simp
    · cases y.kind <;> simp [ih hx]

/-- Each default stands in the text of the signature. -/
theorem default_infix_code (hx : x ∈ p.params) {v : Literal} (hv : v ∈ x.default?) :
    v.code <:+: p.code := by
  have hdefault : v.code <:+: x.code := by
    rw [code_eq, Option.mem_def.mp hv]
    exact ((List.suffix_append _ _).trans (List.suffix_append _ _)).isInfix
  have hentries := infix_intercalate ", ".toList (code_mem_entriesFrom hx false false)
  have hcode : ", ".toList.intercalate p.entries <:+: p.code := by
    unfold Prototype.code
    rw [List.append_assoc, List.cons_append]
    exact (List.prefix_append _ _).isInfix.trans (List.suffix_cons _ _).isInfix
  exact (hdefault.trans hentries).trans hcode

/-- A signature whose types alone have quotes to take off keeps its defaults, and loses these
quotes only. Any other quoted text after a colon or an arrow is changed too: without string types,
the text stays as it is exactly if there is none. -/
theorem unquoteTypes_keeps_defaults (p : Prototype) :
    (IsCalm p → unquoteTypes p.code = (reNotes plainNote plainNote p).code ∧
      ∀ x ∈ p.params, ∀ v ∈ x.default?, v.code <:+: unquoteTypes p.code) ∧
    (unquoteTypes p.code = p.code ↔ ¬HasQuoted p.code) := by
  refine ⟨fun h => ⟨h.unquoteTypes_code, fun x hx v hv => ?_⟩, unquoteTypes_eq_self_iff p.code⟩
  rw [h.unquoteTypes_code]
  have hmem : reNote plainNote x ∈ (reNotes plainNote plainNote p).params := List.mem_map_of_mem hx
  exact default_infix_code hmem hv

instance (a : TypeNote) : Decidable (CalmNote a) :=
  match a with
  | .none => .isTrue trivial
  | .text s => inferInstanceAs
      (Decidable (Literal.quoteFor s.toList ∉ s.toList ∧ Quiet (':' :: ' ' :: bodyOf s)))
  | .type t => inferInstanceAs (Decidable (Quiet (':' :: ' ' :: t.inSignature.toList)))

instance (x : Parameter) : Decidable (HasCalmDefault x) :=
  decidable_of_iff (isIdentifier x.name.toList = true ∧ ∀ v ∈ x.default?, Quiet v.code)
    ⟨fun h => ⟨h.1, h.2⟩, fun h => ⟨h.name, h.default⟩⟩

/-- String types with both kinds of quotes, and defaults with colons and quotes. -/
def quotedPrototype : Prototype :=
  ⟨[⟨"table", .standard, some (.text "Table"), none⟩,
    ⟨"mode", .standard, some (.text "Literal['a', 'b']"), some (.str "a: b")⟩,
    ⟨"options", .keyword, none, some (.dict [(.str "k", .list [.str "a -> b", .int 1])])⟩],
    some (.text "int")⟩

theorem unquoteTypes_keeps_defaults_quoted : IsCalm quotedPrototype ∧
    quotedPrototype.code = ("(table: 'Table', mode: \"Literal['a', 'b']\" = 'a: b', *, " ++
      "options=\x7b'k': ['a -> b', 1]\x7d) -> 'int'").toList ∧
    unquoteTypes quotedPrototype.code = (reNotes plainNote plainNote quotedPrototype).code ∧
    (reNotes plainNote plainNote quotedPrototype).code =
      ("(table: Table, mode: Literal['a', 'b'] = 'a: b', *, " ++
        "options=\x7b'k': ['a -> b', 1]\x7d) -> int").toList := by
  have hcalm : IsCalm quotedPrototype := ⟨by decide +kernel, by decide +kernel, by decide +kernel⟩
  refine ⟨hcalm, ?_, ((unquoteTypes_keeps_defaults quotedPrototype).1 hcalm).1, ?_⟩
  · rw [toList_append_ofList]
    decide +kernel
  · rw [toList_append_ofList]
    decide +kernel

/-- A string in a dictionary loses its quotes. -/
theorem unquoteTypes_changes_default :
    let v : Literal := .dict [(.str "a", .str "b")]
    let p : Prototype := ⟨[⟨"x", .standard, none, some v⟩], none⟩
    p.code = "(x=\x7b'a': 'b'\x7d)".toList ∧ unquoteTypes p.code = "(x=\x7b'a': b\x7d)".toList ∧
      ¬v.code <:+: unquoteTypes p.code := by
  decide +kernel

end Prototypes

end DocSite.Signature
