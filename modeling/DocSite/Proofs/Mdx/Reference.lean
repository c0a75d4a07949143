import DocSite.Mdx.Prose
import DocSite.Proofs.Text
import DocSite.Proofs.Text.Case

namespace DocSite.Mdx

open Text

section Stops

variable {stop : Char} {cs tail inner : List Char}

/-- What stands before a character that is to come. -/
def upTo? (stop : Char) (cs : List Char) : Option (List Char) :=
  if (cs.takeWhile (· ≠ stop)).length = cs.length then none else some (cs.takeWhile (· ≠ stop))

theorem upTo?_append_cons (h : stop ∉ inner) (rest : List Char) :
    upTo? stop (inner ++ stop :: rest) = some inner := by
  rw [upTo?, takeWhile_append_stop h, if_neg (by simp)]

theorem upTo?_of_not_mem (h : stop ∉ cs) : upTo? stop cs = none := by
  rw [upTo?, takeWhile_of_not_mem h, if_pos rfl]

theorem upTo?_append (h : stop ∉ tail) (cs : List Char) :
    upTo? stop (cs ++ tail) = upTo? stop cs := by
  by_cases hmem : stop ∈ cs
  · obtain ⟨inner, rest, rfl, hinner⟩ := List.eq_append_cons_of_mem hmem
    rw [List.append_assoc, List.cons_append, upTo?_append_cons hinner, upTo?_append_cons hinner]
  · rw [upTo?_of_not_mem hmem, upTo?_of_not_mem (by simp [hmem, h])]

theorem upTo?_eq_some_iff :
    upTo? stop cs = some inner ↔ stop ∉ inner ∧ ∃ rest, cs = inner ++ stop :: rest := by
  constructor
  · intro h
    by_cases hmem : stop ∈ cs
    · obtain ⟨before, rest, rfl, hbefore⟩ := List.eq_append_cons_of_mem hmem
      rw [upTo?_append_cons hbefore] at h
      cases h
      exact ⟨hbefore, rest, rfl⟩
    · rw [upTo?_of_not_mem hmem] at h
      cases h
  · rintro ⟨hinner, rest, rfl⟩
    exact upTo?_append_cons hinner rest

theorem afterStart?_append (h : stop ∉ tail) (lead cs : List Char) :
    afterStart? (lead ++ [stop]) (cs ++ tail) =
      (afterStart? (lead ++ [stop]) cs).map (· ++ tail) := by
  -- the tail lacks the last character of what is looked for
  have htail (lead : List Char) : afterStart? (lead ++ [stop]) tail = none := by
    cases hstart : afterStart? (lead ++ [stop]) tail with
    | none => rfl
    | some rest =>
      rw [afterStart?_eq_some.mp hstart] at h
      exact absurd (by simp) h
  induction lead generalizing cs with
  | nil =>
    cases cs with
    | nil => exact htail []
    | cons c cs => by_cases hc : stop = c <;> simp [afterStart?, hc]
  | cons p ps ih =>
    cases cs with
    | nil => exact htail (p :: ps)
    | cons c cs => by_cases hc : p = c <;> simp [afterStart?, hc, ih]

/-- A recogniser that looks for a character to end what it finds: what comes behind, if it does not
have this character, makes no difference. -/
structure EndsAt (stop : Char) (find : List Char → Option Hit) : Prop where
  sees : ∀ cs tail, stop ∉ tail → find (cs ++ tail) = find cs
  fits : ∀ cs hit, find cs = some hit → hit.taken ≤ cs.length
  empty : find [] = none

theorem EndsAt.substitute_append {find : List Char → Option Hit} (h : EndsAt stop find)
    (htail : stop ∉ tail) (cs : List Char) :
    substitute find (cs ++ tail) = substitute find cs ++ tail := by
  refine substituteFrom_append (fun a as => h.sees _ _ htail) h.fits (fun ahead hahead => ?_) 0 none
    (Nat.zero_le _)
  rw [← List.nil_append ahead, h.sees [] ahead fun hmem => htail (hahead.mem hmem), h.empty]

end Stops

section Recognisers

variable {lead cs inner : List Char} {hit : Hit}

theorem roleCode_eq (lead ahead : List Char) : roleCode lead ahead =
    (afterStart? (lead ++ ['\x60']) ahead).bind fun rest => (upTo? '\x60' rest).bind fun inner =>
      if inner.isEmpty then none
      else some ⟨lead.length + inner.length + 2, inlineCode inner⟩ := by
  rw [roleCode]
  congr 1
  funext rest
  rw [upTo?]
  generalize rest.takeWhile (· ≠ '\x60') = inner
  by_cases hlength : inner.length = rest.length <;> simp [hlength]

theorem roleCode_eq_some_iff : roleCode lead cs = some hit ↔
    ∃ inner rest, inner ≠ [] ∧ '\x60' ∉ inner ∧ cs = lead ++ inlineCode inner ++ rest ∧
      hit = ⟨(lead ++ inlineCode inner).length, inlineCode inner⟩ := by
  have htaken (inner : List Char) :
      lead.length + inner.length + 2 = (lead ++ inlineCode inner).length := by
    simp only [inlineCode, List.length_append, List.length_cons, List.length_nil]
    omega
  rw [roleCode_eq, Option.bind_eq_some_iff]
  constructor
  · rintro ⟨more, hmore, hfound⟩
    obtain ⟨inner, hinner, hhit⟩ := Option.bind_eq_some_iff.mp hfound
    obtain ⟨hcode, rest, rfl⟩ := upTo?_eq_some_iff.mp hinner
    split at hhit
    · cases hhit
    · rename_i hne
      refine ⟨inner, rest, by simpa using hne, hcode, ?_, ?_⟩
      · rw [afterStart?_eq_some.mp hmore]
        simp [inlineCode]
      · rw [← htaken]
        exact (Option.some.inj hhit).symm
  · rintro ⟨inner, rest, hne, hcode, rfl, rfl⟩
    refine ⟨inner ++ '\x60' :: rest, afterStart?_eq_some.mpr (by simp [inlineCode]), ?_⟩
    rw [upTo?_append_cons hcode, Option.bind_some, if_neg (by simpa using hne), htaken]

theorem endsAt_roleCode (lead : List Char) : EndsAt '\x60' (roleCode lead) where
  sees cs tail htail := by
    rw [roleCode_eq, roleCode_eq, afterStart?_append htail, Option.bind_map]
    congr 1
    funext rest
    rw [Function.comp_apply, upTo?_append htail]
  fits cs hit hhit := by
    obtain ⟨inner, rest, -, -, rfl, rfl⟩ := roleCode_eq_some_iff.mp hhit
    simp
  empty := by
    cases lead <;> rfl

theorem EndsAt.findSome? {stop : Char} {find : List Char → List Char → Option Hit}
    (h : ∀ lead, EndsAt stop (find lead)) (leads : List (List Char)) :
    EndsAt stop fun ahead => leads.findSome? fun lead => find lead ahead where
  sees cs tail htail := by
    congr 1
    funext lead
    exact (h lead).sees cs tail htail
  fits cs hit hhit := by
    obtain ⟨lead, -, hlead⟩ := List.exists_of_findSome?_eq_some hhit
    exact (h lead).fits cs hit hlead
  empty := List.findSome?_eq_none_iff.mpr fun lead _ => (h lead).empty

theorem bracketed?_append {tail : List Char} (htail : '>' ∉ tail) (cs : List Char) :
    bracketed? (cs ++ tail) = bracketed? cs := by
  cases cs with
  | nil =>
    cases tail with
    | nil => rfl
    | cons c tail =>
      by_cases hc : c = '<'
      · subst hc
        exact upTo?_of_not_mem fun hmem => htail (List.mem_cons_of_mem _ hmem)
      · simp [bracketed?, hc]
  | cons c cs =>
    by_cases hc : c = '<'
    · subst hc
      exact upTo?_append htail cs
    · simp [bracketed?, hc]

theorem bracketed?_eq_some_iff : bracketed? cs = some inner ↔
    '>' ∉ inner ∧ ∃ rest, cs = '<' :: (inner ++ '>' :: rest) := by
  constructor
  · intro h
    unfold bracketed? at h
    split at h
    · rename_i cs
      change upTo? '>' cs = some inner at h
      obtain ⟨hangle, rest, rfl⟩ := upTo?_eq_some_iff.mp h
      exact ⟨hangle, rest, rfl⟩
    · cases h
  · rintro ⟨hangle, rest, rfl⟩
    exact upTo?_append_cons hangle rest

theorem autolink_eq_some_iff {schemes : List (List Char)} : autolink schemes cs = some hit ↔
    ∃ inner rest, '>' ∉ inner ∧ isAddress schemes inner = true ∧
      cs = '<' :: inner ++ '>' :: rest ∧ hit = ⟨inner.length + 2, linkTo inner⟩ := by
  constructor
  · intro h
    obtain ⟨inner, hinner, hhit⟩ := Option.bind_eq_some_iff.mp h
    obtain ⟨hangle, rest, rfl⟩ := bracketed?_eq_some_iff.mp hinner
    split at hhit
    · exact ⟨inner, rest, hangle, ‹_›, rfl, (Option.some.inj hhit).symm⟩
    · cases hhit
  · rintro ⟨inner, rest, hangle, haddress, rfl, rfl⟩
    have hinner : bracketed? ('<' :: inner ++ '>' :: rest) = some inner :=
      bracketed?_eq_some_iff.mpr ⟨hangle, rest, rfl⟩
    rw [autolink, hinner]
    simp [haddress]

theorem endsAt_autolink (schemes : List (List Char)) : EndsAt '>' (autolink schemes) where
  sees cs tail htail := by rw [autolink, bracketed?_append htail, autolink]
  fits cs hit hhit := by
    obtain ⟨inner, rest, -, -, rfl, rfl⟩ := autolink_eq_some_iff.mp hhit
    simp only [List.length_append, List.length_cons]
    omega
  empty := rfl

end Recognisers

/-- Role marks taken off code and addresses in angle brackets written as links, and nothing done to
references yet. -/
def unmark (cs : List Char) : List Char :=
  let cs := substitute (roleCode dataRole) cs
  let cs := substitute (fun ahead => objectRoles.findSome? fun r => roleCode r ahead) cs
  let cs := substitute (autolink webSchemes) cs
  substitute (autolink mailSchemes) cs

theorem escape_eq (cs : List Char) : escape cs = substitute reference (unmark cs) := rfl

section Bracket

variable {tail : List Char}

theorem roleCode_bracket {lead : List Char} (h : lead.head? = some ':') (cs : List Char) :
    roleCode lead ('[' :: cs) = none := by
  cases lead with
  | nil => cases h
  | cons p ps =>
    cases h
    rfl

theorem roles_bracket (cs : List Char) :
    (objectRoles.findSome? fun r => roleCode r ('[' :: cs)) = none := by
  have hroles : ∀ r ∈ objectRoles, r.head? = some ':' := by decide
  exact List.findSome?_eq_none_iff.mpr fun r hr => roleCode_bracket (hroles r hr) cs

/-- In a bracket, what comes before a tail without backticks and angle brackets is worked on by
itself. -/
theorem unmark_bracket (hcode : '\x60' ∉ tail) (hangle : '>' ∉ tail) (cs : List Char) :
    unmark ('[' :: (cs ++ tail)) = '[' :: (unmark cs ++ tail) := by
  have hroles := EndsAt.findSome? endsAt_roleCode objectRoles
  unfold unmark
  dsimp only
  rw [substitute_keep (roleCode_bracket rfl _), (endsAt_roleCode _).substitute_append hcode,
    substitute_keep (roles_bracket _), hroles.substitute_append hcode, substitute_keep rfl,
    (endsAt_autolink _).substitute_append hangle, substitute_keep rfl,
    (endsAt_autolink _).substitute_append hangle]

end Bracket

/-- A text in brackets and the path it refers to. -/
def referenceTo (text path : List Char) : List Char :=
  '[' :: (text ++ ']' :: '[' :: (path ++ [']']))

/-- A link to a page that lies beside. -/
def linkBeside (text target : List Char) : List Char :=
  '[' :: text ++ "](./".toList ++ target ++ [')']

section Links

variable {text path cs : List Char} {hit : Hit}

theorem referenceParts?_of_not_mem (h : ']' ∉ cs) : referenceParts? ('[' :: cs) = none := by
  rw [referenceParts?, takeWhile_of_not_mem h, List.drop_length]
  rfl

theorem referenceParts?_append {text : List Char} (h : ']' ∉ text) (more : List Char) :
    referenceParts? ('[' :: (text ++ ']' :: more)) =
      (afterStart? ['['] more).bind fun rest => (upTo? ']' rest).map fun path => (text, path) := by
  rw [referenceParts?, takeWhile_append_stop h, List.drop_left]
  change (afterStart? ['['] more).bind _ = _
  congr 1
  funext rest
  rw [upTo?]
  by_cases hlength : (rest.takeWhile (· ≠ ']')).length = rest.length
  · rw [if_pos hlength, if_pos hlength, Option.map_none]
  · rw [if_neg hlength, if_neg hlength, Option.map_some]

theorem referenceParts?_eq_some_iff {text path : List Char} :
    referenceParts? cs = some (text, path) ↔
      ']' ∉ text ∧ ']' ∉ path ∧ ∃ rest, cs = referenceTo text path ++ rest := by
  constructor
  · intro h
    unfold referenceParts? at h
    split at h
    · rename_i cs
      change referenceParts? ('[' :: cs) = _ at h
      by_cases hmem : ']' ∈ cs
      · obtain ⟨front, more, rfl, hfront⟩ := List.eq_append_cons_of_mem hmem
        rw [referenceParts?_append hfront] at h
        obtain ⟨rest, hrest, h⟩ := Option.bind_eq_some_iff.mp h
        obtain ⟨path, hpath, heq⟩ := Option.map_eq_some_iff.mp h
        obtain ⟨rfl, rfl⟩ := Prod.mk.inj heq
        obtain ⟨hclose, after, rfl⟩ := upTo?_eq_some_iff.mp hpath
        refine ⟨hfront, hclose, after, ?_⟩
        rw [afterStart?_eq_some.mp hrest]
        simp [referenceTo]
      · rw [referenceParts?_of_not_mem hmem] at h
        cases h
    · cases h
  · rintro ⟨htext, hpath, rest, rfl⟩
    have hparts := referenceParts?_append htext ('[' :: (path ++ ']' :: rest))
    have hopen (cs : List Char) : afterStart? ['['] ('[' :: cs) = some cs := rfl
    rw [hopen, Option.bind_some, upTo?_append_cons hpath] at hparts
    simpa [referenceTo] using hparts

/-- What is written for a reference: a link if it points to a page, else itself. -/
def rewritten (text path : List Char) : List Char :=
  ((target? path).map fun page => linkBeside text (pageSlug page)).getD (referenceTo text path)

theorem reference_eq_some_iff : reference cs = some hit ↔
    ∃ text path rest, ']' ∉ text ∧ ']' ∉ path ∧ cs = referenceTo text path ++ rest ∧
      hit = ⟨(referenceTo text path).length, rewritten text path⟩ := by
  have hhit {text path rest : List Char} (htext : ']' ∉ text) (hpath : ']' ∉ path) :
      reference (referenceTo text path ++ rest) =
        some ⟨(referenceTo text path).length, rewritten text path⟩ := by
    have hlength : text.length + path.length + 4 = (referenceTo text path).length := by
      simp [referenceTo]
      omega
    rw [reference, referenceParts?_eq_some_iff.mpr ⟨htext, hpath, rest, rfl⟩]
    cases htarget : target? path with
    | none => simp [htarget, hlength, rewritten]
    | some page => simp [htarget, hlength, rewritten, linkBeside]
  constructor
  · intro h
    obtain ⟨⟨text, path⟩, hparts, -⟩ := Option.bind_eq_some_iff.mp h
    obtain ⟨htext, hpath, rest, rfl⟩ := referenceParts?_eq_some_iff.mp hparts
    rw [hhit htext hpath] at h
    exact ⟨text, path, rest, htext, hpath, rfl, (Option.some.inj h).symm⟩
  · rintro ⟨text, path, rest, htext, hpath, rfl, rfl⟩
    exact hhit htext hpath

/-- A reference is written as a link to the page it points to, and stays if it points to none. -/
theorem escape_referenceTo (htext : ']' ∉ unmark text)
    (hpath : ∀ c ∈ [']', '\x60', '>'], c ∉ path) :
    escape (referenceTo text path) =
      ((target? path).map fun page => linkBeside (unmark text) (pageSlug page)).getD
        (referenceTo (unmark text) path) := by
  have hmarks (c : Char) (hc : c ∈ [']', '\x60', '>']) (hne : c ≠ ']' ∧ c ≠ '[') :
      c ∉ ']' :: '[' :: (path ++ [']']) := by
    simp [hne, hpath c hc]
  have hunmark : unmark (referenceTo text path) = referenceTo (unmark text) path :=
    unmark_bracket (hmarks _ (by simp) (by decide)) (hmarks _ (by simp) (by decide)) text
  have hhit : reference (referenceTo (unmark text) path ++ []) =
      some ⟨(referenceTo (unmark text) path).length, rewritten (unmark text) path⟩ :=
    reference_eq_some_iff.mpr ⟨_, _, [], htext, hpath _ (by simp), rfl, rfl⟩
  -- the reference is found at once and is all of the text
  have hall := substitute_hit (by simp [referenceTo]) hhit
  rw [List.append_nil, substitute_nil, List.append_nil] at hall
  rw [escape_eq, hunmark, hall, rewritten]

end Links

/-- The class or module that a path of names points to, by the case of its last two names. -/
inductive PointsTo : List (List Char) → List Char → Prop
  | ofClass {names : List (List Char)} {cls : List Char} (hcls : startsCapital cls = true) :
      PointsTo (names ++ [cls]) cls
  | ofMethod {names : List (List Char)} {cls method : List Char} (hcls : startsCapital cls = true)
      (hmethod : startsCapital method = false) : PointsTo (names ++ [cls, method]) cls
  | ofFunction {names : List (List Char)} {home function : List Char}
      (hhome : startsCapital home = false) (hfunction : startsCapital function = false) :
      PointsTo (names ++ [home, function]) home

section Targets

variable {path owner : List Char} {names : List (List Char)}

theorem PointsTo.mem (h : PointsTo names owner) : owner ∈ names := by
  cases h <;> simp

theorem target?_of_pointsTo (hnames : ∀ n ∈ splitChar '.' path, isIdentifier n = true)
    (h : PointsTo (splitChar '.' path) owner) :
    target? path = some owner ∨ ∃ anchor, target? path = some (owner ++ '#' :: anchor) := by
  have hall : (!(splitChar '.' path).all isIdentifier) = false := by
    simpa using hnames
  rw [target?, hall]
  generalize splitChar '.' path = names at h
  cases h with
  | @ofClass names cls hcls =>
    refine .inl ?_
    rw [List.reverse_append]
    cases names.reverse <;> simp [hcls]
  | @ofMethod names cls method hcls hmethod =>
    refine .inr ⟨"method-".toList ++ method, ?_⟩
    simp [hcls, hmethod]
  | @ofFunction names home function hhome hfunction =>
    refine .inr ⟨"func-".toList ++ function, ?_⟩
    simp [hhome, hfunction]

/-- The part of a target before the place on the page. -/
def pagePart (target : List Char) : List Char := target.takeWhile (· ≠ '#')

theorem not_mem_pageSlug (h : isIdentifier owner = true) : '#' ∉ pageSlug owner := by
  refine not_mem_replaceChar (by decide) ?_
  rw [mem_lower (by decide)]
  exact not_mem_of_isIdentifier (by decide) h

theorem pagePart_pageSlug (h : isIdentifier owner = true) :
    pagePart (pageSlug owner) = pageSlug owner :=
  takeWhile_of_not_mem (not_mem_pageSlug h)

/-- A place on a page changes nothing of the page part, not even a sigma at the end of it. -/
theorem pagePart_pageSlug_anchor (h : isIdentifier owner = true) (anchor : List Char) :
    pagePart (pageSlug (owner ++ '#' :: anchor)) = pageSlug owner := by
  have hcased : isCased '#' = false := by decide
  have hcounted : isUncounted '#' = false := by decide
  have hlower : lower (owner ++ '#' :: anchor) =
      lower owner ++ '#' :: lowerFrom ('#' :: owner.reverse) anchor := by
    rw [lower, lowerFrom_append hcased hcounted, List.append_nil]
    rfl
  rw [pageSlug, hlower, replaceChar_append]
  exact takeWhile_append_stop (not_mem_pageSlug h) _

theorem not_mem_of_isPath {c : Char} (hnames : ∀ n ∈ splitChar '.' path, isIdentifier n = true)
    (hc : isSeparator c = true) (hdot : c ≠ '.') : c ∉ path := by
  intro hmem
  obtain ⟨piece, hpiece, hmem⟩ := mem_splitChar_of_mem hmem hdot
  exact not_mem_of_isIdentifier hc (hnames piece hpiece) hmem

/-- A reference by a dotted path is a link, and its page part is the name of the class or module
with small letters and hyphens for underscores. -/
theorem escape_reference_pointsTo {text : List Char}
    (hnames : ∀ n ∈ splitChar '.' path, isIdentifier n = true)
    (h : PointsTo (splitChar '.' path) owner) (htext : ']' ∉ unmark text) :
    ∃ target, escape (referenceTo text path) = linkBeside (unmark text) target ∧
      pagePart target = pageSlug owner := by
  have howner := hnames owner h.mem
  have hpath : ∀ c ∈ [']', '\x60', '>'], c ∉ path := by
    simp only [List.forall_mem_cons]
    exact ⟨not_mem_of_isPath hnames (by decide) (by decide),
      not_mem_of_isPath hnames (by decide) (by decide),
      not_mem_of_isPath hnames (by decide) (by decide), by simp⟩
  rw [escape_referenceTo htext hpath]
  rcases target?_of_pointsTo hnames h with htarget | ⟨anchor, htarget⟩
  · exact ⟨pageSlug owner, by rw [htarget]; rfl, pagePart_pageSlug howner⟩
  · exact ⟨pageSlug (owner ++ '#' :: anchor), by rw [htarget]; rfl,
      pagePart_pageSlug_anchor howner anchor⟩

end Targets

end DocSite.Mdx
