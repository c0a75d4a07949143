import DocSite.Proofs.Mdx.Marks

/-!
Code between fences. A fence divides what is worked on: if no address and no bracket is left open
before it, nothing that is found goes across it. What stands between two fences is then kept exactly
if nothing in it is taken for a mark.
-/

namespace DocSite.Mdx

open Text

section Front

variable {u v s t cs front before : List Char} {schemes leads : List (List Char)}

/-- The next angle bracket in a text. -/
def nextAngle? (cs : List Char) : Option Char := cs.find? fun c => c = '<' || c = '>'

/-- Every address that an angle bracket opens is closed by the next one. -/
def AnglesShut (schemes : List (List Char)) (cs : List Char) : Prop :=
  ∀ scheme ∈ schemes, ∀ s, '<' :: scheme ++ s <:+ cs → nextAngle? s = some '>'

/-- Every bracket that is opened has a closing one behind it. -/
def BracketsShut (cs : List Char) : Prop := ∀ s, '[' :: s <:+ cs → ']' ∈ s

theorem AnglesShut.of_suffix (h : AnglesShut schemes v) (hu : u <:+ v) : AnglesShut schemes u :=
  fun scheme hscheme s hs => h scheme hscheme s (hs.trans hu)

theorem BracketsShut.of_suffix (h : BracketsShut v) (hu : u <:+ v) : BracketsShut u :=
  fun s hs => h s (hs.trans hu)

theorem nextAngle?_append (hopen : '<' ∉ u) (hclose : '>' ∉ u) (v : List Char) :
    nextAngle? (u ++ v) = nextAngle? v := by
  have hnone : u.find? (fun c => c = '<' || c = '>') = none := by
    rw [List.find?_eq_none]
    intro c hc hangle
    have hc' : c = '<' ∨ c = '>' := by simpa using hangle
    rcases hc' with rfl | rfl
    · exact hopen hc
    · exact hclose hc
  rw [nextAngle?, List.find?_append, hnone, Option.none_or, nextAngle?]

theorem Unmarked.nextAngle_eq (h : Unmarked u v) : nextAngle? v = nextAngle? u := by
  induction h with
  | nil => rfl
  | keep d h ih =>
    unfold nextAngle? at ih ⊢
    rw [List.find?_cons, List.find?_cons, ih]
  | drop hlead h ih =>
    rw [ih, nextAngle?_append (not_mem_role hlead (by decide)) (not_mem_role hlead (by decide))]

theorem Unmarked.of_backtick {w : List Char} (h : Unmarked w v) (hw : w.head? = some '\x60') :
    v.head? = some '\x60' := by
  cases h with
  | nil => exact hw
  | keep c h => exact hw
  | drop hlead h =>
    rw [List.head?_append, head?_role _ hlead] at hw
    cases hw

theorem Unmarked.exists_eq_append {mark : List Char} (hmark : '\x60' ∉ mark)
    (h : Unmarked u (mark ++ t)) : ∃ s, u = mark ++ s ∧ Unmarked s t := by
  induction mark generalizing u with
  | nil => exact ⟨u, rfl, h⟩
  | cons c mark ih =>
    obtain ⟨hc, hmark⟩ : '\x60' ≠ c ∧ '\x60' ∉ mark := by simpa using hmark
    rw [List.cons_append] at h
    generalize hv : c :: (mark ++ t) = v at h
    cases h with
    | nil => cases hv
    | keep d h =>
      obtain ⟨rfl, rfl⟩ := List.cons.inj hv
      obtain ⟨s, rfl, hs⟩ := ih hmark h
      exact ⟨s, rfl, hs⟩
    | drop hlead h =>
      have hhead := h.of_backtick rfl
      rw [← hv] at hhead
      exact absurd (Option.some.inj hhead).symm hc

theorem Unmarked.anglesShut (hschemes : schemes ⊆ webSchemes ++ mailSchemes) (h : Unmarked u v)
    (hu : AnglesShut schemes u) : AnglesShut schemes v := by
  induction h with
  | nil => exact hu
  | @keep c u v h ih =>
    intro scheme hscheme s hs
    rcases List.suffix_cons_iff.mp hs with heq | hs
    · obtain ⟨rfl, rfl⟩ := List.cons.inj heq
      have hcode : '\x60' ∉ scheme :=
        not_mem_mark (List.mem_append_right _ (hschemes hscheme)) (by decide)
      obtain ⟨s', rfl, hs'⟩ := h.exists_eq_append hcode
      rw [hs'.nextAngle_eq]
      exact hu scheme hscheme s' List.suffix_rfl
    · exact ih (hu.of_suffix (List.suffix_cons c u)) scheme hscheme s hs
  | drop hlead h ih => exact ih (hu.of_suffix (List.suffix_append _ _))

theorem Unmarked.bracketsShut (h : Unmarked u v) (hu : BracketsShut u) : BracketsShut v := by
  induction h with
  | nil => exact hu
  | @keep c u v h ih =>
    intro s hs
    rcases List.suffix_cons_iff.mp hs with heq | hs
    · obtain ⟨rfl, rfl⟩ := List.cons.inj heq
      exact (h.mem_iff (by decide)).mpr (hu _ List.suffix_rfl)
    · exact ih (hu.of_suffix (List.suffix_cons c u)) s hs
  | drop hlead h ih => exact ih (hu.of_suffix (List.suffix_append _ _))

theorem Unmarked.eq_self (h : Unmarked u v) (hu : ':' ∉ u) : v = u := by
  induction h with
  | nil => rfl
  | keep c h ih => rw [ih fun hmem => hu (List.mem_cons_of_mem c hmem)]
  | drop hlead h =>
    have hcolon := List.mem_of_mem_head? (head?_role _ hlead)
    exact absurd (List.mem_append_left _ hcolon) hu

theorem Unmarked.fence_suffix (h : Unmarked u v) (hu : fence <:+ u) : fence <:+ v := by
  induction h with
  | nil => exact hu
  | @keep c u v h ih =>
    rcases List.suffix_cons_iff.mp hu with heq | hu
    · have hcolon : ':' ∉ u := by
        have hall : ':' ∉ c :: u := by simp [← heq, fence]
        exact fun hmem => hall (List.mem_cons_of_mem c hmem)
      exact ⟨[], by rw [List.nil_append, h.eq_self hcolon, heq]⟩
    · exact (ih hu).trans (List.suffix_cons c v)
  | @drop lead u v hlead h ih =>
    obtain ⟨p, hp⟩ := hu
    obtain ⟨more, -, hmore⟩ := exists_eq_append_of_not_mem
      (not_mem_role hlead (by decide : isMarkChar '\x60' = false)) hp.symm
    exact ih ⟨more, hmore.symm⟩

theorem BracketsShut.cons {c : Char} (h : BracketsShut cs) (hc : c = '[' → ']' ∈ cs) :
    BracketsShut (c :: cs) := by
  intro s hs
  rcases List.suffix_cons_iff.mp hs with heq | hs
  · obtain ⟨rfl, rfl⟩ := List.cons.inj heq
    exact hc rfl
  · exact h s hs

theorem BracketsShut.append (h : BracketsShut (u ++ v)) (ht : BracketsShut t)
    (hmem : ']' ∈ v → ']' ∈ t) : BracketsShut (u ++ t) := by
  induction u with
  | nil => exact ht
  | cons c u ih =>
    refine (ih (h.of_suffix (List.suffix_cons c _))).cons ?_
    rintro rfl
    rcases List.mem_append.mp (h _ List.suffix_rfl) with hu | hv
    · exact List.mem_append_left _ hu
    · exact List.mem_append_right _ (hmem hv)

theorem BracketsShut.append_close (h : BracketsShut v) (u : List Char) :
    BracketsShut (u ++ ']' :: v) := by
  induction u with
  | nil => exact h.cons (by simp)
  | cons c u ih => exact ih.cons (by simp)

/-- A link has a closing bracket behind every opening one, since the text it is made from does. -/
theorem BracketsShut.links (h : BracketsShut cs) :
    BracketsShut (substitute (autolink schemes) cs) := by
  suffices hboth : BracketsShut cs → BracketsShut (substitute (autolink schemes) cs) ∧
      (']' ∈ cs → ']' ∈ substitute (autolink schemes) cs) from (hboth h).1
  clear h
  refine substitute_induction (motive := fun cs out =>
    BracketsShut cs → BracketsShut out ∧ (']' ∈ cs → ']' ∈ out)) (turns_autolink schemes).fits
    (fun h => ⟨h, id⟩) ?_ ?_ cs
  · intro c cs _ ih h
    obtain ⟨hout, hmem⟩ := ih (h.of_suffix (List.suffix_cons c cs))
    constructor
    · refine hout.cons ?_
      rintro rfl
      exact hmem (h _ List.suffix_rfl)
    · simp only [List.mem_cons]
      exact Or.imp_right hmem
  · intro as cs written _ hhit ih h
    obtain ⟨inner, -, -, rfl, rfl⟩ := autolink_hit hhit
    obtain ⟨hout, hmem⟩ := ih (h.of_suffix (List.suffix_append _ cs))
    have hinner : BracketsShut (inner ++ '>' :: cs) := h.of_suffix ⟨['<'], by simp⟩
    have haddress := hinner.append (hout.cons (c := ')') (by simp)) (by simpa using hmem)
    have hclosed := (haddress.cons (c := '(') (by simp)).append_close inner
    have hlink := hclosed.cons (c := '[') (by simp)
    exact ⟨by simpa [linkTo] using hlink, fun _ => by simp [linkTo]⟩

theorem open_not_mem_of_nextAngle {x : List Char} (h : nextAngle? (x ++ '>' :: cs) = some '>')
    (hx : '>' ∉ x) : '<' ∉ x := by
  intro hmem
  obtain ⟨front, back, rfl, hfront⟩ := List.eq_append_cons_of_mem hmem
  have hclose : '>' ∉ front := fun hmem => hx (List.mem_append_left _ hmem)
  rw [List.append_assoc, nextAngle?_append hfront hclose] at h
  simp [nextAngle?] at h

theorem nextAngle_links (h : nextAngle? cs = some '>') :
    nextAngle? (substitute (autolink schemes) cs) = some '>' := by
  obtain ⟨-, as, bs, rfl, has⟩ := List.find?_eq_some_iff_append.mp h
  have hopen : '<' ∉ as := fun hmem => absurd (has _ hmem) (by decide)
  have hclose : substitute (autolink schemes) ('>' :: bs) =
      '>' :: substitute (autolink schemes) bs :=
    substitute_keep ((turns_autolink schemes).eq_none (by decide) _)
  rw [(turns_autolink schemes).substitute_append hopen, hclose]
  exact List.find?_eq_some_iff_append.mpr ⟨by decide, as, _, rfl, has⟩

theorem AnglesShut.append_left {x : List Char} (h : AnglesShut schemes cs) (hx : '<' ∉ x) :
    AnglesShut schemes (x ++ cs) := by
  induction x with
  | nil => exact h
  | cons c x ih =>
    obtain ⟨hc, hx⟩ : '<' ≠ c ∧ '<' ∉ x := by simpa using hx
    intro scheme hscheme s hs
    rcases List.suffix_cons_iff.mp hs with heq | hs
    · exact absurd (List.cons.inj heq).1 hc
    · exact ih hx scheme hscheme s hs

theorem AnglesShut.links {others : List (List Char)} (hothers : others ⊆ webSchemes ++ mailSchemes)
    (hschemes : schemes ⊆ webSchemes ++ mailSchemes) (hlinks : AnglesShut schemes cs)
    (h : AnglesShut others cs) : AnglesShut others (substitute (autolink schemes) cs) := by
  have hmark {scheme : List Char} (hscheme : scheme ∈ webSchemes ++ mailSchemes) {c : Char}
      (hc : isMarkChar c = false) : c ∉ scheme :=
    not_mem_mark (List.mem_append_right _ hscheme) hc
  revert hlinks h
  refine substitute_induction (motive := fun cs out =>
    AnglesShut schemes cs → AnglesShut others cs → AnglesShut others out)
    (turns_autolink schemes).fits (fun _ h => h) ?_ ?_ cs
  · intro c cs _ ih hlinks h scheme hscheme s hs
    rcases List.suffix_cons_iff.mp hs with heq | hs
    · obtain ⟨rfl, hout⟩ := List.cons.inj heq
      obtain ⟨s', rfl, rfl⟩ := (turns_autolink schemes).eq_append_of_substitute
        (hmark (hothers hscheme) (by decide)) hout.symm
      exact nextAngle_links (h scheme hscheme s' List.suffix_rfl)
    · exact ih (hlinks.of_suffix (List.suffix_cons c cs)) (h.of_suffix (List.suffix_cons c cs))
        scheme hscheme s hs
  · intro as cs written _ hhit ih hlinks h
    obtain ⟨inner, hinner, haddress, rfl, rfl⟩ := autolink_hit hhit
    have hout := ih (hlinks.of_suffix (List.suffix_append _ cs))
      (h.of_suffix (List.suffix_append _ cs))
    obtain ⟨scheme, hscheme, x, -, rfl⟩ := isAddress_iff.mp haddress
    have hnext := hlinks scheme hscheme (x ++ '>' :: cs) ⟨[], by simp⟩
    have hopen : '<' ∉ x := open_not_mem_of_nextAngle hnext fun hx => hinner (by simp [hx])
    have hopen' : '<' ∉ scheme := hmark (hschemes hscheme) (by decide)
    exact hout.append_left (by simp [linkTo, hopen, hopen'])

/-- A text that ends with a fence and leaves nothing open before it. -/
structure Barrier (schemes : List (List Char)) (front : List Char) : Prop where
  ends : fence <:+ front
  angles : AnglesShut schemes front
  brackets : BracketsShut front

theorem Barrier.of_subset {others : List (List Char)} (h : Barrier schemes front)
    (hothers : others ⊆ schemes) : Barrier others front :=
  ⟨h.ends, fun scheme hscheme => h.angles scheme (hothers hscheme), h.brackets⟩

theorem Barrier.roles (h : Barrier schemes front) (hschemes : schemes ⊆ webSchemes ++ mailSchemes)
    (hleads : leads ⊆ allRoles) : Barrier schemes (substitute (roles leads) front) :=
  have hunmarked := unmarked_roles hleads front
  ⟨hunmarked.fence_suffix h.ends, hunmarked.anglesShut hschemes h.angles,
    hunmarked.bracketsShut h.brackets⟩

theorem Barrier.roles_append (h : Barrier schemes front) (hleads : leads ⊆ allRoles)
    (rest : List Char) : substitute (Mdx.roles leads) (front ++ rest) =
      substitute (Mdx.roles leads) front ++ substitute (Mdx.roles leads) rest := by
  obtain ⟨before, rfl⟩ := h.ends
  exact substitute_append (turns_roles hleads).fits fun w hw hne =>
    roles_settled hleads hw hne rest

theorem autolink_settled {w : List Char} (hschemes : schemes ⊆ webSchemes ++ mailSchemes)
    (h : AnglesShut schemes (before ++ fence)) (hw : w <:+ before ++ fence) (hne : w ≠ [])
    (rest : List Char) : autolink schemes (w ++ rest) = autolink schemes w := by
  obtain ⟨more, rfl⟩ | ⟨front, -, rfl⟩ := suffix_fence hw hne
  · have hnone := (turns_autolink schemes).eq_none (c := '\x60') (by decide)
    rw [List.cons_append, hnone, hnone]
  · apply Option.ext
    intro hit
    constructor
    · intro hhit
      rcases autolink_fence hschemes hhit with
        ⟨inner, more, hinner, haddress, rfl, rfl⟩ | ⟨-, scheme, hscheme, x, hx, rfl⟩
      · exact autolink_eq_some_iff.mpr
          ⟨inner, more ++ fence, hinner, haddress, by simp, rfl⟩
      · have hnext := h scheme hscheme (x ++ fence) (by simpa using hw)
        have hmem := List.mem_of_find?_eq_some hnext
        exact absurd hmem (by simp [hx, fence])
    · intro hhit
      obtain ⟨inner, more, hinner, haddress, heq, rfl⟩ := autolink_eq_some_iff.mp hhit
      exact autolink_eq_some_iff.mpr ⟨inner, more ++ rest, hinner, haddress, by simp [heq], rfl⟩

theorem Barrier.links {others : List (List Char)} (h : Barrier schemes front)
    (hothers : others ⊆ webSchemes ++ mailSchemes) (hschemes : schemes ⊆ webSchemes ++ mailSchemes)
    (hangles : AnglesShut others front) : Barrier others (substitute (autolink schemes) front) := by
  refine ⟨?_, h.angles.links hothers hschemes hangles, h.brackets.links⟩
  obtain ⟨before, rfl⟩ := h.ends
  rw [(endsAt_autolink schemes).substitute_append (by simp [fence])]
  exact List.suffix_append _ fence

theorem Barrier.links_append (h : Barrier schemes front)
    (hschemes : schemes ⊆ webSchemes ++ mailSchemes) (rest : List Char) :
    substitute (autolink schemes) (front ++ rest) =
      substitute (autolink schemes) front ++ substitute (autolink schemes) rest := by
  obtain ⟨before, rfl⟩ := h.ends
  exact substitute_append (turns_autolink schemes).fits fun w hw hne =>
    autolink_settled hschemes h.angles hw hne rest

theorem reference_settled {w : List Char} (h : BracketsShut (before ++ fence))
    (hw : w <:+ before ++ fence) (hne : w ≠ []) (rest : List Char) :
    reference (w ++ rest) = reference w := by
  obtain ⟨more, rfl⟩ | ⟨front, -, rfl⟩ := suffix_fence hw hne
  · rfl
  · apply Option.ext
    intro hit
    rw [reference_eq_some_iff, reference_eq_some_iff]
    constructor
    · rintro ⟨text, path, tail, htext, hpath, heq, rfl⟩
      cases front with
      | nil => simp [fence, referenceTo] at heq
      | cons c front =>
        obtain ⟨rfl, hfront⟩ : c = '[' ∧ front ++ fence ++ rest =
            text ++ ']' :: ('[' :: (path ++ ']' :: tail)) := by
          simpa [referenceTo] using heq
        rw [List.cons_append] at hw ⊢
        -- the text is closed before the fence, and so is the path, since it is opened there
        obtain ⟨inner, back, hinner, hclose⟩ := List.eq_append_cons_of_mem (h _ hw)
        rw [hinner] at hw ⊢
        rw [hinner, List.append_assoc, List.cons_append] at hfront
        obtain ⟨rfl, hback⟩ := append_cons_inj hclose htext hfront
        cases back with
        | nil =>
          have hlast := congrArg List.getLast? hinner
          simp [fence] at hlast
        | cons d back =>
          rw [List.cons_append] at hback
          obtain ⟨rfl, hpair⟩ := List.cons.inj hback
          have hopen : '[' :: back <:+ before ++ fence :=
            List.IsSuffix.trans ⟨'[' :: inner ++ [']'], by simp⟩ hw
          obtain ⟨inside, more, rfl, hinside⟩ := List.eq_append_cons_of_mem (h _ hopen)
          rw [List.append_assoc, List.cons_append] at hpair
          obtain ⟨rfl, -⟩ := append_cons_inj hinside hpath hpair
          exact ⟨inner, inside, more, hclose, hinside, by simp [referenceTo], rfl⟩
    · rintro ⟨text, path, tail, htext, hpath, heq, rfl⟩
      exact ⟨text, path, tail ++ rest, htext, hpath, by simp [heq], rfl⟩

theorem Barrier.reference_append (h : Barrier schemes front) (rest : List Char) :
    substitute reference (front ++ rest) =
      substitute reference front ++ substitute reference rest := by
  obtain ⟨before, rfl⟩ := h.ends
  exact substitute_append fits_reference fun w hw hne => reference_settled h.brackets hw hne rest

/-- What stands up to a fence that nothing is left open before is worked on by itself. -/
theorem escape_append_of_barrier (h : Barrier (webSchemes ++ mailSchemes) front)
    (rest : List Char) : escape (front ++ rest) = escape front ++ escape rest := by
  have hall : webSchemes ++ mailSchemes ⊆ webSchemes ++ mailSchemes := List.Subset.refl _
  have hweb : webSchemes ⊆ webSchemes ++ mailSchemes := List.subset_append_left _ _
  have hmail : mailSchemes ⊆ webSchemes ++ mailSchemes := List.subset_append_right _ _
  have h₁ := h.roles hall data_subset
  have h₂ := h₁.roles hall objects_subset
  have h₃ := (h₂.of_subset hweb).links hmail hweb (h₂.of_subset hmail).angles
  have h₄ := h₃.links (List.nil_subset _) hmail nofun
  rw [escape_eq_passes, escape_eq_passes, escape_eq_passes, unrole, unrole, unrole,
    h.roles_append data_subset, h₁.roles_append objects_subset,
    (h₂.of_subset hweb).links_append hweb, h₃.links_append hmail, h₄.reference_append]

/-- A text that leaves no address and no bracket open. -/
structure Shut (before : List Char) : Prop where
  angles : AnglesShut (webSchemes ++ mailSchemes) before
  brackets : BracketsShut before

theorem Shut.barrier (h : Shut before) : Barrier (webSchemes ++ mailSchemes) (before ++ fence) := by
  refine ⟨List.suffix_append before fence, ?_, ?_⟩
  · intro scheme hscheme s hs
    obtain ⟨more, heq⟩ | ⟨front, hfront, heq⟩ := suffix_fence hs (by simp)
    · cases heq
    · have hcode : '\x60' ∉ '<' :: scheme := by
        simpa using not_mem_mark (List.mem_append_right _ hscheme)
          (by decide : isMarkChar '\x60' = false)
      obtain ⟨more, rfl, rfl⟩ := exists_eq_append_of_not_mem hcode heq
      have hnext := h.angles scheme hscheme more hfront
      rw [nextAngle?] at hnext ⊢
      rw [List.find?_append, hnext, Option.some_or]
  · intro s hs
    obtain ⟨more, heq⟩ | ⟨front, hfront, heq⟩ := suffix_fence hs (by simp)
    · cases heq
    · cases front with
      | nil => cases heq
      | cons c front =>
        obtain ⟨rfl, rfl⟩ := List.cons.inj heq
        exact List.mem_append_left _ (h.brackets front hfront)

/-- Code between two fences, where nothing is left open before them, is kept as it is exactly if no
role mark, no address and no reference is found in it. -/
theorem escape_keeps_fenced_iff (hbefore : Shut before) (region after : List Char) :
    (∃ rest, escape (before ++ fence ++ (region ++ fence ++ after)) =
        escape (before ++ fence) ++ (region ++ fence ++ rest)) ↔ Untouched region after := by
  rw [← untouched_iff, escape_append_of_barrier hbefore.barrier]
  constructor
  · rintro ⟨rest, heq⟩
    exact ⟨rest, (List.append_cancel_left heq).symm⟩
  · rintro ⟨rest, heq⟩
    exact ⟨rest, by rw [heq]⟩

theorem escape_keeps_subscripts :
    let before := "See <http://a.b>, [x].\n".toList
    let region := "\nrows[0][1] < :data:\n".toList
    Shut before ∧
    ((∃ rest, escape (before ++ fence ++ (region ++ fence ++ ['\n'])) =
        escape (before ++ fence) ++ (region ++ fence ++ rest)) ↔ Untouched region ['\n']) ∧
    escape (before ++ fence ++ (region ++ fence ++ ['\n'])) =
      escape (before ++ fence) ++ (region ++ fence ++ ['\n']) := by
  intro before region
  have hbefore : Shut before := by
    constructor
    · intro scheme hscheme s hs
      have hrest : scheme ++ s = "http://a.b>, [x].\n".toList := by
        simpa [before, List.suffix_cons_iff] using hs
      have hschemes : scheme = "http://".toList ∨ scheme = "https://".toList ∨
          scheme = "mailto:".toList := by
        simpa [webSchemes, mailSchemes] using hscheme
      rcases hschemes with rfl | rfl | rfl
      · obtain rfl : s = "a.b>, [x].\n".toList := by simpa using hrest
        rfl
      · simp at hrest
      · simp at hrest
    · intro s hs
      obtain rfl : s = "x].\n".toList := by simpa [before, List.suffix_cons_iff] using hs
      simp
  exact ⟨hbefore, escape_keeps_fenced_iff hbefore region ['\n'], by decide +kernel⟩

/-- Subscripts that look like a reference are made a link inside code. -/
theorem escape_links_subscripts :
    escape "Code:\n\x60\x60\x60\nrows[0][Foo]\n\x60\x60\x60\n".toList =
      "Code:\n\x60\x60\x60\nrows[0](./foo)\n\x60\x60\x60\n".toList := by
  decide +kernel

end Front

end DocSite.Mdx
