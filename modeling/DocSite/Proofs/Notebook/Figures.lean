import DocSite.Notebook.Conversion
import DocSite.Proofs.Disk
import DocSite.Proofs.Job
import DocSite.Proofs.Pattern

/-!
The links to figures on a published page. The name of the page is read as a pattern, so the links
that are made to start at the directory of the page are those that the name covers as a pattern,
which need not be those that it covers as a text.
-/

namespace DocSite.Notebook

open Text Pattern

variable {isFigure : List Char → Prop} {body fixed target : List Char} {stem : String}

section Relinking

/-- Left to right, the links to figures are made to start at a directory, and all else stays. -/
inductive Relinked (isFigure : List Char → Prop) : List Char → List Char → Prop
  | nil : Relinked isFigure [] []
  | link {target rest fixed : List Char} : isFigure target → Relinked isFigure rest fixed →
    Relinked isFigure ('(' :: (target ++ ')' :: rest))
      ('(' :: '.' :: '/' :: (target ++ ')' :: fixed))
  | keep {c : Char} {rest fixed : List Char} :
    (∀ target tail, c :: rest = '(' :: (target ++ ')' :: tail) → ¬isFigure target) →
    Relinked isFigure rest fixed → Relinked isFigure (c :: rest) (c :: fixed)

/-- Whether a text has a link to a figure. -/
def HasFigure (isFigure : List Char → Prop) (body : List Char) : Prop :=
  ∃ front target tail, body = front ++ '(' :: (target ++ ')' :: tail) ∧ isFigure target

theorem hasFigure_cons {c : Char} {rest : List Char}
    (h : ∀ target tail, c :: rest = '(' :: (target ++ ')' :: tail) → ¬isFigure target) :
    HasFigure isFigure (c :: rest) ↔ HasFigure isFigure rest := by
  constructor
  · rintro ⟨front, target, tail, hbody, hfigure⟩
    cases front with
    | nil => exact absurd hfigure (h target tail hbody)
    | cons d front =>
      cases hbody
      exact ⟨front, target, tail, rfl, hfigure⟩
  · rintro ⟨front, target, tail, rfl, hfigure⟩
    exact ⟨c :: front, target, tail, rfl, hfigure⟩

theorem Relinked.length_le (h : Relinked isFigure body fixed) : body.length ≤ fixed.length := by
  induction h with
  | nil => exact Nat.le_refl _
  | link hfigure _ ih =>
    simp only [List.length_cons, List.length_append]
    omega
  | keep _ _ ih => exact Nat.succ_le_succ ih

/-- A text is left as it is exactly if it has no link to a figure. -/
theorem Relinked.eq_self_iff (h : Relinked isFigure body fixed) :
    fixed = body ↔ ¬HasFigure isFigure body := by
  induction h with
  | nil =>
    refine iff_of_true rfl ?_
    rintro ⟨front, target, tail, hbody, -⟩
    cases front <;> cases hbody
  | @link target rest fixed hfigure hrest _ =>
    refine iff_of_false (fun heq => ?_) (fun hnone => hnone ⟨[], target, rest, rfl, hfigure⟩)
    have hlength := congrArg List.length heq
    have hle := hrest.length_le
    simp only [List.length_append, List.length_cons] at hlength
    omega
  | keep hnone _ ih => rw [List.cons.injEq, hasFigure_cons hnone, ← ih, eq_self, true_and]

theorem Relinked.congr {other : List Char → Prop} (hiff : ∀ target, isFigure target ↔ other target)
    (h : Relinked isFigure body fixed) : Relinked other body fixed := by
  have heq : isFigure = other := funext fun target => propext (hiff target)
  rwa [← heq]

end Relinking

section Names

/-- The directory of the figures of a page, after the name of the page. -/
def figureFolder : List Char := "_files/figure-markdown_strict/".toList

/-- A figure of a page by its name as it is written. -/
def OwnFigure (stem : String) (target : List Char) : Prop :=
  stem.toList ++ figureFolder <+: target ∧ ')' ∉ target

/-- A figure of a page by its name as it is read. -/
def ReadFigure (stem : String) (target : List Char) : Prop :=
  ∃ name more, covers stem.toList name = true ∧ ')' ∉ more ∧ target = name ++ figureFolder ++ more

/-- Whether a character stands for itself and nothing else. -/
def isPlain (c : Char) : Bool := c ≠ '.' && c ≠ '^' && c ≠ '$'

theorem stands_plain {p : Char} (h : isPlain p = true) (c : Char) :
    stands p c = true ↔ c = p := by
  simp only [isPlain, ne_eq, Bool.and_eq_true, decide_eq_true_eq] at h
  obtain ⟨⟨hdot, hstart⟩, hfinish⟩ := h
  simp [stands, hdot, hstart, hfinish, eq_comm]

theorem covers_plain {ps : List Char} (h : ∀ p ∈ ps, isPlain p = true) (name : List Char) :
    covers ps name = true ↔ name = ps := by
  induction ps generalizing name with
  | nil => cases name <;> simp [covers]
  | cons p ps ih =>
    obtain ⟨hp, hps⟩ := List.forall_mem_cons.mp h
    cases name with
    | nil => simp [covers]
    | cons c name => rw [covers, Bool.and_eq_true, stands_plain hp, ih hps, List.cons.injEq]

theorem covers_append {ps qs name : List Char} :
    covers (ps ++ qs) name = true ↔
      ∃ front back, name = front ++ back ∧ covers ps front = true ∧ covers qs back = true := by
  induction ps generalizing name with
  | nil =>
    constructor
    · intro h
      exact ⟨[], name, rfl, rfl, h⟩
    · rintro ⟨front, back, rfl, hfront, hback⟩
      cases front with
      | nil => exact hback
      | cons => cases hfront
  | cons p ps ih =>
    cases name with
    | nil =>
      refine iff_of_false (by simp [covers]) ?_
      rintro ⟨front, back, hname, hfront, -⟩
      cases front with
      | nil => cases hfront
      | cons => cases hname
    | cons c name =>
      rw [List.cons_append, covers, Bool.and_eq_true, ih]
      constructor
      · rintro ⟨hc, front, back, rfl, hfront, hback⟩
        exact ⟨c :: front, back, rfl, by rw [covers, hc, hfront]; rfl, hback⟩
      · rintro ⟨front, back, hname, hfront, hback⟩
        cases front with
        | nil => cases hfront
        | cons d front =>
          cases hname
          rw [covers, Bool.and_eq_true] at hfront
          exact ⟨hfront.1, front, back, rfl, hfront.2, hback⟩

theorem figureFolder_plain : ∀ c ∈ figureFolder, isPlain c = true :=
  List.all_eq_true.mp (all_ofList rfl)

theorem figureFolder_simple : ∀ c ∈ figureFolder, isSimple c = true :=
  List.all_eq_true.mp (all_ofList rfl)

theorem covers_figureFolder {name : List Char} :
    covers (stem.toList ++ figureFolder) name = true ↔
      ∃ front, name = front ++ figureFolder ∧ covers stem.toList front = true := by
  rw [covers_append]
  constructor
  · rintro ⟨front, back, rfl, hfront, hback⟩
    rw [(covers_plain figureFolder_plain back).mp hback]
    exact ⟨front, rfl, hfront⟩
  · rintro ⟨front, rfl, hfront⟩
    exact ⟨front, figureFolder, rfl, hfront, (covers_plain figureFolder_plain _).mpr rfl⟩

end Names

section Figures

variable (hstem : ∀ c ∈ stem.toList, isSimple c = true)

include hstem

theorem figureLink_eq :
    figureLink stem = .ok ⟨linkPattern (stem.toList ++ figureFolder), 1⟩ := by
  have htext : "\\((".toList ++ stem.toList ++ "_files/figure-markdown_strict/[^)]*)\\)".toList =
      linkText (stem.toList ++ figureFolder) := by
    rw [linkText, List.append_assoc, List.append_assoc, List.append_assoc]
    rfl
  rw [figureLink, htext, read_linkText]
  intro c hc
  exact (List.mem_append.mp hc).elim (hstem c) (figureFolder_simple c)

theorem showFigures_relinked (body : List Char) :
    ∃ fixed, showFigures stem body = .ok fixed ∧ Relinked (ReadFigure stem) body fixed := by
  refine ⟨_, by rw [showFigures, figureLink_eq hstem]; rfl, ?_⟩
  refine Pattern.substitute_induction ?_ .nil ?_ ?_ body
  · intro s t hrun
    obtain ⟨name, more, rest, -, -, hafter, hoffset, -⟩ := exists_of_run_linkPattern hrun
    rw [hoffset, hafter]
    simp only [List.length_cons, List.length_append]
    omega
  · intro before offset c cs out hrun hout
    refine .keep ?_ hout
    rintro target tail hcs ⟨name, more, hname, hmore, rfl⟩
    have hcovers := covers_figureFolder.mpr ⟨name, rfl, hname⟩
    rw [List.append_assoc] at hcs
    obtain ⟨t, hsome, -⟩ := run_linkPattern_of_covers (s := ⟨before, offset, c :: cs, [], []⟩)
      hcovers hmore hcs
    cases hrun.symm.trans hsome
  · intro before offset as cs t out has hrun hoffset hout
    obtain ⟨name, more, rest, hcovers, hmore, hafter, hend, hgroup⟩ :=
      exists_of_run_linkPattern hrun
    obtain ⟨front, rfl, hfront⟩ := covers_figureFolder.mp hcovers
    have hsplit : as ++ cs = ('(' :: (front ++ figureFolder ++ more ++ [')'])) ++ rest := by
      simpa using hafter
    have hlength : as.length = ('(' :: (front ++ figureFolder ++ more ++ [')'])).length := by
      simp only [hoffset] at hend
      simp only [List.length_cons, List.length_append, List.length_nil] at hend ⊢
      omega
    obtain ⟨rfl, rfl⟩ := List.append_inj hsplit hlength
    have hfigure : ReadFigure stem (front ++ figureFolder ++ more) :=
      ⟨front, more, hfront, hmore, rfl⟩
    simpa [hgroup] using Relinked.link hfigure hout

theorem not_mem_figure {c : Char} (hc : isSimple c = false) : c ∉ stem.toList ++ figureFolder := by
  intro hmem
  rw [(List.mem_append.mp hmem).elim (hstem c) (figureFolder_simple c)] at hc
  cases hc

end Figures

theorem ne_of_covers {ps name : List Char} (h : covers ps name = true) :
    ∀ p ∈ ps, p ≠ '^' ∧ p ≠ '$' := by
  induction ps generalizing name with
  | nil => exact List.forall_mem_nil _
  | cons p ps ih =>
    cases name with
    | nil => cases h
    | cons c name =>
      rw [covers, Bool.and_eq_true] at h
      refine List.forall_mem_cons.mpr ⟨?_, ih h.2⟩
      constructor
      · rintro rfl
        cases h.1
      · rintro rfl
        cases h.1

/-- A name with another character in place of a point. -/
def dashed (ps : List Char) : List Char := ps.map fun p => if p = '.' then '-' else p

theorem covers_dashed {ps : List Char} (h : ∀ p ∈ ps, p ≠ '^' ∧ p ≠ '$') :
    covers ps (dashed ps) = true := by
  induction ps with
  | nil => rfl
  | cons p ps ih =>
    obtain ⟨⟨hstart, hfinish⟩, hps⟩ := List.forall_mem_cons.mp h
    have hp : stands p (if p = '.' then '-' else p) = true := by
      by_cases hdot : p = '.'
      · rw [hdot]
        rfl
      · simp [stands, hdot, hstart, hfinish]
    change (stands p (if p = '.' then '-' else p) && covers ps (dashed ps)) = true
    rw [hp, ih hps]
    rfl

theorem mem_of_mem_dashed {ps : List Char} {c : Char} (h : c ∈ dashed ps) : c = '-' ∨ c ∈ ps := by
  obtain ⟨p, hp, rfl⟩ := List.mem_map.mp h
  split
  · exact .inl rfl
  · exact .inr hp

/-- The name of a page is taken as it is written exactly if none of its characters stands for
others or for a place. -/
theorem relinked_own_iff (hstem : ∀ c ∈ stem.toList, isSimple c = true) :
    (∀ body fixed, showFigures stem body = .ok fixed → Relinked (OwnFigure stem) body fixed) ↔
      ∀ c ∈ stem.toList, isPlain c = true := by
  constructor
  · intro h
    have hsame (body : List Char) :
        HasFigure (ReadFigure stem) body ↔ HasFigure (OwnFigure stem) body := by
      obtain ⟨fixed, hfixed, hread⟩ := showFigures_relinked hstem body
      have hown := h body fixed hfixed
      rw [← Classical.not_not (a := HasFigure _ body), ← hread.eq_self_iff, hown.eq_self_iff,
        Classical.not_not]
    -- its own figure is found, so no character stands for a place
    have hplaces : ∀ c ∈ stem.toList, c ≠ '^' ∧ c ≠ '$' := by
      have hown : HasFigure (OwnFigure stem) ('(' :: (stem.toList ++ figureFolder ++ [')'])) :=
        ⟨[], _, [], rfl, List.prefix_rfl, not_mem_figure hstem rfl⟩
      obtain ⟨-, -, -, -, name, -, hname, -⟩ := (hsame _).mpr hown
      exact ne_of_covers hname
    -- no figure is found under another name, so no character stands for others
    have hdashed : dashed stem.toList = stem.toList := by
      have hread : HasFigure (ReadFigure stem)
          ('(' :: (dashed stem.toList ++ figureFolder ++ [')'])) :=
        ⟨[], _, [], rfl, dashed stem.toList, [], covers_dashed hplaces, List.not_mem_nil, by simp⟩
      obtain ⟨front, target, tail, hbody, ⟨more, rfl⟩, -⟩ := (hsame _).mp hread
      cases front with
      | nil =>
        have hnames : dashed stem.toList ++ (figureFolder ++ [')']) =
            stem.toList ++ (figureFolder ++ (more ++ ')' :: tail)) := by
          simpa using hbody
        exact (List.append_inj hnames (List.length_map _)).1
      | cons d front =>
        have hmem : '(' ∈ dashed stem.toList ++ figureFolder ++ [')'] := by
          rw [(List.cons.inj hbody).2]
          simp
        simp only [List.mem_append, List.mem_singleton, Char.reduceEq, or_false] at hmem
        rcases hmem with hmem | hmem
        · rcases mem_of_mem_dashed hmem with heq | hmem
          · cases heq
          · cases hstem _ hmem
        · cases figureFolder_simple _ hmem
    intro c hc
    have hdot : c ≠ '.' := by
      rintro rfl
      rw [← hdashed] at hc
      obtain ⟨p, -, hp⟩ := List.mem_map.mp hc
      by_cases hpoint : p = '.'
      · rw [if_pos hpoint] at hp
        cases hp
      · rw [if_neg hpoint] at hp
        exact hpoint hp
    simp [isPlain, hdot, hplaces c hc]
  · intro hplain body fixed hfixed
    obtain ⟨fixed', hfixed', hread⟩ := showFigures_relinked hstem body
    cases hfixed.symm.trans hfixed'
    refine hread.congr fun target => ?_
    constructor
    · rintro ⟨name, more, hname, hmore, rfl⟩
      rw [(covers_plain hplain name).mp hname]
      exact ⟨List.prefix_append _ _, fun hmem =>
        (List.mem_append.mp hmem).elim (not_mem_figure hstem rfl) hmore⟩
    · rintro ⟨⟨more, rfl⟩, hmem⟩
      exact ⟨stem.toList, more, (covers_plain hplain _).mpr rfl,
        fun hmore => hmem (List.mem_append_right _ hmore), rfl⟩

section Bytes

variable {cs : List Char}

/-- A text that has bytes: no character of it is a half. -/
def HasBytes (cs : List Char) : Prop := ∀ c ∈ cs, half? c = none

theorem firstHalves?_eq_none (place : Nat) (h : HasBytes cs) : firstHalves? place cs = none := by
  induction cs generalizing place with
  | nil => rfl
  | cons c cs ih =>
    obtain ⟨hc, hcs⟩ := List.forall_mem_cons.mp h
    rw [firstHalves?, hc]
    exact ih (place + 1) hcs

theorem hasBytes_of_all (h : cs.all (fun c => (half? c).isNone) = true) : HasBytes cs := by
  intro c hc
  simpa using List.all_eq_true.mp h c hc

theorem hasBytes_ofList (h : cs.all (fun c => (half? c).isNone) = true) :
    HasBytes (String.ofList cs).toList := hasBytes_of_all (all_ofList h)

theorem HasBytes.append {ds : List Char} (h : HasBytes cs) (hds : HasBytes ds) :
    HasBytes (cs ++ ds) := List.forall_mem_append.mpr ⟨h, hds⟩

theorem HasBytes.of_isInfix {ds : List Char} (h : HasBytes cs) (hds : ds <:+: cs) : HasBytes ds :=
  fun c hc => h c (hds.subset hc)

theorem Relinked.hasBytes (h : Relinked isFigure body fixed) (hbody : HasBytes body) :
    HasBytes fixed := by
  induction h with
  | nil => exact hbody
  | link _ _ ih =>
    simp only [HasBytes, List.forall_mem_cons, List.forall_mem_append] at hbody ⊢
    exact ⟨rfl, rfl, rfl, hbody.2.1, rfl, ih hbody.2.2.2⟩
  | keep _ _ ih =>
    obtain ⟨hc, hrest⟩ := List.forall_mem_cons.mp hbody
    exact List.forall_mem_cons.mpr ⟨hc, ih hrest⟩

theorem afterStart?_isInfix {start ahead rest : List Char}
    (h : afterStart? start ahead = some rest) : rest <:+: ahead :=
  ⟨start, [], by rw [afterStart?_eq_some.mp h, List.append_nil]⟩

theorem cut_isInfix {start needle ahead rest content tail : List Char}
    (hstart : afterStart? start ahead = some rest)
    (hcut : cutAt? needle rest = some (content, tail)) : content <:+: ahead :=
  ⟨start, needle ++ tail, by
    rw [afterStart?_eq_some.mp hstart, cutAt?_eq_some hcut, List.append_assoc]⟩

theorem hasBytes_outputChar {c : Char} (h : half? c = none) : HasBytes (outputChar c) := by
  unfold outputChar
  split
  · exact hasBytes_of_all rfl
  · exact hasBytes_of_all rfl
  · exact hasBytes_of_all rfl
  · exact hasBytes_of_all rfl
  · exact hasBytes_of_all rfl
  · exact hasBytes_of_all rfl
  · split
    · exact List.forall_mem_cons.mpr ⟨rfl, List.forall_mem_singleton.mpr h⟩
    · exact List.forall_mem_singleton.mpr h

theorem HasBytes.showOutput (h : HasBytes cs) : HasBytes (showOutput cs) := by
  refine forall_mem_substituteFrom ?_ h 0 none
  intro before ahead hit hhit hahead
  obtain ⟨rest, hrest, hhit⟩ := Option.bind_eq_some_iff.mp hhit
  obtain ⟨⟨content, tail⟩, hcut, hhit⟩ := Option.bind_eq_some_iff.mp hhit
  cases hhit
  have hcontent : HasBytes content := HasBytes.of_isInfix hahead (cut_isInfix hrest hcut)
  have htext : HasBytes (outputText content) := by
    intro d hd
    obtain ⟨c, hc, hd⟩ := List.mem_flatMap.mp hd
    exact hasBytes_outputChar (hcontent c hc) d hd
  have hopening : HasBytes outputOpening := hasBytes_ofList rfl
  exact (hopening.append htext).append (hasBytes_of_all rfl)

theorem HasBytes.joinOutput (h : HasBytes cs) : HasBytes (joinOutput cs) := by
  refine forall_mem_substituteFrom ?_ h 0 none
  intro before ahead hit hhit hahead
  obtain ⟨rest, -, hhit⟩ := Option.bind_eq_some_iff.mp hhit
  obtain ⟨tail, -, hhit⟩ := Option.bind_eq_some_iff.mp hhit
  cases hhit
  exact List.forall_mem_nil _

theorem hasBytes_calloutElement (kind : List Char) : HasBytes (calloutElement kind) := by
  unfold calloutElement
  split <;> exact hasBytes_of_all rfl

theorem HasBytes.showAlerts (h : HasBytes cs) : HasBytes (showAlerts cs) := by
  refine forall_mem_substituteFrom ?_ h 0 none
  intro before ahead hit hhit hahead
  obtain ⟨start, hstart, hhit⟩ := Option.bind_eq_some_iff.mp hhit
  obtain ⟨⟨kind, rest⟩, hkind, hhit⟩ := Option.bind_eq_some_iff.mp hhit
  obtain ⟨inner, hinner, hhit⟩ := Option.bind_eq_some_iff.mp hhit
  obtain ⟨⟨content, tail⟩, hcut, hhit⟩ := Option.bind_eq_some_iff.mp hhit
  cases hhit
  have hrest : rest <:+: start := by
    simp only [smallWord?] at hkind
    split at hkind
    · cases hkind
    · cases hkind
      exact (List.drop_suffix _ _).isInfix
  have hcontent : HasBytes content := HasBytes.of_isInfix hahead
    ((cut_isInfix hinner hcut).trans (hrest.trans (afterStart?_isInfix hstart)))
  have helement := hasBytes_calloutElement kind
  simp only [HasBytes, List.forall_mem_cons, List.forall_mem_append, List.cons_append]
    at helement hcontent ⊢
  exact ⟨rfl, ⟨⟨⟨⟨helement, hasBytes_of_all rfl⟩, hcontent⟩, hasBytes_of_all rfl⟩, helement⟩,
    rfl, List.forall_mem_nil _⟩

theorem HasBytes.unguardTags (h : HasBytes cs) : HasBytes (unguardTags cs) := by
  refine forall_mem_substituteFrom ?_ h 0 none
  intro before ahead hit hhit hahead
  obtain ⟨rest, hrest, hhit⟩ := Option.bind_eq_some_iff.mp hhit
  obtain ⟨tail, -, hhit⟩ := Option.bind_eq_some_iff.mp hhit
  cases hhit
  have htag : HasBytes (rest.takeWhile isTagChar) := HasBytes.of_isInfix hahead
    ((List.takeWhile_prefix _).isInfix.trans (afterStart?_isInfix hrest))
  exact List.forall_mem_cons.mpr ⟨rfl, htag.append (hasBytes_of_all rfl)⟩

theorem HasBytes.showOwnLinks (h : HasBytes cs) : HasBytes (showOwnLinks cs) := by
  refine forall_mem_substituteFrom ?_ h 0 none
  intro before ahead hit hhit hahead
  obtain ⟨rest, hrest, hhit⟩ := Option.bind_eq_some_iff.mp hhit
  obtain ⟨⟨target, tail⟩, hcut, hhit⟩ := Option.bind_eq_some_iff.mp hhit
  cases hhit
  have htarget : HasBytes target := by
    rcases Option.or_eq_some_iff.mp hrest with hrest | ⟨-, hrest⟩
    · exact HasBytes.of_isInfix hahead (cut_isInfix hrest hcut)
    · exact HasBytes.of_isInfix hahead (cut_isInfix hrest hcut)
  have hopen : HasBytes "(/".toList := hasBytes_of_all rfl
  exact (hopen.append htarget).append (hasBytes_of_all rfl)

/-- What becomes of a body once its figures are linked. -/
def finishBody (cs : List Char) : List Char :=
  indentMarkup (alignCells (showOwnLinks (unguardTags (showAlerts (joinOutput (showOutput cs))))))

theorem HasBytes.alignCells (h : HasBytes cs) : HasBytes (alignCells cs) := by
  have hcell : HasBytes middleCell := hasBytes_ofList rfl
  have hplain : HasBytes (replace "<td>".toList middleCell cs) :=
    forall_mem_replace (by simp) hcell h
  exact forall_mem_replace (by simp) hcell hplain

theorem HasBytes.indentMarkup (h : HasBytes cs) : HasBytes (indentMarkup cs) := by
  refine forall_mem_replace (by simp) ?_ h
  exact hasBytes_ofList rfl

theorem HasBytes.finishBody (h : HasBytes cs) : HasBytes (finishBody cs) :=
  h.showOutput.joinOutput.showAlerts.unguardTags.showOwnLinks.alignCells.indentMarkup

theorem HasBytes.dedent (h : HasBytes cs) : HasBytes (dedent cs) := by
  refine forall_mem_intercalate (List.forall_mem_singleton.mpr rfl) ?_
  intro l hl c hc
  obtain ⟨short, hshort, rfl⟩ := List.mem_map.mp hl
  obtain ⟨line, hline, rfl⟩ := List.mem_map.mp hshort
  have hmem := List.mem_of_mem_drop hc
  split at hmem
  · cases hmem
  · exact h c (mem_of_mem_splitChar hline hmem)

theorem HasBytes.concat {s t : String} (hs : HasBytes s.toList) (ht : HasBytes t.toList) :
    HasBytes (s ++ t).toList := by
  rw [String.toList_append]
  exact hs.append ht

theorem hasBytes_imageLink {id address source alt : String} (hid : HasBytes id.toList)
    (haddress : HasBytes address.toList) (hsource : HasBytes source.toList)
    (halt : HasBytes alt.toList) : HasBytes (Mdx.imageLink id address source alt).toList := by
  have himage : HasBytes (Mdx.image source alt).toList :=
    ((((hasBytes_of_all rfl).concat hsource).concat (hasBytes_of_all rfl)).concat halt).concat
      (hasBytes_ofList rfl)
  exact ((((((hasBytes_of_all rfl).concat haddress).concat (hasBytes_of_all rfl)).concat hid).concat
    (hasBytes_ofList rfl)).concat himage).concat (hasBytes_of_all rfl)

theorem hasBytes_launchLinks {notebook : String} (h : HasBytes notebook.toList) :
    ∀ link ∈ launchLinks notebook, HasBytes link.toList := by
  have hblob : HasBytes ("pixeltable/pixeltable/blob/release/" ++ notebook).toList :=
    (hasBytes_ofList rfl).concat h
  simp only [launchLinks, List.forall_mem_cons]
  refine ⟨hasBytes_imageLink ?_ (.concat ?_ hblob) ?_ ?_,
    hasBytes_imageLink ?_ (.concat ?_ hblob) ?_ ?_,
    hasBytes_imageLink ?_ (.concat ?_ h) ?_ ?_, List.forall_mem_nil _⟩
  all_goals exact hasBytes_ofList rfl

theorem HasBytes.publishedHead {title notebook : String} (htitle : HasBytes title.toList)
    (hnotebook : HasBytes notebook.toList) : HasBytes (publishedHead title notebook) := by
  have hline : HasBytes ("&nbsp;&nbsp;".intercalate (launchLinks notebook)).toList := by
    rw [String.toList_intercalate]
    refine forall_mem_intercalate (hasBytes_of_all rfl) ?_
    rw [List.forall_mem_map]
    exact hasBytes_launchLinks hnotebook
  have hlines : ∀ line ∈ headLines title notebook, HasBytes line.toList := by
    rw [headLines, List.forall_mem_map]
    refine fun line hmem => (hasBytes_of_all rfl).concat (?_ : HasBytes line.toList)
    revert line
    simp only [List.forall_mem_cons]
    refine ⟨?_, ((?_ : HasBytes _).concat htitle).concat ?_, ?_, ?_, hline, ?_, ?_, ?_, ?_,
      List.forall_mem_nil _⟩
    all_goals exact hasBytes_ofList rfl
  refine HasBytes.append ?_ (hasBytes_of_all rfl)
  refine HasBytes.of_isInfix (HasBytes.dedent ?_) (strip_isInfix _)
  rw [String.toList_intercalate]
  refine forall_mem_intercalate (hasBytes_of_all rfl) ?_
  rwa [List.forall_mem_map]

end Bytes

section Page

variable {k : Desk} {page notebooks : Path} {text : String}

/-- What a page is published from: its title and body, and the notebook that is found for it. -/
structure PageDraft where
  title : List Char
  body : List Char
  parts : List String
  deriving DecidableEq

/-- The path of a notebook in the repository. -/
def notebookPath (parts : List String) : String := "/".intercalate ("docs" :: "notebooks" :: parts)

def PageDraft.head (d : PageDraft) : List Char :=
  publishedHead (String.ofList d.title) (notebookPath d.parts)

/-- The notebooks that have the name of a page, in order. -/
def namesakes (disk : Disk) (notebooks : Path) (stem : String) : List (List String) :=
  disk.matching notebooks.place (stem ++ ".ipynb")

/-- What a page of a disk is published from, if it is. -/
def draft? (disk : Disk) (page notebooks : Path) : Option PageDraft := do
  let text ← disk.fileAt page.place
  let (head, body) ← frontmatter? (plainNewlines text.toList)
  let title ← title? head
  let parts ← (namesakes disk notebooks page.stem).head?
  return ⟨title, body, parts⟩

/-- The last steps of publishing. -/
def writePage (page : Path) (d : PageDraft) : Job Unit := do
  let body ← Job.ofExcept (publishedBody page.stem d.body)
  Job.writeText page.place (d.head ++ body)

theorem search_eq_ok {disk : Disk} {place : List String} {pattern : String} (hsound : disk.IsSound)
    (hname : Disk.isLong pattern = false) :
    disk.search place pattern = .ok (disk.matching place pattern) := by
  have hcheck (hdir : disk.isDir place = true) : Disk.checkNames (place ++ [pattern]) = .ok () := by
    have hfind : disk.find? place = some .dir := by simpa [Disk.isDir] using hdir
    have hplace := Disk.checkPlace_eq_ok_iff.mp (hsound.named place (by simp [Disk.exists?, hfind]))
    rw [Disk.checkNames_eq_ok_iff, List.forall_mem_append]
    exact ⟨fun s hs => (hplace s hs).2.2, List.forall_mem_singleton.mpr hname⟩
  unfold Disk.search
  simp only
  split
  · rename_i hcond
    rw [hcheck (Bool.and_eq_true_iff.mp hcond).2]
    rfl
  · rfl

/-- How a page is published that can be read, if its notebooks can be searched for. -/
theorem result_publish (notebooks : Path) (hsound : k.disk.IsSound)
    (hfile : k.disk.fileAt page.place = some text)
    (hstars : Text.contains ['*', '*'] page.stem.toList = false)
    (hname : Disk.isLong (page.stem ++ ".ipynb") = false) :
    match draft? k.disk page notebooks with
    | none => ∃ k', (publish page notebooks).result k = (.ok (), k') ∧ k'.disk = k.disk
    | some d => (publish page notebooks).result k = (writePage page d).result k := by
  have htext : (Job.readText page.place).result k = (.ok (plainNewlines text.toList), k) := by
    rw [Job.readText, Job.bind_of_ok (Job.result_disk k), hsound.read_eq hfile]
    rfl
  rw [draft?, hfile]
  unfold publish
  rw [Job.bind_of_ok htext]
  simp only [Option.bind_eq_bind, Option.bind_some]
  cases frontmatter? (plainNewlines text.toList) with
  | none => exact ⟨_, rfl, rfl⟩
  | some pair =>
    obtain ⟨head, body⟩ := pair
    cases htitle : title? head with
    | none =>
      simp only [Option.bind_some, htitle, Option.bind_none]
      exact ⟨_, rfl, rfl⟩
    | some title =>
      simp only [Option.bind_some, htitle, hstars, Bool.false_eq_true, if_false]
      rw [Job.bind_of_ok (Job.result_disk k),
        Job.bind_of_ok (Job.ofExcept_eq_ok.mpr ⟨search_eq_ok hsound hname, rfl⟩), ← namesakes]
      cases namesakes k.disk notebooks page.stem with
      | nil => exact ⟨_, rfl, rfl⟩
      | cons parts others => rfl

theorem not_contains_stars {cs : List Char} (h : '*' ∉ cs) :
    Text.contains ['*', '*'] cs = false := by
  rw [Bool.eq_false_iff, Ne, contains_iff_isInfix]
  exact fun hinside => h (hinside.subset List.mem_cons_self)

theorem frontmatter?_eq_some {cs head body : List Char} (h : frontmatter? cs = some (head, body)) :
    head <:+: cs ∧ body <:+: cs := by
  obtain ⟨rest, hrest, hcut⟩ := Option.bind_eq_some_iff.mp h
  have hcs : cs = "---\n".toList ++ (head ++ ("\n---\n".toList ++ body)) := by
    rw [afterStart?_eq_some.mp hrest, cutAt?_eq_some hcut]
  constructor
  · exact cut_isInfix hrest hcut
  · rw [hcs, ← List.append_assoc, ← List.append_assoc]
    exact (List.suffix_append _ _).isInfix

theorem titleAfter?_isInfix {cs title : List Char} (h : titleAfter? cs = some title) :
    title <:+: cs := by
  simp only [titleAfter?] at h
  split at h
  · cases h
    have hline : (stripLeft cs).takeWhile (· ≠ '\n') <:+: cs :=
      (List.takeWhile_prefix _).isInfix.trans (List.dropWhile_suffix _).isInfix
    exact (stripWhere_isInfix _ _).trans ((strip_isInfix _).trans hline)
  · split at h
    · cases h
      exact List.nil_infix
    · cases h

theorem titleFrom?_isInfix {fresh : Bool} {cs title : List Char}
    (h : titleFrom? fresh cs = some title) : title <:+: cs := by
  induction cs generalizing fresh with
  | nil => cases h
  | cons c cs ih =>
    rw [titleFrom?] at h
    rcases Option.or_eq_some_iff.mp h with h | ⟨-, h⟩
    · split at h
      · obtain ⟨rest, hrest, htitle⟩ := Option.bind_eq_some_iff.mp h
        exact (titleAfter?_isInfix htitle).trans (afterStart?_isInfix hrest)
      · cases h
    · exact (ih h).trans (List.suffix_cons c cs).isInfix

theorem hasBytes_plainNewlines {cs : List Char} (h : HasBytes cs) :
    HasBytes (plainNewlines cs) := by
  fun_induction plainNewlines cs with
  | case1 => exact h
  | case2 cs ih =>
    simp only [HasBytes, List.forall_mem_cons] at h ih ⊢
    exact ⟨rfl, ih h.2.2⟩
  | case3 c cs _ ih =>
    simp only [HasBytes, List.forall_mem_cons] at h ih ⊢
    refine ⟨?_, ih h.2⟩
    split
    · rfl
    · exact h.1

theorem hasBytes_notebookPath {parts : List String} (h : ∀ s ∈ parts, HasBytes s.toList) :
    HasBytes (notebookPath parts).toList := by
  rw [notebookPath, String.toList_intercalate]
  refine forall_mem_intercalate (hasBytes_of_all rfl) ?_
  simp only [List.map_cons, List.forall_mem_cons, List.forall_mem_map]
  exact ⟨hasBytes_of_all rfl, hasBytes_of_all rfl, h⟩

theorem draft?_hasBytes {d : PageDraft} (hdraft : draft? k.disk page notebooks = some d)
    (hfile : k.disk.fileAt page.place = some text) (htext : HasBytes text.toList)
    (hparts : ∀ parts ∈ namesakes k.disk notebooks page.stem, ∀ s ∈ parts, HasBytes s.toList) :
    HasBytes d.head ∧ HasBytes d.body := by
  simp only [draft?, hfile, Option.bind_eq_bind, Option.bind_some] at hdraft
  obtain ⟨⟨head, body⟩, hfront, hdraft⟩ := Option.bind_eq_some_iff.mp hdraft
  obtain ⟨title, htitle, hdraft⟩ := Option.bind_eq_some_iff.mp hdraft
  obtain ⟨parts, hhead, hdraft⟩ := Option.bind_eq_some_iff.mp hdraft
  cases hdraft
  have hplain := hasBytes_plainNewlines htext
  obtain ⟨hinhead, hinbody⟩ := frontmatter?_eq_some hfront
  have hpath := hasBytes_notebookPath (hparts parts (List.mem_of_head? hhead))
  refine ⟨HasBytes.publishedHead ?_ hpath, hplain.of_isInfix hinbody⟩
  rw [String.toList_ofList]
  exact hplain.of_isInfix ((titleFrom?_isInfix htitle).trans hinhead)

/-- A name that cannot be read as a pattern keeps a page from being published. -/
theorem publish_of_unreadable_name {d : PageDraft} (hsound : k.disk.IsSound)
    (hfile : k.disk.fileAt page.place = some text)
    (hstars : Text.contains ['*', '*'] page.stem.toList = false)
    (hname : Disk.isLong (page.stem ++ ".ipynb") = false)
    (hdraft : draft? k.disk page notebooks = some d)
    (hlink : (figureLink page.stem).isOk = false) :
    ∃ halt, ((publish page notebooks).result k).1 = .error halt := by
  have hresult := result_publish notebooks hsound hfile hstars hname
  simp only [hdraft] at hresult
  cases hread : figureLink page.stem with
  | ok link =>
    rw [hread] at hlink
    cases hlink
  | error fault =>
    have hbody : publishedBody page.stem d.body = .error fault := by
      rw [publishedBody, showFigures, hread]
      rfl
    refine ⟨.failed fault, ?_⟩
    rw [hresult, writePage, hbody]
    rfl

/-- A page whose name stands for itself as far as a pattern goes is published without a failure. -/
theorem publish_relinks {page notebooks : Path} (hsound : k.disk.IsSound)
    (hfile : k.disk.fileAt page.place = some text) (htext : HasBytes text.toList)
    (hstem : ∀ c ∈ page.stem.toList, isSimple c = true)
    (hname : Disk.isLong (page.stem ++ ".ipynb") = false)
    (hparts : ∀ parts ∈ namesakes k.disk notebooks page.stem, ∀ s ∈ parts, HasBytes s.toList) :
    ∃ k', (publish page notebooks).result k = (.ok (), k') ∧
      match draft? k.disk page notebooks with
      | none => k'.disk = k.disk
      | some d => ∃ fixed, showFigures page.stem d.body = .ok fixed ∧
          Relinked (ReadFigure page.stem) d.body fixed ∧
          k'.disk = k.disk.put page.place (.file (String.ofList (d.head ++ finishBody fixed))) := by
  have hstars : Text.contains ['*', '*'] page.stem.toList = false :=
    not_contains_stars fun hmem => absurd (hstem _ hmem) (by decide)
  have hresult := result_publish notebooks hsound hfile hstars hname
  cases hdraft : draft? k.disk page notebooks with
  | none => simpa only [hdraft] using hresult
  | some d =>
    simp only [hdraft] at hresult ⊢
    obtain ⟨fixed, hfixed, hrelinked⟩ := showFigures_relinked hstem d.body
    obtain ⟨hhead, hbody⟩ := draft?_hasBytes hdraft hfile htext hparts
    have hpage : publishedBody page.stem d.body = .ok (finishBody fixed) := by
      rw [publishedBody, hfixed]
      rfl
    have hbytes : HasBytes (d.head ++ finishBody fixed) :=
      hhead.append (hrelinked.hasBytes hbody).finishBody
    refine ⟨k.withDisk (k.disk.put page.place (.file (String.ofList (d.head ++ finishBody fixed)))),
      ?_, fixed, hfixed, hrelinked, rfl⟩
    rw [hresult, writePage, Job.bind_of_ok (Job.ofExcept_eq_ok.mpr ⟨hpage, rfl⟩),
      Job.result_writeText fun new => hsound.write_eq hfile new, firstHalves?_eq_none 0 hbytes]

/-- A page with a simple name is published whatever its body holds, and the links that its name
covers start at its directory then. These are the links to its own figures exactly if its name has
only characters that stand for themselves. -/
theorem publish_relinks_figures (page notebooks : Path) (hsound : k.disk.IsSound)
    (hfile : k.disk.fileAt page.place = some text) (htext : HasBytes text.toList)
    (hstem : ∀ c ∈ page.stem.toList, isSimple c = true)
    (hname : Disk.isLong (page.stem ++ ".ipynb") = false)
    (hparts : ∀ parts ∈ namesakes k.disk notebooks page.stem, ∀ s ∈ parts, HasBytes s.toList) :
    (∃ k', (publish page notebooks).result k = (.ok (), k') ∧
      match draft? k.disk page notebooks with
      | none => k'.disk = k.disk
      | some d => ∃ fixed, showFigures page.stem d.body = .ok fixed ∧
          Relinked (ReadFigure page.stem) d.body fixed ∧
          k'.disk = k.disk.put page.place (.file (String.ofList (d.head ++ finishBody fixed)))) ∧
      ((∀ body fixed, showFigures page.stem body = .ok fixed →
          Relinked (OwnFigure page.stem) body fixed) ↔
        ∀ c ∈ page.stem.toList, isPlain c = true) :=
  ⟨publish_relinks hsound hfile htext hstem hname hparts, relinked_own_iff hstem⟩

/-- A page and its notebook. -/
def pageDisk (name text : String) : Disk :=
  { nodes := [(["n"], .dir), (["n", name ++ ".ipynb"], .file ""), (["p"], .dir),
      (["p", name ++ ".mdx"], .file text)] }

theorem isSound_pageDisk {name : String} (text : String)
    (hname : Disk.checkPlace [name ++ ".ipynb", name ++ ".mdx"] = .ok ()) :
    (pageDisk name text).IsSound := by
  have hdirs := Disk.checkPlace_eq_ok_iff.mp (rfl : Disk.checkPlace ["n", "p"] = .ok ())
  rw [Disk.checkPlace_eq_ok_iff] at hname
  simp only [List.forall_mem_cons] at hname hdirs
  apply Disk.isSound_of_nodes
  simp only [pageDisk, List.forall_mem_cons, Disk.checkPlace_eq_ok_iff]
  refine ⟨⟨⟨hdirs.1, List.forall_mem_nil _⟩, ?_⟩,
    ⟨⟨hdirs.1, hname.1, List.forall_mem_nil _⟩, ?_⟩, ⟨⟨hdirs.2.1, List.forall_mem_nil _⟩, ?_⟩,
    ⟨⟨hdirs.2.1, hname.2.1, List.forall_mem_nil _⟩, ?_⟩, List.forall_mem_nil _⟩
  all_goals simp [Disk.upTo, Disk.isDir, Disk.find?, Disk.lookup]

theorem publish_relinks_figures_onePage :
    let disk := pageDisk "a" "---\ntitle: T\n---\n(a_files/figure-markdown_strict/x)"
    let page : Path := ⟨"/", ["p", "a.mdx"]⟩
    disk.IsSound ∧ (∀ c ∈ page.stem.toList, isSimple c = true) ∧ ∃ k' fixed,
      (publish page ⟨"/", ["n"]⟩).result (Desk.on disk) = (.ok (), k') ∧
      Relinked (ReadFigure page.stem) "(a_files/figure-markdown_strict/x)".toList fixed := by
  intro disk page
  have hsound : disk.IsSound := isSound_pageDisk _ rfl
  have hstem : ∀ c ∈ page.stem.toList, isSimple c = true :=
    List.all_eq_true.mp (by decide +kernel)
  have hname : Disk.isLong (page.stem ++ ".ipynb") = false := by decide +kernel
  have hfile : disk.fileAt page.place =
      some "---\ntitle: T\n---\n(a_files/figure-markdown_strict/x)" := by decide +kernel
  have hnames : namesakes disk ⟨"/", ["n"]⟩ page.stem = [["a.ipynb"]] := by decide +kernel
  have hdraft : draft? disk page ⟨"/", ["n"]⟩ =
      some ⟨['T'], "(a_files/figure-markdown_strict/x)".toList, ["a.ipynb"]⟩ := by decide +kernel
  have hparts : ∀ parts ∈ namesakes disk ⟨"/", ["n"]⟩ page.stem, ∀ s ∈ parts,
      HasBytes s.toList := by
    rw [hnames]
    simp only [List.forall_mem_cons]
    exact ⟨⟨hasBytes_of_all rfl, List.forall_mem_nil _⟩, List.forall_mem_nil _⟩
  have hmade := publish_relinks_figures (k := Desk.on disk) page ⟨"/", ["n"]⟩ hsound hfile
    (hasBytes_ofList rfl) hstem hname hparts
  rw [show (Desk.on disk).disk = disk from rfl, hdraft] at hmade
  obtain ⟨⟨k', hresult, fixed, -, hrelinked, -⟩, -⟩ := hmade
  exact ⟨hsound, hstem, k', fixed, hresult, hrelinked⟩

/-- Parentheses in the name of a page leave the links to its figures as they are, one that is not
closed keeps it from being published, and a point in the name stands for others. -/
theorem publish_misreads_name :
    showFigures "intro (1)" "(intro (1)_files/figure-markdown_strict/a.png)".toList =
      .ok "(intro (1)_files/figure-markdown_strict/a.png)".toList ∧
    (∃ halt, ((publish ⟨"/", ["p", "a(.mdx"]⟩ ⟨"/", ["n"]⟩).result
      (Desk.on (pageDisk "a(" "---\ntitle: T\n---\n"))).1 = .error halt) ∧
      ∃ body fixed, showFigures "a.b" body = .ok fixed ∧
        ¬Relinked (OwnFigure "a.b") body fixed := by
  refine ⟨?_, ?_, ?_⟩
  · exact Attempt.eq_ok_of_toOption (by decide +kernel)
  · refine publish_of_unreadable_name (isSound_pageDisk _ rfl)
      (?_ : _ = some "---\ntitle: T\n---\n") ?_ ?_ (?_ : _ = some ⟨['T'], [], ["a(.ipynb"]⟩) ?_
    all_goals decide +kernel
  · have hsimple : ∀ c ∈ "a.b".toList, isSimple c = true := List.all_eq_true.mp rfl
    have hplain : ¬∀ c ∈ "a.b".toList, isPlain c = true := by
      intro h
      cases h '.' (by simp)
    rw [← relinked_own_iff hsimple] at hplain
    simpa only [Classical.not_forall, exists_prop] using hplain

end Page

end DocSite.Notebook
