import DocSite.Proofs.Notebook.Run

/-!
What a run makes good that follows one that has failed. Whether a page is due is told by its age
only. A page that the renderer has written is not due any more, so that it stays as it is, published
or not.
-/

namespace DocSite.Notebook

section Failure

variable {c : Conversion} {k k' : Desk} {halt : Halt} {due : List (List String)}

/-- Where publishing fails: the pages before it are done, those after it are not looked at. -/
theorem publishAll_eq_error (h : (c.publishAll due).result k = (.error halt, k')) :
    ∃ done bad rest k₁, due = done ++ bad :: rest ∧
      (c.publishAll done).result k = (.ok (), k₁) ∧
      (publish (c.pageOf bad) c.notebooks).result k₁ = (.error halt, k') := by
  induction due generalizing k with
  | nil => cases h
  | cons p due ih =>
    rcases hp : (publish (c.pageOf p) c.notebooks).result k with ⟨halt' | u, k₁⟩
    · have herror : (c.publishAll (p :: due)).result k = (.error halt', k₁) := Job.bind_of_error hp
      cases herror.symm.trans h
      exact ⟨[], p, due, k, rfl, rfl, hp⟩
    · have hrest : (c.publishAll (p :: due)).result k = (c.publishAll due).result k₁ :=
        Job.bind_of_ok hp
      obtain ⟨done, bad, rest, k₂, rfl, hdone, hbad⟩ := ih (hrest.symm.trans h)
      exact ⟨p :: done, bad, rest, k₂, rfl, (Job.bind_of_ok hp).trans hdone, hbad⟩

theorem rewritten_put (hfit : c.IsFit k.disk) {p : List String} (hp : ".." ∉ p)
    {places : List (List String)} (hplace : (c.pageOf p).place ∈ places) (d : Disk)
    (text : String) :
    Disk.Rewritten c.output.place places d (d.put (c.pageOf p).place (.file text)) := by
  refine .put hplace ?_ (ne_nil_of_apart (hfit.apart_page hp)) d text
  rw [c.pageOf_place hp]
  exact List.prefix_append _ _

theorem rewritten_publishAll (hfit : c.IsFit k.disk) (hdue : ∀ p ∈ due, ".." ∉ p)
    {places : List (List String)} (hplaces : ∀ p ∈ due, (c.pageOf p).place ∈ places) :
    (c.publishAll due).Changes (Disk.Rewritten c.output.place places) :=
  changes_publishAll fun p hp => rewritten_put hfit (hdue p hp) (hplaces p hp)

/-- Publishing that fails has changed only the pages it came to. -/
theorem publishAll_tried (hfit : c.IsFit k.disk) {k₁ : Desk}
    (h : (c.publishAll (c.due k.disk)).result k₁ = (.error halt, k')) :
    ∃ tried, tried <+: c.due k.disk ∧
      Disk.Rewritten c.output.place (tried.map fun p => (c.pageOf p).place) k₁.disk k'.disk := by
  obtain ⟨done, bad, rest, k₂, hdue, hdone, hbad⟩ := publishAll_eq_error h
  have htried : done ++ [bad] <+: c.due k.disk := ⟨rest, by rw [hdue, List.append_assoc]; rfl⟩
  have hup : ∀ p ∈ done ++ [bad], ".." ∉ p := fun p hp => hfit.of_due p (htried.subset hp)
  have hplaces : ∀ p ∈ done ++ [bad], (c.pageOf p).place ∈
      (done ++ [bad]).map fun p => (c.pageOf p).place := fun _ => List.mem_map_of_mem
  simp only [List.forall_mem_append, List.forall_mem_singleton] at hup hplaces
  have hbefore := (rewritten_publishAll hfit hup.1 hplaces.1).of_result hdone
  have hlast := (changes_publish (rewritten_put hfit hup.2 hplaces.2)).of_result hbad
  exact ⟨done ++ [bad], htried, Disk.IsChange.trans hbefore hlast⟩

/-- What a run leaves that fails: no pages but those that were there, or the pages of the renderer,
of which those that publishing came to may have changed. -/
theorem run_eq_error (hfit : c.IsFit k.disk) (hrun : c.run.result k = (.error halt, k')) :
    c.Prepared k k' ∨ k'.commands ≠ k.commands ∧ ∃ d tried, tried <+: c.due k.disk ∧
      (c.renderer.failure? ≠ none → tried = []) ∧
      (∀ q, d.fileAt (c.output.place ++ q) =
        (Tree.ofFiles c.renderer.pages q).or (k.disk.fileAt (c.output.place ++ q))) ∧
      Disk.Rewritten c.output.place (tried.map fun p => (c.pageOf p).place) d k'.disk := by
  rcases stage_run hfit with ⟨hprep, -⟩ | ⟨k₀, hprep, hresult⟩
  · rw [hrun] at hprep
    exact .inl hprep
  refine .inr ?_
  obtain ⟨k₁, hcommands, hdisk, ⟨hfailure, halt', hpages⟩ | ⟨hnone, line, hpages⟩⟩ :=
    makePages_result c (c.due k.disk) k₀
  all_goals
    rw [← hresult, hrun] at hpages
    rw [hprep.commands] at hcommands
    have hfiles := fun q => hdisk ▸ hprep.fileAt_layOut q
  · cases hpages
    exact ⟨hcommands, k'.disk, [], List.nil_prefix, fun _ => rfl, hfiles, Disk.IsChange.refl _⟩
  · rcases hpublish : (c.publishAll (c.due k.disk)).result k₁ with ⟨halt' | u, k₂⟩
    · cases hpages.trans (Job.bind_of_error hpublish)
      obtain ⟨tried, htried, hchange⟩ := publishAll_tried hfit hpublish
      have hquiet : k'.commands = k₁.commands :=
        (sameApart_publishAll hfit.of_due).quiet.eq hpublish
      exact ⟨hquiet ▸ hcommands, k₁.disk, tried, htried, fun h => absurd hnone h, hfiles, hchange⟩
    · cases hpages.trans (Job.bind_of_ok hpublish)

end Failure

section Rerun

variable {c : Conversion} {k k' : Desk} {parts : List String}

/-- A file that is neither the page of a notebook that was due nor written by the renderer stays as
it is. -/
theorem fileAt_run {u : Unit} {q : List String} (hfit : c.IsFit k.disk)
    (hrun : c.run.result k = (.ok u, k'))
    (hdue : ∀ p ∈ c.due k.disk, c.output.place ++ q ≠ (c.pageOf p).place)
    (hpages : ∀ f ∈ c.renderer.pages, f.1 ≠ q) :
    k'.disk.fileAt (c.output.place ++ q) = k.disk.fileAt (c.output.place ++ q) := by
  rcases run_eq_ok hfit hrun with ⟨-, hprep⟩ | ⟨k₁, k₂, -, hfiles, hpublish, hdisk⟩
  · exact hprep.same.fileAt_eq (And.symm (c.apart_output_prepared.append q))
  have hchange := (rewritten_publishAll hfit hfit.of_due fun _ =>
    List.mem_map_of_mem).of_result hpublish
  rw [hdisk, hchange.other, hfiles, Tree.ofFiles_eq_none hpages, Option.none_or]
  intro hmem
  obtain ⟨p, hp, hplace⟩ := List.mem_map.mp hmem
  exact hdue p hp hplace.symm

/-- The renderer makes a page with a title of every notebook that it is given, and no others. -/
structure Renderer.Makes (r : Renderer) (due : List (List String)) : Prop where
  titled : ∀ parts ∈ due, ∃ text, Tree.ofFiles r.pages (pageParts parts) = some text ∧ IsTitled text
  only : ∀ f ∈ r.pages, ∃ parts ∈ due, f.1 = pageParts parts

/-- Whether the renderer has been started in a run and has written at a place. -/
def Conversion.Wrote (c : Conversion) (k k' : Desk) (place : List String) : Prop :=
  k'.commands ≠ k.commands ∧ ∃ f ∈ c.renderer.pages, c.output.place ++ f.1 = place

theorem isPublishedAt_congr {d d' : Disk} {page notebooks : Path}
    (hfile : d'.fileAt page.place = d.fileAt page.place)
    (hnames : namesakes d' notebooks page.stem = namesakes d notebooks page.stem) :
    IsPublishedAt d' page notebooks ↔ IsPublishedAt d page notebooks := by
  rw [IsPublishedAt, IsPublishedAt, hfile, hnames]

/-- What the renderer has written in a run that fails is there, as it was written unless publishing
came to it. -/
theorem exists_tried {halt : Halt} (hfit : c.IsFit k.disk)
    (hrun : c.run.result k = (.error halt, k')) :
    ∃ tried, tried <+: c.due k.disk ∧ (c.renderer.failure? ≠ none → tried = []) ∧
      ∀ q, c.Wrote k k' (c.output.place ++ q) →
        k'.disk.exists? (c.output.place ++ q) = true ∧
          ((∀ p ∈ tried, c.output.place ++ q ≠ (c.pageOf p).place) →
            k'.disk.fileAt (c.output.place ++ q) = Tree.ofFiles c.renderer.pages q) := by
  rcases run_eq_error hfit hrun with hprep | ⟨-, d, tried, htried, hfailure, hfiles, hchange⟩
  · exact ⟨[], List.nil_prefix, fun _ => rfl, fun q hwrote => absurd hprep.commands hwrote.1⟩
  refine ⟨tried, htried, hfailure, ?_⟩
  rintro q ⟨-, f, hf, hplace⟩
  obtain rfl : f.1 = q := List.append_cancel_left hplace
  obtain ⟨text, htext⟩ := Option.isSome_iff_exists.mp (Tree.isSome_ofFiles hf)
  have hfile : d.fileAt (c.output.place ++ f.1) = some text := by
    rw [hfiles, htext, Option.some_or]
  constructor
  · obtain ⟨now, hnow⟩ := Option.isSome_iff_exists.mp (hchange.kept _ (by rw [hfile]; rfl))
    rw [Disk.exists?, Disk.fileAt_eq_some.mp hnow]
    rfl
  · intro hnot
    rw [hchange.other, hfile, htext]
    intro hmem
    obtain ⟨p, hp, hplace⟩ := List.mem_map.mp hmem
    exact hnot p hp hplace.symm

/-- The same conversion at another time. -/
def Conversion.again (c : Conversion) (renderer : Renderer) (isFresh : List String → Bool) :
    Conversion := ⟨c.repository, c.target, renderer, isFresh⟩

theorem Conversion.IsFit.again {d d' : Disk} (h : c.IsFit d) (renderer : Renderer)
    (isFresh : List String → Bool) (hsame : Disk.SameApart c.target.place d d') :
    (c.again renderer isFresh).IsFit d' := ⟨(h.of_same hsame).apart, (h.of_same hsame).named⟩

/-- A run that follows one that has failed, with pages taken for fresh that were so before or that
the renderer has written. The page of a notebook that was due is published in the end exactly if the
renderer had not written it or the first run had published it; otherwise it stays as it is. If it
was the renderer that failed, this holds of all pages it had written, and if it was publishing, of
all that this had not come to. -/
theorem rerun_publishes_iff {renderer : Renderer} {isFresh : List String → Bool} {halt : Halt}
    {u : Unit} {k₁ k₂ k₃ : Desk} (hfit : c.IsFit k.disk)
    (hfailed : c.run.result k = (.error halt, k₁)) (hdisk : k₂.disk = k₁.disk)
    (hrun : (c.again renderer isFresh).run.result k₂ = (.ok u, k₃))
    (hfresh : ∀ p ∈ c.sources k.disk, isFresh (c.pageOf p).place = true ↔
      c.isDue k.disk p = false ∨ c.Wrote k k₁ (c.pageOf p).place)
    (hmakes : renderer.Makes ((c.again renderer isFresh).due k₂.disk)) :
    ∃ tried, tried <+: c.due k.disk ∧ (c.renderer.failure? ≠ none → tried = []) ∧
      ∀ parts ∈ c.due k.disk, namesakes k.disk c.notebooks (c.pageOf parts).stem ≠ [] →
        (IsPublishedAt k₃.disk (c.pageOf parts) c.notebooks ↔
          (c.Wrote k k₁ (c.pageOf parts).place →
            IsPublishedAt k₁.disk (c.pageOf parts) c.notebooks)) ∧
        (c.Wrote k k₁ (c.pageOf parts).place →
          (∀ p ∈ tried, (c.pageOf parts).place ≠ (c.pageOf p).place) →
            k₃.disk.fileAt (c.pageOf parts).place =
              Tree.ofFiles c.renderer.pages (pageParts parts)) := by
  obtain ⟨tried, htried, hfailure, hleft⟩ := exists_tried hfit hfailed
  refine ⟨tried, htried, hfailure, fun parts hdue hfound => ?_⟩
  have hsame : Disk.SameApart c.target.place k.disk k₂.disk := by
    have hfirst := sameApart_run hfit
    rwa [hfailed, ← hdisk] at hfirst
  have hagain := hfit.again renderer isFresh hsame
  have hplace := c.pageOf_place (hfit.of_due parts hdue)
  obtain ⟨hmem, hisDue⟩ := mem_due.mp hdue
  by_cases hwrote : c.Wrote k k₁ (c.pageOf parts).place
  · -- a page that was written is taken for fresh, so that the second run leaves it alone
    obtain ⟨hexists, hraw⟩ := hleft (pageParts parts) (hplace ▸ hwrote)
    have hnot : ∀ p ∈ (c.again renderer isFresh).due k₂.disk,
        (c.pageOf parts).place ≠ (c.pageOf p).place := by
      intro p hp heq
      have hlate : (!k₂.disk.exists? (c.pageOf p).place || !isFresh (c.pageOf p).place) = true :=
        (mem_due.mp hp).2
      rw [← heq, (hfresh parts hmem).mpr (.inr hwrote), hdisk, hplace, hexists] at hlate
      cases hlate
    have hkept : k₃.disk.fileAt (c.pageOf parts).place = k₁.disk.fileAt (c.pageOf parts).place := by
      rw [← hdisk, hplace]
      refine fileAt_run (c := c.again renderer isFresh) hagain hrun
        (fun p hp => hplace ▸ hnot p hp) fun f hf heq => ?_
      obtain ⟨p, hp, hpage⟩ := hmakes.only f hf
      refine hnot p hp ?_
      rw [hplace, c.pageOf_place (hagain.of_due p hp), ← hpage, heq]
    have hnames : namesakes k₃.disk c.notebooks (c.pageOf parts).stem =
        namesakes k₁.disk c.notebooks (c.pageOf parts).stem := by
      have hsecond := sameApart_run hagain
      rw [hrun, hdisk] at hsecond
      exact hsecond.matching_eq hfit.apart _
    refine ⟨?_, fun _ hnot => ?_⟩
    · rw [isPublishedAt_congr hkept hnames]
      exact ⟨fun h _ => h, fun h => h hwrote⟩
    · rw [hkept, hplace]
      exact hraw (hplace ▸ hnot)
  · -- any other page is due again
    have hstale : isFresh (c.pageOf parts).place = false := by
      rw [← Bool.not_eq_true, hfresh parts hmem, hisDue]
      exact fun h => h.elim nofun hwrote
    have hdue₂ : parts ∈ (c.again renderer isFresh).due k₂.disk := by
      refine mem_due.mpr ⟨?_, ?_⟩
      · exact (Conversion.sources_eq hsame hfit.apart).symm ▸ hmem
      · change (!k₂.disk.exists? (c.pageOf parts).place || !isFresh (c.pageOf parts).place) = true
        rw [hstale, Bool.not_false, Bool.or_true]
    obtain ⟨text, htext, htitled⟩ := hmakes.titled parts hdue₂
    obtain ⟨first, others, hcons⟩ := List.exists_cons_of_ne_nil hfound
    have hfirst : (namesakes k₂.disk c.notebooks (c.pageOf parts).stem).head? = some first := by
      rw [namesakes, hsame.matching_eq hfit.apart, ← namesakes, hcons]
      rfl
    have hpublished : IsPublishedAt k₃.disk (c.pageOf parts) c.notebooks :=
      isPublishedAt_run (c := c.again renderer isFresh) hagain hrun hdue₂ htext htitled hfirst
    exact ⟨iff_of_true hpublished fun h => absurd h hwrote, fun h => absurd h hwrote⟩

/-- Two notebooks that have no pages. -/
def unconverted : Disk where
  nodes := [(["r"], .dir), (["r", "docs"], .dir), (["r", "docs", "notebooks"], .dir),
    (["r", "docs", "notebooks", "x.ipynb"], .file "\x7b\x7d"),
    (["r", "docs", "notebooks", "y.ipynb"], .file "\x7b\x7d")]

/-- The renderer is stopped when it has written the first page. -/
def stoppedConversion : Conversion :=
  ⟨⟨"/", ["r"]⟩, ⟨"/", ["t"]⟩, ⟨true, [(["x.mdx"], twinPage)], some ⟨none, "", ""⟩⟩, fun _ => false⟩

def stoppedRun : Except Halt Unit × Desk := stoppedConversion.run.result (Desk.on unconverted)

/-- The disk that it leaves, with one of two pages. -/
def halfConverted : Disk := stoppedConversion.laidOut unconverted

/-- What is left to do then. -/
def restConversion : Conversion :=
  stoppedConversion.again ⟨true, [(["y.mdx"], twinPage)], none⟩ fun place =>
    place = ["t", "docs", "notebooks", "x.mdx"]

theorem isFit_unconverted : stoppedConversion.IsFit unconverted :=
  ⟨by decide +kernel, by decide +kernel⟩

theorem stopped_renders : stoppedConversion.Renders unconverted [["x.ipynb"], ["y.ipynb"]] ∧
    stoppedRun.2.commands ≠ [] := by
  decide +kernel

theorem stoppedRun_fails : (∃ halt, stoppedRun.1 = .error halt) ∧
    stoppedRun.2.disk = halfConverted :=
  (stopped_renders.1.run_stops nofun :)

theorem isFit_halfConverted : restConversion.IsFit halfConverted :=
  isFit_unconverted.again _ _ (stopped_renders.1.sameApart isFit_unconverted)

theorem rest_renders : restConversion.Renders halfConverted [["y.ipynb"]] := by decide +kernel

theorem rest_run : ∃ k', restConversion.run.result (Desk.on halfConverted) = (.ok (), k') := by
  have hsound : (restConversion.laidOut halfConverted).IsSound := by
    apply Disk.isSound_of_nodes
    simp only [Disk.checkPlace_eq_ok_iff]
    decide +kernel
  have hnames : namesakes halfConverted restConversion.notebooks
      (restConversion.pageOf ["y.ipynb"]).stem = [["y.ipynb"]] := by decide +kernel
  refine rest_renders.run_succeeds_single isFit_halfConverted rfl hsound (by decide) rfl
    hasBytes_twinPage (List.all_eq_true.mp (by decide +kernel)) (by decide +kernel) ?_
  rw [hnames]
  simp only [List.forall_mem_singleton]
  exact hasBytes_of_all rfl

theorem makes_rest : restConversion.renderer.Makes (restConversion.due halfConverted) := by
  rw [rest_renders.due_eq isFit_halfConverted]
  refine ⟨fun parts hparts => ?_, fun f hf => ⟨_, List.mem_cons_self, ?_⟩⟩
  · cases List.mem_singleton.mp hparts
    exact ⟨twinPage, rfl, isTitled_twinPage⟩
  · cases List.mem_singleton.mp hf
    rfl

theorem wrote_stoppedRun {place : List String} :
    stoppedConversion.Wrote (Desk.on unconverted) stoppedRun.2 place ↔
      place = ["t", "docs", "notebooks", "x.mdx"] := by
  constructor
  · rintro ⟨-, f, hf, rfl⟩
    cases List.mem_singleton.mp hf
    rfl
  · rintro rfl
    exact ⟨stopped_renders.2, (["x.mdx"], twinPage), List.mem_cons_self, rfl⟩

/-- The renderer is stopped between two pages. The next run publishes the one that it had not
written, and leaves the other as it is. -/
theorem rerun_publishes_unwritten : ∃ halt k₃, stoppedRun.1 = .error halt ∧
    restConversion.run.result (Desk.on stoppedRun.2.disk) = (.ok (), k₃) ∧
      IsPublishedAt k₃.disk (stoppedConversion.pageOf ["y.ipynb"]) stoppedConversion.notebooks ∧
      k₃.disk.fileAt (stoppedConversion.pageOf ["x.ipynb"]).place = some twinPage := by
  obtain ⟨⟨halt, hend⟩, hdisk⟩ := stoppedRun_fails
  obtain ⟨k₃, hrun⟩ := rest_run
  have hfailed : stoppedConversion.run.result (Desk.on unconverted) = (.error halt, stoppedRun.2) :=
    Prod.ext hend rfl
  have hafter : (Desk.on halfConverted).disk = stoppedRun.2.disk := hdisk.symm
  have hfresh : ∀ p ∈ stoppedConversion.sources unconverted,
      restConversion.isFresh (stoppedConversion.pageOf p).place = true ↔
        stoppedConversion.isDue unconverted p = false ∨ stoppedConversion.Wrote
          (Desk.on unconverted) stoppedRun.2 (stoppedConversion.pageOf p).place := by
    simp only [wrote_stoppedRun]
    decide +kernel
  obtain ⟨tried, -, hnone, hpages⟩ :=
    rerun_publishes_iff isFit_unconverted hfailed hafter hrun hfresh makes_rest
  simp only [wrote_stoppedRun] at hpages
  obtain ⟨hpublished, -⟩ := hpages ["y.ipynb"] (by decide +kernel) (by decide +kernel)
  obtain ⟨-, hraw⟩ := hpages ["x.ipynb"] (by decide +kernel) (by decide +kernel)
  have hleft := hraw (by decide +kernel) (hnone nofun ▸ List.forall_mem_nil _)
  exact ⟨halt, k₃, hend, hdisk ▸ hrun, hpublished.mpr fun h => absurd h (by decide +kernel), hleft⟩

/-- One notebook that has no page. -/
def lone : Disk where
  nodes := [(["r"], .dir), (["r", "docs"], .dir), (["r", "docs", "notebooks"], .dir),
    (["r", "docs", "notebooks", "x.ipynb"], .file "\x7b\x7d")]

/-- The renderer fails when it has written the page. -/
def brokenConversion : Conversion :=
  ⟨⟨"/", ["r"]⟩, ⟨"/", ["t"]⟩, ⟨true, [(["x.mdx"], twinPage)], some ⟨some 1, "", ""⟩⟩,
    fun _ => false⟩

def brokenRun : Except Halt Unit × Desk := brokenConversion.run.result (Desk.on lone)

def nextRun : Except Halt Unit × Desk :=
  (brokenConversion.again ⟨true, [], none⟩ fun _ => true).run.result (Desk.on brokenRun.2.disk)

/-- The renderer fails after it has written a page. In the next run nothing is due, and the page
stays as the renderer has left it. -/
theorem rerun_leaves_page : (∃ halt, brokenRun.1 = .error halt) ∧
    brokenConversion.Wrote (Desk.on lone) brokenRun.2
      (brokenConversion.pageOf ["x.ipynb"]).place ∧ nextRun.1 = .ok () ∧
    nextRun.2.disk.fileAt (brokenConversion.pageOf ["x.ipynb"]).place = some twinPage ∧
    ¬IsPublishedAt nextRun.2.disk (brokenConversion.pageOf ["x.ipynb"])
      brokenConversion.notebooks := by
  have hbroken : brokenRun.1.toOption = none ∧ brokenRun.2.commands ≠ [] := by decide +kernel
  obtain ⟨hend, hfile, hnames⟩ : nextRun.1.toOption = some () ∧
      nextRun.2.disk.fileAt (brokenConversion.pageOf ["x.ipynb"]).place = some twinPage ∧
      namesakes nextRun.2.disk brokenConversion.notebooks
        (brokenConversion.pageOf ["x.ipynb"]).stem = [["x.ipynb"]] := by decide +kernel
  refine ⟨Attempt.exists_error_of_toOption hbroken.1,
    ⟨hbroken.2, (["x.mdx"], twinPage), List.mem_cons_self, rfl⟩,
    Attempt.eq_ok_of_toOption hend, hfile, ?_⟩
  rintro ⟨text, found, htext, hfound, hpublished⟩
  rw [hfile] at htext
  rw [hnames] at hfound
  cases htext
  cases hfound
  exact absurd (hpublished.linksTo (by decide)) (by decide +kernel)

end Rerun

end DocSite.Notebook
