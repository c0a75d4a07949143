import DocSite.Proofs.Changes
import DocSite.Proofs.Notebook.Conversion

/-!
What a conversion of notebooks comes to. A run prepares the notebooks whose pages are due, lets the
renderer make their pages and publishes these one after the other. Up to the renderer only prepared
notebooks are written; after it, only pages.
-/

namespace DocSite.Notebook

open Text Pattern

section Preparing

variable {c : Conversion} {d d' : Disk} {k k' : Desk} {parts : List String}

/-- Where the page of a notebook lies below the pages. -/
def pageParts (parts : List String) : List String :=
  ((⟨"", parts⟩ : Path).withSuffix ".mdx").parts

theorem Conversion.prepared_place (c : Conversion) :
    c.prepared.place = c.target.place ++ ["pre-docs", "notebooks"] := by
  rw [prepared, Path.place_child _ (by decide), Path.place_child _ (by decide)]
  simp

theorem Conversion.output_place (c : Conversion) :
    c.output.place = c.target.place ++ ["docs", "notebooks"] := by
  rw [output, Path.place_child _ (by decide), Path.place_child _ (by decide)]
  simp

theorem Conversion.prefix_target_prepared (c : Conversion) : c.target.place <+: c.prepared.place :=
  c.prepared_place ▸ List.prefix_append _ _

theorem Conversion.prefix_target_output (c : Conversion) : c.target.place <+: c.output.place :=
  c.output_place ▸ List.prefix_append _ _

theorem Conversion.output_place_ne_nil (c : Conversion) : c.output.place ≠ [] := by
  simp [output_place]

theorem Conversion.pageOf_place (c : Conversion) (h : ".." ∉ parts) :
    (c.pageOf parts).place = c.output.place ++ pageParts parts := by
  refine Path.place_join _ fun hmem => ?_
  rcases List.mem_append.mp hmem with hmem | hmem
  · exact h (List.dropLast_subset _ hmem)
  · have hlength := congrArg (·.toList.length) (List.mem_singleton.mp hmem)
    simp at hlength

theorem Conversion.apart_output_prepared (c : Conversion) :
    Disk.Apart c.output.place c.prepared.place := by
  simp [Disk.Apart, prepared_place, output_place]

theorem Conversion.prefix_prepared (c : Conversion) (h : ".." ∉ parts) :
    c.prepared.place <+: (c.prepared.join ⟨"", parts⟩).place := by
  rw [Path.place_join _ h]
  exact List.prefix_append _ _

theorem Conversion.prefix_settings (c : Conversion) :
    c.prepared.place <+: (c.prepared / "_quarto.yml").place := by
  rw [Path.place_child _ (by decide)]
  exact List.prefix_append _ _

theorem Conversion.prefix_prepared_parent (c : Conversion) (hne : parts ≠ []) (h : ".." ∉ parts) :
    c.prepared.place <+: (c.prepared.join ⟨"", parts⟩).parent.place := by
  have hparent : (c.prepared.join ⟨"", parts⟩).parent = c.prepared.join ⟨"", parts.dropLast⟩ := by
    simp [Path.join, Path.parent, List.dropLast_append_of_ne_nil hne]
  rw [hparent]
  exact c.prefix_prepared fun hmem => h (List.dropLast_subset _ hmem)

/-- The target lies apart from the notebooks, and these have names that can be written in a line. -/
structure Conversion.IsFit (c : Conversion) (d : Disk) : Prop where
  apart : Disk.Apart c.target.place c.notebooks.place
  named : ∀ entry ∈ d.below c.notebooks.place, ∀ s ∈ entry.1, Path.IsName s ∧ '\n' ∉ s.toList

namespace Conversion.IsFit

theorem apart_prepared (h : c.IsFit d) : Disk.Apart c.prepared.place c.notebooks.place := by
  rw [prepared_place]
  exact h.apart.append _

theorem apart_output (h : c.IsFit d) : Disk.Apart c.output.place c.notebooks.place := by
  rw [output_place]
  exact h.apart.append _

theorem of_same (h : c.IsFit d) (hsame : Disk.SameApart c.target.place d d') : c.IsFit d' := by
  refine ⟨h.apart, ?_⟩
  rw [hsame.below_eq _ h.apart]
  exact h.named

theorem named_of_mem {pattern : String} (h : c.IsFit d)
    (hparts : parts ∈ d.matching c.notebooks.place pattern) :
    parts ≠ [] ∧ ∀ s ∈ parts, Path.IsName s ∧ '\n' ∉ s.toList := by
  obtain ⟨⟨node, hmem⟩, -⟩ := Disk.mem_matching.mp hparts
  exact ⟨Disk.ne_nil_of_mem_below hmem, h.named _ hmem⟩

theorem of_sources (h : c.IsFit d) (hparts : parts ∈ c.sources d) : parts ≠ [] ∧ ".." ∉ parts := by
  obtain ⟨hne, hnamed⟩ := h.named_of_mem (List.mem_filter.mp hparts).1
  exact ⟨hne, fun hmem => (hnamed _ hmem).1.2.2.2 rfl⟩

end Conversion.IsFit

theorem Conversion.sources_eq {place : List String} (h : Disk.SameApart place d d')
    (hplace : Disk.Apart place c.notebooks.place) : c.sources d' = c.sources d := by
  rw [sources, h.matching_eq hplace]
  rfl

theorem isDue_eq (h : Disk.SameApart c.prepared.place d d') (hparts : ".." ∉ parts) :
    c.isDue d' parts = c.isDue d parts := by
  have hpage : Disk.Apart c.prepared.place (c.pageOf parts).place := by
    rw [c.pageOf_place hparts]
    exact And.symm (c.apart_output_prepared.append _)
  rw [Conversion.isDue, Conversion.isDue, h.exists?_eq hpage]

/-- A job that works in the directory of prepared notebooks only. -/
abbrev Conversion.Prepares {α : Type} (c : Conversion) (x : Job α) : Prop :=
  x.Changes (Disk.SameApart c.prepared.place)

theorem prepares_makeDir (hne : parts ≠ []) (hup : ".." ∉ parts) :
    c.Prepares (Job.change (·.makeDir (c.prepared.join ⟨"", parts⟩).parent.place)) :=
  .makeDir fun _ => .fill (.inr (c.prefix_prepared_parent hne hup))

theorem prepares_prepareFile (source : Path) (hup : ".." ∉ parts) :
    c.Prepares (prepareFile source (c.prepared.join ⟨"", parts⟩)) :=
  .bind (.readText _) fun _ => .bind (.ofExcept _) fun _ =>
    .writeText (fun _ _ => .put (.inr (c.prefix_prepared hup)) _) _

theorem sees_prepareDue (c : Conversion) (ps : List (List String)) : (c.prepareDue ps).Sees := by
  induction ps with
  | nil => exact .pure []
  | cons parts rest ih =>
    unfold Conversion.prepareDue
    refine .disk_bind fun disk => ?_
    split
    · have hfile (source target : Path) : (prepareFile source target).Sees :=
        .bind (.readText _) fun _ => .bind (.ofExcept _) fun _ => .writeText _ _
      exact .bind (.change _) fun _ => .bind (hfile _ _) fun _ => .bind ih fun _ => .pure _
    · exact ih

theorem prepares_prepareDue {ps : List (List String)}
    (h : ∀ parts ∈ ps, parts ≠ [] ∧ ".." ∉ parts) : c.Prepares (c.prepareDue ps) := by
  induction ps with
  | nil => exact .pure []
  | cons parts rest ih =>
    obtain ⟨⟨hne, hup⟩, hrest⟩ := List.forall_mem_cons.mp h
    unfold Conversion.prepareDue
    refine .bind .getDisk fun disk => ?_
    split
    · exact .bind (prepares_makeDir hne hup) fun _ => .bind (prepares_prepareFile _ hup) fun _ =>
        .bind (ih hrest) fun _ => .pure _
    · exact ih hrest

/-- The notebooks that are prepared are those that were due at the start. -/
theorem prepareDue_eq_ok {ps due : List (List String)} (h : ∀ parts ∈ ps, parts ≠ [] ∧ ".." ∉ parts)
    (hdue : (c.prepareDue ps).result k = (.ok due, k')) : due = ps.filter (c.isDue k.disk) := by
  induction ps generalizing k due with
  | nil =>
    cases hdue
    rfl
  | cons parts rest ih =>
    obtain ⟨⟨hne, hup⟩, hrest⟩ := List.forall_mem_cons.mp h
    unfold Conversion.prepareDue at hdue
    obtain ⟨disk, k₁, hget, hdue⟩ := Job.bind_eq_ok.mp hdue
    cases hget
    split at hdue
    · rename_i hparts
      obtain ⟨_, k₁, hmake, hdue⟩ := Job.bind_eq_ok.mp hdue
      obtain ⟨_, k₂, hfile, hdue⟩ := Job.bind_eq_ok.mp hdue
      obtain ⟨later, k₃, hlater, hdue⟩ := Job.bind_eq_ok.mp hdue
      cases hdue
      have hsame : Disk.SameApart c.prepared.place k.disk k₂.disk :=
        ((prepares_makeDir hne hup).of_result hmake).trans
          ((prepares_prepareFile _ hup).of_result hfile)
      rw [List.filter_cons_of_pos hparts, ih hrest hlater]
      congr 1
      exact List.filter_congr fun p hp => isDue_eq hsame (hrest p hp).2
    · rename_i hparts
      rw [List.filter_cons_of_neg hparts]
      exact ih hrest hdue

end Preparing

section Stages

variable {c : Conversion} {k : Desk}

/-- The notebooks whose pages a run makes. -/
def Conversion.due (c : Conversion) (d : Disk) : List (List String) :=
  (c.sources d).filter (c.isDue d)

/-- Publishes the pages of some notebooks. -/
def Conversion.publishAll (c : Conversion) (due : List (List String)) : Job Unit :=
  due.forM fun parts => publish (c.pageOf parts) c.notebooks

/-- The part of a run that makes pages of prepared notebooks. -/
def Conversion.makePages (c : Conversion) (due : List (List String)) : Job Unit := do
  c.render due
  let pages := (← Job.disk).matching c.output.place "*.mdx"
  Job.print ("   Successfully converted " ++ toString pages.length ++ " notebook(s) to MDX")
  Job.print "   Postprocessing MDX files ..."
  c.publishAll due
  Job.print ("   Updated frontmatter for " ++ toString due.length ++ " file(s)")

/-- What a run has done before it makes pages. -/
structure Conversion.Prepared (c : Conversion) (k k' : Desk) : Prop where
  commands : k'.commands = k.commands
  same : Disk.SameApart c.prepared.place k.disk k'.disk

/-- A run ends before it makes pages, without a failure only if there are none to make, or it comes
to make them. -/
def Conversion.Stage (c : Conversion) (k : Desk) (r : Except Halt Unit × Desk) : Prop :=
  c.Prepared k r.2 ∧ (∀ u, r.1 = .ok u → c.due k.disk = []) ∨
    ∃ k₀, c.Prepared k k₀ ∧ r = (c.makePages (c.due k.disk)).result k₀

theorem stage_bind {α : Type} {x : Job α} {f : α → Job Unit} {k₀ : Desk} (hk : c.Prepared k k₀)
    (hx : c.Prepares x)
    (hf : ∀ a k₁, x.result k₀ = (.ok a, k₁) → c.Prepared k k₁ → c.Stage k ((f a).result k₁)) :
    c.Stage k ((x >>= f).result k₀) := by
  rcases hresult : x.result k₀ with ⟨halt | a, k₁⟩
  all_goals
    have hk₁ : c.Prepared k k₁ :=
      ⟨(hx.quiet.eq hresult).trans hk.commands, hk.same.trans (hx.of_result hresult)⟩
  · rw [Job.bind_of_error hresult]
    exact .inl ⟨hk₁, nofun⟩
  · rw [Job.bind_of_ok hresult]
    exact hf a k₁ hresult hk₁

theorem stage_run (hfit : c.IsFit k.disk) : c.Stage k (c.run.result k) := by
  have hstart : c.Prepared k k := ⟨rfl, .refl _ _⟩
  unfold Conversion.run
  refine stage_bind hstart (.print _) fun _ k₁ _ hk => ?_
  refine stage_bind hk (.print _) fun _ k₂ _ hk => ?_
  refine stage_bind hk (.print _) fun _ k₃ _ hk => ?_
  simp only
  split
  · exact stage_bind hk (.fail _) nofun
  refine stage_bind hk .getDisk fun _ k₄ _ hk => ?_
  split
  · exact stage_bind hk (.fail _) nofun
  refine stage_bind hk .getDisk fun disk k₅ hdisk hk => ?_
  cases hdisk
  rw [Conversion.sources_eq hk.same hfit.apart_prepared]
  have hparts : ∀ parts ∈ c.sources k.disk, parts ≠ [] ∧ ".." ∉ parts := fun _ => hfit.of_sources
  split
  · exact stage_bind hk (.fail _) nofun
  refine stage_bind hk (.print _) fun _ k₆ _ hk => ?_
  refine stage_bind hk (.print _) fun _ k₇ _ hk => ?_
  refine stage_bind hk (prepares_prepareDue hparts) fun due k₈ hdue hk₈ => ?_
  have hfilter : due = c.due k.disk := by
    rw [prepareDue_eq_ok hparts hdue]
    exact List.filter_congr fun p hp => isDue_eq hk.same (hparts p hp).2
  refine stage_bind hk₈ (.print _) fun _ k₉ _ hk => ?_
  split
  · rename_i hnone
    refine .inl ⟨hk, fun _ _ => ?_⟩
    rw [← hfilter, List.isEmpty_iff.mp hnone]
  refine stage_bind hk (.print _) fun _ k₁₀ _ hk => ?_
  refine stage_bind hk (.write fun _ => .put (.inr c.prefix_settings) _) fun _ k₁₁ _ hk => ?_
  refine stage_bind hk (.print _) fun _ k₁₂ _ hk => ?_
  refine stage_bind hk (.print _) fun _ k₁₃ _ hk => ?_
  refine stage_bind hk (.print _) fun _ k₁₄ _ hk => ?_
  rw [hfilter]
  exact .inr ⟨k₁₄, hk, rfl⟩

end Stages

section Pages

variable {disk : Disk} {k k' : Desk} {page other notebooks : Path} {text : String}

theorem changes_publish {R : Disk → Disk → Prop} [Disk.IsChange R]
    (h : ∀ (d : Disk) (text : String), R d (d.put page.place (.file text))) :
    (publish page notebooks).Changes R := by
  unfold publish
  refine .bind (.readText _) fun cs => ?_
  split
  · exact .print _
  · split
    · exact .print _
    · simp only
      split
      · exact .fail_bind _ _
      · refine .bind .getDisk fun _ => .bind (.ofExcept _) fun found => ?_
        split
        · exact .print _
        · exact .bind (.ofExcept _) fun _ => .writeText h _

/-- Whether a page has been published, with links to the first notebook that has its name. -/
def IsPublishedAt (disk : Disk) (page notebooks : Path) : Prop :=
  ∃ text first, disk.fileAt page.place = some text ∧
    (namesakes disk notebooks page.stem).head? = some first ∧ IsPublished text first

theorem namesakes_put (hpage : Disk.Apart page.place notebooks.place) (node : Node)
    (stem : String) :
    namesakes (disk.put page.place node) notebooks stem = namesakes disk notebooks stem :=
  (Disk.SameApart.put (.inl List.prefix_rfl) node).matching_eq hpage _

theorem ne_nil_of_apart (hpage : Disk.Apart page.place notebooks.place) : page.place ≠ [] :=
  fun hnil => hpage.1 (hnil ▸ List.nil_prefix)

theorem isPublishedAt_put {d : PageDraft} (hpage : Disk.Apart page.place notebooks.place)
    (hdraft : draft? disk page notebooks = some d) (body : List Char) :
    IsPublishedAt (disk.put page.place (.file (String.ofList (d.head ++ body)))) page
      notebooks := by
  obtain ⟨htitle, hfirst⟩ := draft?_eq_some hdraft
  refine ⟨_, d.parts, ?_, ?_, d.title, body, htitle, rfl⟩
  · rw [Disk.fileAt_put_file (ne_nil_of_apart hpage), if_pos rfl]
    rfl
  · rw [namesakes_put hpage, hfirst]

/-- A page with a title is published if its notebook is found. -/
theorem isPublishedAt_publish {first : List String} {u : Unit}
    (hpage : Disk.Apart page.place notebooks.place) (htitled : IsTitled text)
    (hfile : k.disk.fileAt page.place = some text)
    (hfirst : (namesakes k.disk notebooks page.stem).head? = some first)
    (h : (publish page notebooks).result k = (.ok u, k')) :
    IsPublishedAt k'.disk page notebooks := by
  obtain ⟨d, hdraft⟩ := draft?_of_isTitled htitled hfile hfirst
  have hdisk := publish_eq_ok h
  rw [hdraft] at hdisk
  obtain ⟨body, hput⟩ := hdisk
  rw [hput]
  exact isPublishedAt_put hpage hdraft body

/-- A published page stays published, also if it is published again. -/
theorem IsPublishedAt.publish {u : Unit} (h : IsPublishedAt k.disk page notebooks)
    (hpage : Disk.Apart page.place notebooks.place)
    (hother : Disk.Apart other.place notebooks.place)
    (hsame : other.place = page.place → other = page)
    (hresult : (Notebook.publish other notebooks).result k = (.ok u, k')) :
    IsPublishedAt k'.disk page notebooks := by
  have hdisk := publish_eq_ok hresult
  split at hdisk
  · rwa [hdisk]
  · rename_i d hdraft
    obtain ⟨body, hput⟩ := hdisk
    rw [hput]
    by_cases hplace : other.place = page.place
    · cases hsame hplace
      exact isPublishedAt_put hpage hdraft body
    · obtain ⟨text, first, hfile, hfirst, htext⟩ := h
      refine ⟨text, first, ?_, ?_, htext⟩
      · rw [Disk.fileAt_put_file (ne_nil_of_apart hother), if_neg (Ne.symm hplace), hfile]
      · rw [namesakes_put hother, hfirst]

/-- A page for which there is no notebook stays as it is. -/
theorem fileAt_publish_of_none {u : Unit} (hother : Disk.Apart other.place notebooks.place)
    (hnone : (namesakes k.disk notebooks page.stem).head? = none)
    (hsame : other.place = page.place → other = page)
    (hresult : (publish other notebooks).result k = (.ok u, k')) :
    k'.disk.fileAt page.place = k.disk.fileAt page.place := by
  have hdisk := publish_eq_ok hresult
  split at hdisk
  · rw [hdisk]
  · rename_i d hdraft
    obtain ⟨body, hput⟩ := hdisk
    rw [hput, Disk.fileAt_put_file (ne_nil_of_apart hother), if_neg]
    intro hplace
    cases hsame hplace.symm
    cases hnone.symm.trans (draft?_eq_some hdraft).2

end Pages

section Loop

variable {c : Conversion} {disk : Disk} {k k' : Desk} {parts : List String}
  {due : List (List String)}

/-- Pages at the same place are the same. -/
theorem Conversion.pageOf_eq {p q : List String} (hp : ".." ∉ p) (hq : ".." ∉ q)
    (h : (c.pageOf p).place = (c.pageOf q).place) : c.pageOf p = c.pageOf q := by
  rw [c.pageOf_place hp, c.pageOf_place hq, List.append_right_inj] at h
  exact congrArg (fun parts => c.output.join ⟨"", parts⟩) h

theorem Conversion.IsFit.apart_page (h : c.IsFit disk) (hparts : ".." ∉ parts) :
    Disk.Apart (c.pageOf parts).place c.notebooks.place := by
  rw [c.pageOf_place hparts]
  exact h.apart_output.append _

theorem publishAll_cons {u : Unit} {p : List String}
    (h : (c.publishAll (p :: due)).result k = (.ok u, k')) :
    ∃ k₁, (publish (c.pageOf p) c.notebooks).result k = (.ok (), k₁) ∧
      (c.publishAll due).result k₁ = (.ok u, k') := by
  obtain ⟨_, k₁, hfirst, hrest⟩ := Job.bind_eq_ok.mp h
  exact ⟨k₁, hfirst, hrest⟩

theorem IsPublishedAt.publishAll {u : Unit} (hfit : c.IsFit disk) (hparts : ".." ∉ parts)
    (hdue : ∀ p ∈ due, ".." ∉ p) (h : IsPublishedAt k.disk (c.pageOf parts) c.notebooks)
    (hresult : (c.publishAll due).result k = (.ok u, k')) :
    IsPublishedAt k'.disk (c.pageOf parts) c.notebooks := by
  induction due generalizing k with
  | nil =>
    cases hresult
    exact h
  | cons p due ih =>
    obtain ⟨hp, hdue⟩ := List.forall_mem_cons.mp hdue
    obtain ⟨k₁, hfirst, hrest⟩ := publishAll_cons hresult
    exact ih hdue (h.publish (hfit.apart_page hparts) (hfit.apart_page hp)
      (Conversion.pageOf_eq hp hparts) hfirst) hrest

/-- Every page that has a title and a notebook is published in the end. -/
theorem isPublishedAt_publishAll {u : Unit} {text : String} {first : List String}
    (hfit : c.IsFit disk) (hdue : ∀ p ∈ due, ".." ∉ p) (hparts : parts ∈ due)
    (hfile : k.disk.fileAt (c.pageOf parts).place = some text) (htitled : IsTitled text)
    (hfirst : (namesakes k.disk c.notebooks (c.pageOf parts).stem).head? = some first)
    (hresult : (c.publishAll due).result k = (.ok u, k')) :
    IsPublishedAt k'.disk (c.pageOf parts) c.notebooks := by
  have hup := hdue parts hparts
  induction due generalizing k with
  | nil => cases hparts
  | cons p due ih =>
    obtain ⟨hp, hdue⟩ := List.forall_mem_cons.mp hdue
    obtain ⟨k₁, hpublish, hrest⟩ := publishAll_cons hresult
    by_cases hplace : (c.pageOf p).place = (c.pageOf parts).place
    · rw [Conversion.pageOf_eq hp hup hplace] at hpublish
      exact (isPublishedAt_publish (hfit.apart_page hup) htitled hfile hfirst
        hpublish).publishAll hfit hup hdue hrest
    · have hchange : Disk.Rewritten (c.pageOf p).place [(c.pageOf p).place] k.disk k₁.disk :=
        (changes_publish fun d text => .put List.mem_cons_self List.prefix_rfl
          (ne_nil_of_apart (hfit.apart_page hp)) d text).of_result hpublish
      refine ih hdue ?_ ?_ ?_ hrest
      · exact (List.mem_cons.mp hparts).resolve_left fun heq => hplace (heq ▸ rfl)
      · rw [hchange.other _ fun hmem => hplace (List.mem_singleton.mp hmem).symm, hfile]
      · rw [namesakes, hchange.same.matching_eq (hfit.apart_page hp)]
        exact hfirst

theorem fileAt_publishAll_of_none {u : Unit} (hfit : c.IsFit disk) (hparts : ".." ∉ parts)
    (hdue : ∀ p ∈ due, ".." ∉ p)
    (hnone : (namesakes k.disk c.notebooks (c.pageOf parts).stem).head? = none)
    (hresult : (c.publishAll due).result k = (.ok u, k')) :
    k'.disk.fileAt (c.pageOf parts).place = k.disk.fileAt (c.pageOf parts).place := by
  induction due generalizing k with
  | nil =>
    cases hresult
    rfl
  | cons p due ih =>
    obtain ⟨hp, hdue⟩ := List.forall_mem_cons.mp hdue
    obtain ⟨k₁, hpublish, hrest⟩ := publishAll_cons hresult
    have hsame : Disk.SameApart (c.pageOf p).place k.disk k₁.disk :=
      (changes_publish fun _ _ => .put (.inl List.prefix_rfl) _).of_result hpublish
    rw [ih hdue ?_ hrest]
    · exact fileAt_publish_of_none (hfit.apart_page hp) hnone (Conversion.pageOf_eq hp hparts)
        hpublish
    · rw [namesakes, hsame.matching_eq (hfit.apart_page hp)]
      exact hnone

theorem changes_publishAll {R : Disk → Disk → Prop} [Disk.IsChange R]
    (h : ∀ p ∈ due, ∀ (d : Disk) (text : String), R d (d.put (c.pageOf p).place (.file text))) :
    (c.publishAll due).Changes R := .forM fun p hp => changes_publish (h p hp)

theorem sameApart_publishAll (hdue : ∀ p ∈ due, ".." ∉ p) :
    (c.publishAll due).Changes (Disk.SameApart c.output.place) := by
  refine changes_publishAll fun p hp _ _ => .put (.inr ?_) _
  rw [c.pageOf_place (hdue p hp)]
  exact List.prefix_append _ _

end Loop

section Run

variable {c : Conversion} {k k' : Desk} {parts : List String} {due : List (List String)}
  {rendered : String}

theorem sameApart_layOut (place : List String) (disk : Disk) (files : List (List String × String)) :
    Disk.SameApart place disk (Shell.layOut place disk files) := by
  induction files generalizing disk with
  | nil => exact .refl place disk
  | cons f files ih => exact (Disk.SameApart.addFile (List.prefix_append _ _) f.2).trans (ih _)

/-- The renderer is started and leaves its pages, even if it fails. -/
theorem render_result (c : Conversion) (due : List (List String)) (k : Desk) :
    ∃ r k₁, (c.render due).result k = (r, k₁) ∧ k₁.commands ≠ k.commands ∧
      k₁.disk = Shell.layOut c.output.place k.disk c.renderer.pages ∧
      (r = .ok () ↔ c.renderer.failure? = none) := by
  unfold Conversion.render
  cases c.renderer.failure? with
  | none => exact ⟨_, _, rfl, by simp, rfl, iff_of_true rfl rfl⟩
  | some failure => exact ⟨_, _, rfl, by simp, rfl, iff_of_false nofun nofun⟩

/-- The pages are made by the renderer first and then published, if it does not fail. -/
theorem makePages_result (c : Conversion) (due : List (List String)) (k : Desk) :
    ∃ k₁, k₁.commands ≠ k.commands ∧
      k₁.disk = Shell.layOut c.output.place k.disk c.renderer.pages ∧
      (c.renderer.failure? ≠ none ∧ (∃ halt, (c.makePages due).result k = (.error halt, k₁)) ∨
        c.renderer.failure? = none ∧ ∃ line, (c.makePages due).result k =
          (c.publishAll due >>= fun _ => Job.print line).result k₁) := by
  obtain ⟨r, k₁, hrender, hcommands, hdisk, hr⟩ := render_result c due k
  unfold Conversion.makePages
  cases r with
  | error halt =>
    have hfailure : c.renderer.failure? ≠ none := fun hnone => nomatch hr.mpr hnone
    exact ⟨k₁, hcommands, hdisk, .inl ⟨hfailure, halt, Job.bind_of_error hrender⟩⟩
  | ok u =>
    rw [Job.bind_of_ok hrender, Job.bind_of_ok (Job.result_disk k₁)]
    refine ⟨_, ?_, ?_, .inr ⟨hr.mp rfl, _, (Job.bind_of_ok rfl).trans (Job.bind_of_ok rfl)⟩⟩
    · exact hcommands
    · exact hdisk

theorem sameApart_makePages (hdue : ∀ p ∈ due, ".." ∉ p) (k : Desk) :
    Disk.SameApart c.output.place k.disk ((c.makePages due).result k).2.disk := by
  obtain ⟨k₁, -, hdisk, ⟨-, halt, hresult⟩ | ⟨-, line, hresult⟩⟩ := makePages_result c due k
  all_goals
    have hlaid := sameApart_layOut c.output.place k.disk c.renderer.pages
    rw [← hdisk] at hlaid
    rw [hresult]
  · exact hlaid
  · exact hlaid.trans (((sameApart_publishAll hdue).bind fun _ => .print line).disk k₁)

theorem Conversion.Prepared.fileAt_layOut (h : c.Prepared k k') (q : List String) :
    (Shell.layOut c.output.place k'.disk c.renderer.pages).fileAt (c.output.place ++ q) =
      (Tree.ofFiles c.renderer.pages q).or (k.disk.fileAt (c.output.place ++ q)) := by
  rw [Shell.fileAt_layOut c.output_place_ne_nil,
    h.same.fileAt_eq (And.symm (c.apart_output_prepared.append q))]

theorem mem_due : parts ∈ c.due k.disk ↔ parts ∈ c.sources k.disk ∧ c.isDue k.disk parts = true :=
  List.mem_filter

theorem Conversion.IsFit.of_due (hfit : c.IsFit k.disk) : ∀ p ∈ c.due k.disk, ".." ∉ p :=
  fun _ hp => (hfit.of_sources (mem_due.mp hp).1).2

/-- A run changes nothing outside of its target, however it ends. -/
theorem sameApart_run (hfit : c.IsFit k.disk) :
    Disk.SameApart c.target.place k.disk (c.run.result k).2.disk := by
  rcases stage_run hfit with ⟨hprep, -⟩ | ⟨k₀, hprep, hresult⟩
  · exact hprep.same.above c.prefix_target_prepared
  · rw [hresult]
    exact (hprep.same.above c.prefix_target_prepared).trans
      ((sameApart_makePages hfit.of_due k₀).above c.prefix_target_output)

theorem run_eq_ok {u : Unit} (hfit : c.IsFit k.disk) (hrun : c.run.result k = (.ok u, k')) :
    c.due k.disk = [] ∧ c.Prepared k k' ∨
      ∃ k₁ k₂, Disk.SameApart c.target.place k.disk k₁.disk ∧
        (∀ q, k₁.disk.fileAt (c.output.place ++ q) =
          (Tree.ofFiles c.renderer.pages q).or (k.disk.fileAt (c.output.place ++ q))) ∧
        (c.publishAll (c.due k.disk)).result k₁ = (.ok (), k₂) ∧ k'.disk = k₂.disk := by
  rcases stage_run hfit with ⟨hprep, hnone⟩ | ⟨k₀, hprep, hresult⟩
  · rw [hrun] at hprep hnone
    exact .inl ⟨hnone u rfl, hprep⟩
  obtain ⟨k₁, -, hdisk, ⟨-, halt, hpages⟩ | ⟨-, line, hpages⟩⟩ :=
    makePages_result c (c.due k.disk) k₀
  all_goals rw [← hresult, hrun] at hpages
  · cases hpages
  obtain ⟨_, k₂, hpublish, hprint⟩ := Job.bind_eq_ok.mp hpages.symm
  refine .inr ⟨k₁, k₂, ?_, fun q => ?_, hpublish, (.print line : Job.KeepsDisk _).eq hprint⟩
  · rw [hdisk]
    exact (hprep.same.above c.prefix_target_prepared).trans
      ((sameApart_layOut ..).above c.prefix_target_output)
  · rw [hdisk, hprep.fileAt_layOut]

section Due

variable {u : Unit} {first : List String} (hfit : c.IsFit k.disk)
  (hrun : c.run.result k = (.ok u, k')) (hdue : parts ∈ c.due k.disk)
  (hpage : Tree.ofFiles c.renderer.pages (pageParts parts) = some rendered)

include hfit hrun hdue

theorem run_eq_ok_of_mem : ∃ k₁ k₂, Disk.SameApart c.target.place k.disk k₁.disk ∧
    (∀ q, k₁.disk.fileAt (c.output.place ++ q) =
      (Tree.ofFiles c.renderer.pages q).or (k.disk.fileAt (c.output.place ++ q))) ∧
    (c.publishAll (c.due k.disk)).result k₁ = (.ok (), k₂) ∧ k'.disk = k₂.disk := by
  refine (run_eq_ok hfit hrun).resolve_left fun hnone => ?_
  rw [hnone.1] at hdue
  cases hdue

include hpage

/-- The page of a notebook that was due is published by a run that succeeds, if the renderer gives
it a title and a notebook is found for it. -/
theorem isPublishedAt_run (htitled : IsTitled rendered)
    (hfirst : (namesakes k.disk c.notebooks (c.pageOf parts).stem).head? = some first) :
    IsPublishedAt k'.disk (c.pageOf parts) c.notebooks := by
  obtain ⟨k₁, k₂, hsame, hfiles, hpublish, hdisk⟩ := run_eq_ok_of_mem hfit hrun hdue
  have hup := hfit.of_due parts hdue
  have hfile : k₁.disk.fileAt (c.pageOf parts).place = some rendered := by
    rw [c.pageOf_place hup, hfiles, hpage]
    rfl
  rw [namesakes, ← hsame.matching_eq hfit.apart] at hfirst
  rw [hdisk]
  exact isPublishedAt_publishAll hfit hfit.of_due hdue hfile htitled hfirst hpublish

theorem fileAt_run_of_none
    (hnone : (namesakes k.disk c.notebooks (c.pageOf parts).stem).head? = none) :
    k'.disk.fileAt (c.pageOf parts).place = some rendered := by
  obtain ⟨k₁, k₂, hsame, hfiles, hpublish, hdisk⟩ := run_eq_ok_of_mem hfit hrun hdue
  have hup := hfit.of_due parts hdue
  rw [hdisk, fileAt_publishAll_of_none hfit hup hfit.of_due ?_ hpublish, c.pageOf_place hup, hfiles,
    hpage]
  · rfl
  · rw [namesakes, hsame.matching_eq hfit.apart]
    exact hnone

theorem linksTo_run (htitled : IsTitled rendered)
    (hfirst : (namesakes k.disk c.notebooks (c.pageOf parts).stem).head? = some first) :
    ∃ text, k'.disk.fileAt (c.pageOf parts).place = some text ∧ IsPublished text first ∧
      LinksTo text first := by
  obtain ⟨text, found, hfile, hfound, htext⟩ :=
    isPublishedAt_run hfit hrun hdue hpage htitled hfirst
  have hsame := sameApart_run hfit
  rw [hrun] at hsame
  rw [namesakes, hsame.matching_eq hfit.apart] at hfound
  cases hfirst.symm.trans hfound
  have hnames := (hfit.named_of_mem (List.mem_of_head? hfirst)).2
  exact ⟨text, hfile, htext, htext.linksTo fun s hs => (hnames s hs).2⟩

end Due

/-- The page that a run has made of a notebook links to the first notebook of its name that a
search comes to. That is its own notebook exactly if it has the name and the search comes to no
other of this name before it. -/
theorem run_links_iff {u : Unit} (hfit : c.IsFit k.disk) (hrun : c.run.result k = (.ok u, k'))
    (hdue : parts ∈ c.due k.disk)
    (hpage : Tree.ofFiles c.renderer.pages (pageParts parts) = some rendered)
    (htitled : IsTitled rendered) :
    ∃ text, k'.disk.fileAt (c.pageOf parts).place = some text ∧
      match (namesakes k.disk c.notebooks (c.pageOf parts).stem).head? with
      | none => text = rendered
      | some first => IsPublished text first ∧ LinksTo text first ∧
          (∀ link ∈ launchLinks (notebookPath first),
            (notebookPath first).toList <:+: link.toList) ∧
          (LinksTo text parts ↔ parts ∈ namesakes k.disk c.notebooks (c.pageOf parts).stem ∧
            ∀ other ∈ namesakes k.disk c.notebooks (c.pageOf parts).stem,
              k.disk.listing.precedes c.notebooks.place parts other = true) := by
  cases hfirst : (namesakes k.disk c.notebooks (c.pageOf parts).stem).head? with
  | none => exact ⟨rendered, fileAt_run_of_none hfit hrun hdue hpage hfirst, rfl⟩
  | some first =>
    obtain ⟨text, hfile, htext, hlinks⟩ := linksTo_run hfit hrun hdue hpage htitled hfirst
    have hnames := (hfit.named_of_mem (List.mem_of_head? hfirst)).2
    have hown := (hfit.named_of_mem (List.mem_filter.mp (mem_due.mp hdue).1).1).2
    have hiff : LinksTo text parts ↔ first = parts := by
      constructor
      · intro hparts
        exact hlinks.unique hparts (fun s hs => (hnames s hs).1.1) fun s hs => (hown s hs).1.1
      · rintro rfl
        exact hlinks
    refine ⟨text, hfile, htext, hlinks, isInfix_launchLinks _, ?_⟩
    rw [hiff, namesakes, ← Disk.head?_matching_eq_some, ← namesakes, hfirst, Option.some.injEq]

/-- How preparing the notebooks of a disk ends. -/
def Conversion.preparing (c : Conversion) (disk : Disk) : Except Halt (List (List String)) × Desk :=
  (c.prepareDue (c.sources disk)).result (Desk.on disk)

/-- The disk that the renderer is started on. -/
def Conversion.configured (c : Conversion) (disk : Disk) : Disk :=
  (c.preparing disk).2.disk.put (c.prepared / "_quarto.yml").place (.file rendererSettings)

/-- The disk that the renderer leaves. -/
def Conversion.laidOut (c : Conversion) (disk : Disk) : Disk :=
  Shell.layOut c.output.place (c.configured disk) c.renderer.pages

/-- A run gets as far as to start the renderer on some notebooks. -/
structure Conversion.Renders (c : Conversion) (disk : Disk) (due : List (List String)) : Prop where
  installed : c.renderer.isInstalled = true
  found : disk.exists? c.notebooks.place = true
  nonempty : due ≠ []
  prepared : (c.preparing disk).1.toOption = some due
  configurable : ((c.preparing disk).2.disk.write (c.prepared / "_quarto.yml").place
    rendererSettings).toOption.isSome = true

instance (c : Conversion) (disk : Disk) (due : List (List String)) :
    Decidable (c.Renders disk due) :=
  decidable_of_iff (c.renderer.isInstalled = true ∧ disk.exists? c.notebooks.place = true ∧
      due ≠ [] ∧ (c.preparing disk).1.toOption = some due ∧
      ((c.preparing disk).2.disk.write (c.prepared / "_quarto.yml").place
        rendererSettings).toOption.isSome = true)
    ⟨fun ⟨hi, hf, hn, hp, hc⟩ => ⟨hi, hf, hn, hp, hc⟩,
      fun h => ⟨h.installed, h.found, h.nonempty, h.prepared, h.configurable⟩⟩

namespace Conversion.Renders

variable {disk : Disk}

theorem preparing_eq (h : c.Renders disk due) :
    (c.prepareDue (c.sources disk)).result (Desk.on disk) = (.ok due, (c.preparing disk).2) :=
  Job.result_of_toOption h.prepared

theorem due_eq (h : c.Renders disk due) (hfit : c.IsFit disk) : c.due disk = due :=
  (prepareDue_eq_ok (fun _ => hfit.of_sources) h.preparing_eq).symm

theorem write_eq (h : c.Renders disk due) :
    (c.preparing disk).2.disk.write (c.prepared / "_quarto.yml").place rendererSettings =
      .ok (c.configured disk) := by
  obtain ⟨d, hd⟩ := Option.isSome_iff_exists.mp h.configurable
  have hwrite := Attempt.eq_ok_of_toOption hd
  rw [hwrite, Disk.write_eq_ok hwrite]
  rfl

theorem sameApart (h : c.Renders disk due) (hfit : c.IsFit disk) :
    Disk.SameApart c.target.place disk (c.laidOut disk) := by
  have hprepared := (prepares_prepareDue fun _ => hfit.of_sources).of_result h.preparing_eq
  have hconfigured : Disk.SameApart c.prepared.place disk (c.configured disk) :=
    hprepared.trans (.put (.inr c.prefix_settings) _)
  exact (hconfigured.above c.prefix_target_prepared).trans
    ((sameApart_layOut ..).above c.prefix_target_output)

/-- Such a run ends as making the pages does. -/
theorem ends_run {Q : Except Halt Unit → Desk → Prop} (h : c.Renders disk due)
    (hpages : Job.Ends (c.makePages due) (c.configured disk) Q) : Job.Ends c.run disk Q := by
  have hprepare := h.preparing_eq
  have hsome : (c.sources disk).isEmpty = false := by
    rw [Bool.eq_false_iff]
    intro hempty
    rw [List.isEmpty_iff.mp hempty] at hprepare
    cases congrArg Prod.fst hprepare
    exact h.nonempty rfl
  unfold Conversion.run
  refine .print_bind (.print_bind (.print_bind ?_))
  rw [h.installed]
  refine .disk_bind ?_
  rw [h.found]
  refine .disk_bind ?_
  simp only [hsome, Bool.false_eq_true, if_false]
  refine .print_bind (.print_bind (.bind_cases ?_ ?_))
  -- what is prepared depends on the disk only, so it is the same from any desk
  all_goals
    intro k₂ _ k₃ hk₂ hresult
    obtain ⟨hend, hdisk⟩ := sees_prepareDue c (c.sources disk) k₂ (Desk.on disk) hk₂
    rw [hprepare, hresult] at hend hdisk
    cases hend
  suffices hrest : Job.Ends _ (c.preparing disk).2.disk Q from hrest k₃ hdisk
  refine .print_bind ?_
  rw [if_neg (by simpa using h.nonempty)]
  exact .print_bind (.change_bind_of_ok h.write_eq
    (.print_bind (.print_bind (.print_bind hpages))))

/-- If the renderer fails, the run does, and leaves what the renderer has. -/
theorem run_stops (h : c.Renders disk due) (hfailure : c.renderer.failure? ≠ none) :
    (∃ halt, (c.run.result (Desk.on disk)).1 = .error halt) ∧
      (c.run.result (Desk.on disk)).2.disk = c.laidOut disk := by
  let Q : Except Halt Unit → Desk → Prop := fun r k' =>
    (∃ halt, r = .error halt) ∧ k'.disk = c.laidOut disk
  suffices hrun : Job.Ends c.run disk Q from hrun (Desk.on disk) rfl
  refine h.ends_run fun k₁ hk₁ => ?_
  obtain ⟨k₂, -, hdisk, ⟨-, halt, hresult⟩ | ⟨hnone, -⟩⟩ := makePages_result c due k₁
  · rw [hresult]
    exact ⟨⟨halt, rfl⟩, hdisk.trans (by rw [hk₁]; rfl)⟩
  · exact absurd hnone hfailure

/-- If the renderer does not fail, the run succeeds if the pages can be published. -/
theorem run_succeeds (h : c.Renders disk due) (hfailure : c.renderer.failure? = none)
    (hpublish : ∀ k₂, k₂.disk = c.laidOut disk → ((c.publishAll due).result k₂).1 = .ok ()) :
    ∃ k', c.run.result (Desk.on disk) = (.ok (), k') := by
  have hrun : Job.Ends c.run disk fun r _ => r = .ok () := by
    refine h.ends_run fun k₁ hk₁ => ?_
    obtain ⟨k₂, -, hdisk, ⟨hsome, -⟩ | ⟨-, line, hresult⟩⟩ := makePages_result c due k₁
    · exact absurd hfailure hsome
    · have hend := hpublish k₂ (by rw [hdisk, hk₁]; rfl)
      rw [hresult, Job.result_bind]
      revert hend
      rcases (c.publishAll due).result k₂ with ⟨r, k₃⟩
      rintro ⟨⟩
      rfl
  exact ⟨_, Prod.ext (hrun (Desk.on disk) rfl) rfl⟩

/-- It does so with a single page if this has a name that stands for itself. -/
theorem run_succeeds_single {text : String} (h : c.Renders disk [parts]) (hfit : c.IsFit disk)
    (hfailure : c.renderer.failure? = none) (hsound : (c.laidOut disk).IsSound)
    (hup : ".." ∉ parts) (hpage : Tree.ofFiles c.renderer.pages (pageParts parts) = some text)
    (htext : HasBytes text.toList)
    (hstem : ∀ ch ∈ (c.pageOf parts).stem.toList, isSimple ch = true)
    (hlong : Disk.isLong ((c.pageOf parts).stem ++ ".ipynb") = false)
    (hnames : ∀ p ∈ namesakes disk c.notebooks (c.pageOf parts).stem, ∀ s ∈ p,
      HasBytes s.toList) : ∃ k', c.run.result (Desk.on disk) = (.ok (), k') := by
  refine h.run_succeeds hfailure fun k₂ hdisk => ?_
  have hfile : k₂.disk.fileAt (c.pageOf parts).place = some text := by
    rw [c.pageOf_place hup, hdisk, Conversion.laidOut, Shell.fileAt_layOut c.output_place_ne_nil,
      hpage, Option.some_or]
  have hbytes : ∀ p ∈ namesakes k₂.disk c.notebooks (c.pageOf parts).stem, ∀ s ∈ p,
      HasBytes s.toList := by
    rwa [hdisk, namesakes, (h.sameApart hfit).matching_eq hfit.apart, ← namesakes]
  obtain ⟨k₃, hresult, -⟩ := publish_relinks (hdisk ▸ hsound) hfile htext hstem hlong hbytes
  exact congrArg Prod.fst (Job.bind_of_ok hresult)

end Conversion.Renders

/-- Two notebooks of the same name, one of them in a directory below the other, and the page of the
other. A search gives what lies right in a directory first. -/
def twins : Disk where
  nodes := [(["r"], .dir), (["r", "docs"], .dir), (["r", "docs", "notebooks"], .dir),
    (["r", "docs", "notebooks", "a"], .dir),
    (["r", "docs", "notebooks", "a", "x.ipynb"], .file "\x7b\x7d"),
    (["r", "docs", "notebooks", "x.ipynb"], .file "\x7b\x7d"),
    (["t"], .dir), (["t", "docs"], .dir), (["t", "docs", "notebooks"], .dir),
    (["t", "docs", "notebooks", "x.mdx"], .file "")]
  listing := { Listing.sorted with levelFirst := true }

def twinPage : String := "---\ntitle: T\n---\n"

/-- Makes the page of the notebook in the lower directory. -/
def twinConversion : Conversion :=
  ⟨⟨"/", ["r"]⟩, ⟨"/", ["t"]⟩, ⟨true, [(["a", "x.mdx"], twinPage)], none⟩,
    fun place => place = ["t", "docs", "notebooks", "x.mdx"]⟩

theorem isFit_twins : twinConversion.IsFit twins := ⟨by decide +kernel, by decide +kernel⟩

theorem isTitled_twinPage : IsTitled twinPage :=
  ⟨"title: T".toList, [], ['T'], by decide +kernel, by decide +kernel⟩

theorem hasBytes_twinPage : HasBytes twinPage.toList := hasBytes_of_all (by decide +kernel)

theorem namesakes_twins : namesakes twins twinConversion.notebooks
    (twinConversion.pageOf ["a", "x.ipynb"]).stem = [["x.ipynb"], ["a", "x.ipynb"]] := by
  decide +kernel

theorem isSound_twins : (twinConversion.laidOut twins).IsSound := by
  apply Disk.isSound_of_nodes
  simp only [Disk.checkPlace_eq_ok_iff]
  decide +kernel

theorem twins_run : ∃ k', twinConversion.run.result (Desk.on twins) = (.ok (), k') := by
  have hrenders : twinConversion.Renders twins [["a", "x.ipynb"]] := by decide +kernel
  refine hrenders.run_succeeds_single isFit_twins rfl isSound_twins (by decide) rfl
    hasBytes_twinPage (List.all_eq_true.mp (by decide +kernel)) (by decide +kernel) ?_
  rw [namesakes_twins]
  simp only [List.forall_mem_cons]
  exact ⟨⟨hasBytes_of_all rfl, List.forall_mem_nil _⟩,
    ⟨hasBytes_of_all rfl, hasBytes_of_all rfl, List.forall_mem_nil _⟩, List.forall_mem_nil _⟩

theorem run_links_iff_twin : ∃ k' text,
    twinConversion.run.result (Desk.on twins) = (.ok (), k') ∧
      k'.disk.fileAt (twinConversion.pageOf ["a", "x.ipynb"]).place = some text ∧
      LinksTo text ["x.ipynb"] := by
  obtain ⟨k', hrun⟩ := twins_run
  obtain ⟨text, hfile, hlinks⟩ := run_links_iff isFit_twins hrun
    (by decide +kernel : ["a", "x.ipynb"] ∈ twinConversion.due twins) rfl isTitled_twinPage
  rw [show (Desk.on twins).disk = twins from rfl, namesakes_twins] at hlinks
  exact ⟨k', text, hrun, hfile, hlinks.2.1⟩

/-- The page of a notebook that has its name from one further up has no links to it. -/
theorem run_links_elsewhere : ∃ k' text,
    twinConversion.run.result (Desk.on twins) = (.ok (), k') ∧
      k'.disk.fileAt (twinConversion.pageOf ["a", "x.ipynb"]).place = some text ∧
      ¬LinksTo text ["a", "x.ipynb"] := by
  obtain ⟨k', hrun⟩ := twins_run
  obtain ⟨text, hfile, -, hlinks⟩ := linksTo_run isFit_twins hrun
    (by decide +kernel : ["a", "x.ipynb"] ∈ twinConversion.due twins) rfl isTitled_twinPage
    (congrArg List.head? namesakes_twins)
  refine ⟨k', text, hrun, hfile, fun hother => ?_⟩
  exact absurd (hlinks.unique hother (by decide) (by decide)) (by decide)

end Run

end DocSite.Notebook
