import DocSite.Json.View
import DocSite.Notebook.Digest

/-!
What becomes of the cells of a notebook. The headings that open patterns divide its cells into a
lead and chapters; the code of the lead goes to the snippets, and each chapter to a pattern. The
texts of a chapter are told with the pattern as a whole, and none of them with its code.
-/

namespace DocSite.Notebook

section Cells

/-- The text of a cell that opens a pattern. -/
def Cell.header? : Cell → Option String
  | .text source => if opensPattern source.toList then some source else none
  | _ => none

/-- The text of a text cell that opens no pattern. -/
def Cell.prose? : Cell → Option String
  | .text source => if opensPattern source.toList then none else some source
  | _ => none

def Cell.code? : Cell → Option String
  | .code source _ => some source
  | _ => none

def Plain (cells : List Cell) : Prop := ∀ c ∈ cells, c.header? = none

theorem Cell.header?_eq_some {c : Cell} {source : String} (h : c.header? = some source) :
    c = .text source ∧ opensPattern source.toList = true := by
  cases c with
  | text source' =>
    rw [header?] at h
    split at h
    · rename_i hopens
      obtain rfl := Option.some.inj h
      exact ⟨rfl, hopens⟩
    · cases h
  | code _ _ => cases h
  | other => cases h

theorem Cell.header?_text_eq_none_iff {source : String} :
    (Cell.text source).header? = none ↔ ¬ opensPattern source.toList = true := by
  simp [header?]

theorem filterMap_header?_of_plain {cells : List Cell} (h : Plain cells) :
    cells.filterMap Cell.header? = [] := List.filterMap_eq_nil_iff.mpr h

end Cells

section Layout

/-- A cell that opens a pattern, with the cells up to the next such one. -/
structure Chapter where
  header : String
  opens : opensPattern header.toList = true
  body : List Cell
  plain : Plain body

def Chapter.cells (ch : Chapter) : List Cell := .text ch.header :: ch.body

/-- The cells of a notebook, divided at those that open a pattern. -/
structure Layout where
  lead : List Cell
  plain : Plain lead
  chapters : List Chapter

namespace Layout

def cells (l : Layout) : List Cell := l.lead ++ l.chapters.flatMap Chapter.cells

def empty : Layout := ⟨[], nofun, []⟩

def cons (c : Cell) (l : Layout) : Layout :=
  match h : c.header? with
  | some source =>
    ⟨[], nofun, ⟨source, (Cell.header?_eq_some h).2, l.lead, l.plain⟩ :: l.chapters⟩
  | none => ⟨c :: l.lead, List.forall_mem_cons.mpr ⟨h, l.plain⟩, l.chapters⟩

theorem cells_cons (c : Cell) (l : Layout) : (l.cons c).cells = c :: l.cells := by
  unfold cons
  split
  · rename_i source h
    obtain ⟨rfl, -⟩ := Cell.header?_eq_some h
    rfl
  · rfl

end Layout

def layout (cells : List Cell) : Layout := cells.foldr Layout.cons .empty

theorem cells_layout (cells : List Cell) : (layout cells).cells = cells := by
  induction cells with
  | nil => rfl
  | cons c cells ih => exact (Layout.cells_cons c (layout cells)).trans (congrArg (c :: ·) ih)

end Layout

section Drafting

variable {patterns : List Recipe} {p : Recipe} {snippets : List Snippet} {c : Cell}
  {cells : List Cell}

/-- The block that a code cell inside a pattern becomes: no text goes with it. -/
def Cell.block? : Cell → Option Block
  | .code source output? => some ⟨source, output?, ""⟩
  | _ => none

def Chapter.recipe (ch : Chapter) : Recipe where
  title := String.ofList (headingText ch.header.toList)
  explanation := ch.body.filterMap Cell.prose?
  blocks := ch.body.filterMap Cell.block?

/-- A pattern with the cells of a chapter put to its end. -/
def Recipe.extend (p : Recipe) (cells : List Cell) : Recipe where
  title := p.title
  explanation := p.explanation ++ cells.filterMap Cell.prose?
  blocks := p.blocks ++ cells.filterMap Cell.block?

theorem Recipe.extend_extend (p : Recipe) (cells cells' : List Cell) :
    (p.extend cells).extend cells' = p.extend (cells ++ cells') := by
  simp [extend]

namespace Draft

theorem add_header (d : Draft) {source : String} (h : opensPattern source.toList = true) :
    d.add (.text source) =
      ⟨d.allPatterns, some ⟨String.ofList (headingText source.toList), [], []⟩, [], d.snippets⟩ := by
  rw [add, if_pos h, allPatterns]

theorem add_in_pattern (h : c.header? = none) :
    add ⟨patterns, some p, [], snippets⟩ c = ⟨patterns, some (p.extend [c]), [], snippets⟩ := by
  -- the lead is empty and stays so, since texts go to the pattern
  cases c with
  | text source =>
    simp [add, Recipe.extend, Cell.prose?, Cell.block?, Cell.header?_text_eq_none_iff.mp h]
  | code source output? => simp [add, Recipe.extend, Cell.prose?, Cell.block?]
  | other =>
    have hsame : p.extend [.other] = ⟨p.title, p.explanation ++ [], p.blocks ++ []⟩ := rfl
    rw [hsame, List.append_nil, List.append_nil]
    rfl

theorem foldl_add_body (h : Plain cells) :
    cells.foldl add ⟨patterns, some p, [], snippets⟩ =
      ⟨patterns, some (p.extend cells), [], snippets⟩ := by
  induction cells generalizing p with
  | nil => simp [Recipe.extend]
  | cons c cells ih =>
    obtain ⟨hc, hcells⟩ := List.forall_mem_cons.mp h
    rw [List.foldl_cons, add_in_pattern hc, ih hcells, Recipe.extend_extend, List.singleton_append]

theorem foldl_add_chapter (d : Draft) (ch : Chapter) :
    ch.cells.foldl add d = ⟨d.allPatterns, some ch.recipe, [], d.snippets⟩ := by
  rw [Chapter.cells, List.foldl_cons, add_header d ch.opens, foldl_add_body ch.plain]
  rfl

theorem foldl_add_chapters (d : Draft) (chapters : List Chapter) :
    ((chapters.flatMap Chapter.cells).foldl add d).allPatterns =
        d.allPatterns ++ chapters.map Chapter.recipe ∧
      ((chapters.flatMap Chapter.cells).foldl add d).snippets = d.snippets := by
  induction chapters generalizing d with
  | nil => simp
  | cons ch chapters ih =>
    -- the header puts the pattern before it behind all others, and the chapter becomes the last
    rw [List.flatMap_cons, List.foldl_append, foldl_add_chapter]
    obtain ⟨hpatterns, hsnippets⟩ := ih ⟨d.allPatterns, some ch.recipe, [], d.snippets⟩
    refine ⟨hpatterns.trans ?_, hsnippets⟩
    rw [allPatterns, Option.toList_some, List.append_assoc, List.map_cons, List.singleton_append]

theorem foldl_add_lead (h : Plain cells) (lead : List String) (snippets : List Snippet) :
    ∃ lead' snippets', cells.foldl add ⟨[], none, lead, snippets⟩ = ⟨[], none, lead', snippets'⟩ ∧
      snippets'.map Snippet.code = snippets.map Snippet.code ++ cells.filterMap Cell.code? := by
  induction cells generalizing lead snippets with
  | nil => exact ⟨lead, snippets, rfl, by simp⟩
  | cons c cells ih =>
    obtain ⟨hc, hcells⟩ := List.forall_mem_cons.mp h
    -- a text only lengthens the lead, and code only the snippets
    rw [List.foldl_cons]
    cases c with
    | text source =>
      rw [add, if_neg (Cell.header?_text_eq_none_iff.mp hc)]
      exact ih hcells _ _
    | code source output? =>
      obtain ⟨lead', snippets', hfold, hcodes⟩ := ih hcells _ _
      exact ⟨lead', snippets', hfold, by simp [hcodes, Cell.code?]⟩
    | other => exact ih hcells _ _

end Draft

theorem ofCells_cells (l : Layout) :
    (Draft.ofCells l.cells).allPatterns = l.chapters.map Chapter.recipe ∧
      (Draft.ofCells l.cells).snippets.map Snippet.code = l.lead.filterMap Cell.code? := by
  obtain ⟨lead, snippets, hlead, hcodes⟩ := Draft.foldl_add_lead l.plain [] []
  rw [Draft.ofCells, Layout.cells, List.foldl_append, Draft.empty, hlead]
  obtain ⟨hpatterns, hsnippets⟩ :=
    Draft.foldl_add_chapters ⟨[], none, lead, snippets⟩ l.chapters
  exact ⟨hpatterns, (congrArg _ hsnippets).trans hcodes⟩

theorem patterns_digest (path : String) (cells : List Cell) :
    (digest path cells).patterns = (layout cells).chapters.map Chapter.recipe := by
  rw [← (ofCells_cells (layout cells)).1, cells_layout]
  rfl

theorem snippets_digest (path : String) (cells : List Cell) :
    (digest path cells).snippets.map Snippet.code = (layout cells).lead.filterMap Cell.code? := by
  rw [← (ofCells_cells (layout cells)).2, cells_layout]
  rfl

end Drafting

section Conservation

theorem Chapter.codes_recipe (ch : Chapter) :
    ch.recipe.blocks.map Block.code = ch.body.filterMap Cell.code? := by
  rw [recipe, List.map_filterMap]
  congr 1
  funext c
  cases c <;> rfl

theorem Chapter.header?_header (ch : Chapter) :
    (Cell.text ch.header).header? = some ch.header := by
  rw [Cell.header?, if_pos ch.opens]

theorem Chapter.prose_cells (ch : Chapter) :
    ch.cells.filterMap Cell.prose? = ch.recipe.explanation := by
  have hheader : (Cell.text ch.header).prose? = none := by rw [Cell.prose?, if_pos ch.opens]
  rw [cells, List.filterMap_cons_none hheader, recipe]

theorem filterMap_code?_cells (l : Layout) : l.cells.filterMap Cell.code? =
    l.lead.filterMap Cell.code? ++ l.chapters.flatMap fun ch => ch.body.filterMap Cell.code? := by
  rw [Layout.cells, List.filterMap_append, List.filterMap_flatMap]
  rfl

theorem filterMap_header?_cells (l : Layout) :
    l.cells.filterMap Cell.header? = l.chapters.map Chapter.header := by
  have hchapter (ch : Chapter) : ch.cells.filterMap Cell.header? = [ch.header] := by
    rw [Chapter.cells, List.filterMap_cons_some ch.header?_header,
      filterMap_header?_of_plain ch.plain]
  rw [Layout.cells, List.filterMap_append, filterMap_header?_of_plain l.plain, List.nil_append,
    List.filterMap_flatMap]
  simp only [hchapter]
  exact (List.map_eq_flatMap ..).symm

theorem dropWhile_cells (l : Layout) :
    l.cells.dropWhile (fun c => c.header?.isNone) = l.chapters.flatMap Chapter.cells := by
  have hlead : ∀ c ∈ l.lead, c.header?.isNone = true := fun c hc => by rw [l.plain c hc]; rfl
  rw [Layout.cells, List.dropWhile_append_of_pos hlead]
  cases l.chapters with
  | nil => rfl
  | cons ch chapters =>
    rw [List.flatMap_cons, Chapter.cells, List.cons_append,
      List.dropWhile_cons_of_neg (by simp [ch.header?_header])]

/-- Every cell of a notebook is kept once and in its place. The code before the first header goes
to the snippets and all other code to the patterns; there is a pattern for each header, with its
heading for a title, and it has the texts and the code that stand up to the next header. -/
theorem digest_keeps_cells (path : String) (cells : List Cell) :
    let d := digest path cells
    let l := layout cells
    l.cells = cells ∧
      d.snippets.map Snippet.code ++ d.patterns.flatMap (fun p => p.blocks.map Block.code) =
        cells.filterMap Cell.code? ∧
      d.patterns.map Recipe.title =
        (cells.filterMap Cell.header?).map (fun h => String.ofList (headingText h.toList)) ∧
      d.patterns.flatMap Recipe.explanation =
        (cells.dropWhile fun c => c.header?.isNone).filterMap Cell.prose? ∧
      d.snippets.map Snippet.code = l.lead.filterMap Cell.code? ∧
      d.patterns.map (fun p => (p.title, p.explanation, p.blocks.map Block.code)) =
        l.chapters.map fun ch => (String.ofList (headingText ch.header.toList),
          ch.body.filterMap Cell.prose?, ch.body.filterMap Cell.code?) := by
  intro d l
  have hcells : l.cells = cells := cells_layout cells
  have hsnippets : d.snippets.map Snippet.code = l.lead.filterMap Cell.code? :=
    snippets_digest path cells
  have hpatterns : d.patterns = l.chapters.map Chapter.recipe := patterns_digest path cells
  refine ⟨hcells, ?_, ?_, ?_, hsnippets, ?_⟩
  · rw [hsnippets, hpatterns, ← hcells, filterMap_code?_cells, List.flatMap_map]
    simp only [Chapter.codes_recipe]
  · rw [hpatterns, ← hcells, filterMap_header?_cells, List.map_map, List.map_map]
    rfl
  · rw [hpatterns, ← hcells, dropWhile_cells, List.flatMap_map, List.filterMap_flatMap]
    simp only [Chapter.prose_cells]
  · rw [hpatterns, List.map_map]
    refine List.map_congr_left fun ch _ => ?_
    rw [Function.comp_apply, ch.codes_recipe]
    rfl

end Conservation

section Steps

/-- A code cell of a chapter, with the texts since the code before it or since the header. -/
structure Step where
  code : String
  texts : List String

/-- The text that leads up to a step. -/
def Step.lead (s : Step) : String := "\n".intercalate s.texts

def stepsFrom (texts : List String) : List Cell → List Step
  | [] => []
  | .text source :: cells => stepsFrom (texts ++ [source]) cells
  | .code source _ :: cells => ⟨source, texts⟩ :: stepsFrom [] cells
  | .other :: cells => stepsFrom texts cells

def Chapter.steps (ch : Chapter) : List Step := stepsFrom [] ch.body

def Block.shown (b : Block) : String × String := (b.code, b.explanation)

/-- The steps that a catalogue shows of a notebook. -/
def shownSteps (dataset : Json) : List (String × String) :=
  (dataset.field "hasPart").items.flatMap fun guide =>
    (guide.field "step").items.map fun step =>
      ((step.field "codeSample").textAt "text", step.textAt "text")

theorem shownSteps_dataset (position : Nat) (d : Digest) :
    shownSteps (d.dataset position) =
      (d.patterns.flatMap Recipe.blocks).map Block.shown := by
  have hguide (p : Recipe) : ((p.guide.field "step").items.map fun step =>
      ((step.field "codeSample").textAt "text", step.textAt "text")) =
        p.blocks.map Block.shown := by
    change ((numbered p.blocks).map fun entry => entry.2.step entry.1).map _ = _
    rw [numbered, List.map_map, List.map_map]
    have hblocks := congrArg (List.map Block.shown) (List.zipIdx_map_fst 1 p.blocks)
    rw [List.map_map] at hblocks
    exact hblocks
  change (d.patterns.map Recipe.guide).flatMap _ = _
  rw [List.flatMap_map, List.map_flatMap]
  simp only [hguide]

theorem blocks_recipe (ch : Chapter) :
    ch.recipe.blocks.map Block.shown =
      ch.steps.map fun s => (s.code, "") := by
  have hsteps (texts : List String) (cells : List Cell) :
      (cells.filterMap Cell.block?).map Block.shown =
        (stepsFrom texts cells).map fun s => (s.code, "") := by
    induction cells generalizing texts with
    | nil => rfl
    | cons c cells ih =>
      cases c with
      | text source => exact ih _
      | code source output? => exact congrArg ((source, "") :: ·) (ih [])
      | other => exact ih _
  exact hsteps [] ch.body

theorem Step.lead_eq_empty_iff {s : Step} : s.lead = "" ↔ s.texts = [] ∨ s.texts = [""] := by
  rw [lead]
  rcases s.texts with _ | ⟨first, _ | ⟨second, rest⟩⟩
  · simp
  · simp
  · rw [String.intercalate_cons_cons]
    simp

/-- The code of a pattern is shown without the texts that lead up to it, in the digest and in the
catalogue. So a step carries its explanation exactly if there is nothing to be said: no text stands
between it and the code or header before it, or one that is empty. -/
theorem steps_explained_iff (path : String) (cells : List Cell) (position : Nat) :
    let d := digest path cells
    let l := layout cells
    let blocks := (d.patterns.flatMap Recipe.blocks).map Block.shown
    let steps := l.chapters.flatMap Chapter.steps
    l.cells = cells ∧
      shownSteps (d.dataset position) = blocks ∧
      blocks = steps.map (fun s => (s.code, "")) ∧
      ∀ i : Nat, blocks[i]? = steps[i]?.map (fun s => (s.code, s.lead)) ↔
        ∀ s, steps[i]? = some s → s.texts = [] ∨ s.texts = [""] := by
  intro d l blocks steps
  have hblocks : blocks = steps.map fun s => (s.code, "") := by
    simp only [blocks, steps, d, l, patterns_digest, List.flatMap_map, List.map_flatMap,
      blocks_recipe]
  refine ⟨cells_layout cells, shownSteps_dataset position d, hblocks, fun i => ?_⟩
  rw [hblocks, List.getElem?_map]
  cases steps[i]? with
  | none => simp
  | some s => simp [eq_comm (a := ""), Step.lead_eq_empty_iff]

/-- A pattern of one step with a text that leads up to it. -/
def explainedStep : List Cell := [.text "## Step 1", .text "Why.", .code "f()" none]

theorem step_left_unexplained :
    ((digest "n.ipynb" explainedStep).patterns.flatMap Recipe.blocks).map Block.explanation = [""] ∧
      ((layout explainedStep).chapters.flatMap Chapter.steps).map Step.lead = ["Why."] := by
  decide +kernel

end Steps

end DocSite.Notebook
