import DocSite.Manual
import DocSite.Notebook.Page
import DocSite.Site.Paths

namespace DocSite.Notebook

/-- How a renderer fails. It has no code if it was stopped when its time was up. -/
structure Renderer.Failure where
  code? : Option Int
  out : String
  err : String
  deriving DecidableEq, Repr

def Renderer.timeLimit : Nat := 300

def Renderer.Failure.ending (f : Failure) : Ending :=
  match f.code? with
  | some code => .code code
  | none => .timedOut timeLimit

/-- The program that makes pages of notebooks. It may write pages and then fail. -/
structure Renderer where
  isInstalled : Bool
  /-- The pages it writes, by their places in the directory it is given. -/
  pages : List (List String × String)
  failure? : Option Renderer.Failure

structure Conversion where
  repository : Path
  target : Path
  renderer : Renderer
  isFresh : List String → Bool

namespace Conversion

def notebooks (c : Conversion) : Path := c.repository / "docs" / "notebooks"

def prepared (c : Conversion) : Path := c.target / "pre-docs" / "notebooks"

def output (c : Conversion) : Path := c.target / "docs" / "notebooks"

end Conversion

def prepareFile (source target : Path) : Job Unit := do
  let text ← Job.readText source.place
  Job.writeText target.place (← Job.ofExcept (prepare source.toString text))

/-- Makes a published page of a converted notebook: the head gets links to the notebook, and the
body is put in order. A page without a head or a title, or without a notebook, stays as it is. -/
def publish (page notebooks : Path) : Job Unit := do
  match frontmatter? (← Job.readText page.place) with
  | none => Job.print ("⚠️  No frontmatter found in " ++ page.name ++ ", skipping")
  | some (head, body) =>
    match title? head with
    | none => Job.print ("⚠️  No title in frontmatter for " ++ page.name ++ ", skipping")
    | some title =>
      if Text.contains ['*', '*'] page.stem.toList then
        Job.fail (α := Unit)
          (.badValue "Invalid pattern: '**' can only be an entire path component")
      match ← Job.ofExcept ((← Job.disk).search notebooks.place (page.stem ++ ".ipynb")) with
      | [] => Job.print ("⚠️  Could not find original notebook for " ++ page.name)
      | parts :: _ =>
        let notebook := "/".intercalate ("docs" :: "notebooks" :: parts)
        let body ← Job.ofExcept (publishedBody page.stem body)
        Job.writeText page.place (publishedHead (String.ofList title) notebook ++ body)

def rendererSettings : String :=
  "project:\n  type: default\n\nformat:\n  docusaurus-md:\n" ++
  "    # Output MDX files directly\n    output-ext: mdx\n" ++
  "    # Test with both echo and output true\n    echo: true\n    output: true\n" ++
  "    warning: false\n    error: false\n    # Preserve YAML frontmatter\n" ++
  "    preserve-yaml: true\n    # Structure settings\n    standalone: false\n" ++
  "    toc: false\n    wrap: auto\n    # ENHANCED media handling\n    fig-format: png\n" ++
  "    fig-dpi: 300\n    fig-path: images/\n" ++
  "    # Extract media from notebooks - needs to be a path string\n" ++
  "    extract-media: images/\n    # Resource paths for finding images\n" ++
  "    resource-path: [\".\", \"images/\", \"../images/\"]\n" ++
  "    default-image-extension: png\n    # Markdown headings\n    markdown-headings: atx\n"

def Conversion.sources (c : Conversion) (d : Disk) : List (List String) :=
  (d.matching c.notebooks.place "*.ipynb").filter fun parts =>
    !(c.notebooks.parts ++ parts).contains ".ipynb_checkpoints"

def Conversion.pageOf (c : Conversion) (parts : List String) : Path :=
  let p : Path := ⟨"", parts⟩
  c.output.join (p.withSuffix ".mdx")

/-- Whether the page of a notebook is missing or older than it. -/
def Conversion.isDue (c : Conversion) (d : Disk) (parts : List String) : Bool :=
  let place := (c.pageOf parts).place
  !d.exists? place || !c.isFresh place

def Conversion.prepareDue (c : Conversion) : List (List String) → Job (List (List String))
  | [] => return []
  | parts :: rest => do
    if c.isDue (← Job.disk) parts then
      let target := c.prepared.join ⟨"", parts⟩
      Job.change (·.makeDir target.parent.place)
      prepareFile (c.notebooks.join ⟨"", parts⟩) target
      return parts :: (← c.prepareDue rest)
    else c.prepareDue rest

def Conversion.render (c : Conversion) (due : List (List String)) : Job Unit := do
  let files := due.map fun parts => (c.prepared.join ⟨"", parts⟩).toString
  let words := ["quarto", "render"] ++ files ++
    ["--quiet", "--to", "docusaurus-md", "--output-dir", c.output.toString]
  Job.record ⟨words, some c.prepared.toString⟩
  Job.setDisk (c.renderer.pages.foldl
    (fun d (parts, text) => d.addFile (c.output.place ++ parts) text) (← Job.disk))
  match c.renderer.failure? with
  | none => return
  | some failure =>
    Job.complain failure.out
    Job.complain failure.err
    Job.fail (.commandFailed words failure.ending)

def Conversion.run (c : Conversion) : Job Unit := do
  Job.print "   Converting Jupyter notebooks to Mintlify MDX format..."
  Job.print ("      Repository: " ++ c.repository.toString)
  Job.print ("      Output: " ++ c.target.toString)
  if !c.renderer.isInstalled then Job.fail (α := Unit) (.givenUp "Quarto is not installed.")
  if !(← Job.disk).exists? c.notebooks.place then
    Job.fail (α := Unit) (.missing ("Notebooks directory not found: " ++ c.notebooks.toString))
  let sources := c.sources (← Job.disk)
  if sources.isEmpty then
    Job.fail (α := Unit) (.givenUp ("No notebooks found: " ++ c.notebooks.toString))
  Job.print ("   " ++ toString sources.length ++ " total notebook(s).")
  Job.print "   Preparing notebooks ..."
  let due ← c.prepareDue sources
  Job.print ("   " ++ toString due.length ++ " notebook(s) need conversion.")
  if due.isEmpty then return
  Job.print "   Preparing Quarto configuration ..."
  Job.change (·.write (c.prepared / "_quarto.yml").place rendererSettings)
  Job.print "   Running Quarto to convert notebooks ..."
  Job.print ("      Source: " ++ c.prepared.toString)
  Job.print ("      Output: " ++ c.output.toString)
  c.render due
  let pages := (← Job.disk).matching c.output.place "*.mdx"
  Job.print ("   Successfully converted " ++ toString pages.length ++ " notebook(s) to MDX")
  Job.print "   Postprocessing MDX files ..."
  due.forM fun parts => publish (c.pageOf parts) c.notebooks
  Job.print ("   Updated frontmatter for " ++ toString due.length ++ " file(s)")

def repositoryAmong? (d : Disk) : List Path → Option Path
  | [] => none
  | p :: ps =>
    if d.exists? (p / "docs" / "notebooks").place then some p else repositoryAmong? d ps

def upwards : Nat → Path → List Path
  | 0, _ => []
  | count + 1, p => p :: upwards count p.parent

def noRepository : String :=
  "Could not find pixeltable repository. Make sure you're running this from within the pixeltable repo."

/-- The repository that a directory belongs to, at most four levels above it. -/
def findRepository (cwd : Path) : Job Path := do
  match repositoryAmong? (← Job.disk) (upwards 5 cwd) with
  | some p => return p
  | none => Job.fail (.missing noRepository)

def manual : Manual :=
  ⟨"Convert Jupyter notebooks to Mintlify MDX format using Quarto", [helpOption]⟩

def convertFrom (cwd : Path) (renderer : Renderer) (isFresh : List String → Bool) : Job Unit := do
  let repository ← findRepository cwd
  let target := Site.sourceDir repository / "notebooks"
  Conversion.run ⟨repository, target, renderer, isFresh⟩

def runConversion (cwd : Path) (renderer : Renderer) (isFresh : List String → Bool)
    (program : String) (args : List String) : Job Unit := do
  let _ ← manual.read program args
  Job.rescue (convertFrom cwd renderer isFresh) fun fault => do
    Job.complain ("\n❌ Conversion failed: " ++ fault.message)
    Job.exit 1

end DocSite.Notebook
