import DocSite.Changelog.Publish
import DocSite.Notebook.Conversion
import DocSite.Shell
import DocSite.Site.Paths

namespace DocSite.Site

def copyFile (d : Disk) (target : List String) (name text : String) : Except Fault Disk :=
  if d.isDir target then d.write (target ++ [name]) text else d.write target text

def copyOver (source target : List String) (d : Disk) : Except Fault Disk :=
  match d.find? source with
  | none => .ok d
  | some (.file text) => copyFile d target (source.getLast?.getD "") text
  | some .dir => do
    let d ← d.makeDir target
    (d.entries source).foldlM
      (fun d (parts, node) =>
        match node with
        | .dir => d.makeDir (target ++ parts)
        | .file text => copyFile d (target ++ parts) (parts.getLast?.getD "") text)
      d

structure Builder where
  shell : Shell
  network : Network
  renderer : Notebook.Renderer
  repository : Path
  quiet : Bool

namespace Builder

def sources (b : Builder) : Path := b.repository / "docs" / "mintlify"

def outline (b : Builder) : Path := b.repository / "docs" / "public_api.opml"

def target (b : Builder) : Path := b.repository / "target"

def output (b : Builder) : Path := b.target / "docs"

def copySources (b : Builder) : Job Unit := do
  let names := (← Job.disk).names b.sources.place
  (names.filter fun name => !name.startsWith ".").forM fun name =>
    Job.change (copyOver (b.sources.place ++ [name]) (b.output.place ++ [name]))

def referenceCommand (b : Builder) : Command :=
  ⟨"mintlifier" :: (if b.quiet then ["--no-errors"] else []), some b.repository.toString⟩

def makeReference (b : Builder) : Job Unit := do
  let o ← b.shell.call b.referenceCommand
  if o.code = 0 then
    Job.print o.out
    if o.err ≠ "" then Job.complain o.err
  else
    Job.complain "❌ Error running mintlifier:"
    Job.complain o.out
    Job.complain o.err
    Job.fail (.commandFailed b.referenceCommand.words (.code o.code))

def run (b : Builder) : Job Unit := do
  Job.print ("Building docs from repository: " ++ b.repository.toString)
  if !(← Job.disk).exists? b.sources.place then
    Job.fail (α := Unit) (.missing ("Source directory not found: " ++ b.sources.toString))
  if !(← Job.disk).exists? b.outline.place then
    Job.fail (α := Unit) (.missing ("OPML file not found: " ++ b.outline.toString))
  Job.print ("\nPreparing output directory: " ++ b.output.toString)
  Job.change (·.makeDir b.output.place)
  Job.print "\nGenerating notebooks ..."
  Notebook.Conversion.run ⟨b.repository, b.target, b.renderer, fun _ => false⟩
  Job.print "\nGenerating changelog from GitHub releases ..."
  Changelog.publish b.network b.repository (b.output / "changelog") "pixeltable/pixeltable"
  Job.print ("\nCopying source files from " ++ b.sources.toString ++ " to " ++ b.output.toString)
  b.copySources
  Job.print "\nRunning mintlifier to generate SDK documentation..."
  Job.print ("   OPML: " ++ b.outline.toString)
  Job.print ("   Output: " ++ b.output.toString)
  b.makeReference
  Job.print "\nDocumentation build complete!"
  Job.print ("   Output directory: " ++ b.output.toString)
  let errors ← check b.shell b.output
  if !errors.isEmpty then
    Job.complain "\n   Tip: Check the source docstrings for formatting issues"
    Job.complain ("   Run: cd " ++ b.output.toString ++ " && npx mintlify dev")
    Job.complain "   to see real-time parsing errors in context"

end Builder

def runBuild (package? : Option Package) (shell : Shell) (network : Network)
    (renderer : Notebook.Renderer) (cwd : Path) : Job Unit := do
  let repository ← ownRepository package? cwd
  Builder.run ⟨shell, network, renderer, repository, false⟩

end DocSite.Site
