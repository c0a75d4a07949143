import DocSite.Llm.Guide
import DocSite.Llm.Listing
import DocSite.Llm.Map
import DocSite.Notebook.Collect
import DocSite.Outline.Reader

namespace DocSite.Llm

structure Suite where
  scene : Scene
  now : Moment
  outline : Path
  backups : Path
  notebooks : Path
  output : Path
  read : Notebook.Reader

def mapName : String := "llm_map.jsonld"

def patternsName : String := "llm_dev_patterns.jsonld"

def ApiMap.addPage (m : ApiMap) (p : Outline.PageItem) : Except Fault ApiMap :=
  match p.kind with
  | "module" => (m.addModule p.path (p.children?.getD [])).map Prod.snd
  | "class" => (m.addClass p.path (p.children?.getD [])).map Prod.snd
  | "func" => (m.addFunction p.path).map Prod.snd
  | "type" => .ok (m.addType p.path).2
  | _ => .ok m

def pagesOf (tab? : Option Outline.Tab) : List Outline.PageItem :=
  match tab? with
  | some tab => tab.pages
  | none => []

namespace Suite

def makeMap (s : Suite) : Job Unit := do
  let tab? ← Outline.loadBackedUp s.outline s.backups s.now
  let m ← Job.ofExcept ((pagesOf tab?).foldlM ApiMap.addPage ⟨s.scene, s.now, []⟩)
  m.save (s.output / mapName) none

def makePatterns (s : Suite) : Job Unit := do
  let top : Path := ⟨"/", []⟩
  let _ ← Notebook.interfaceNames top s.outline
  Notebook.saveCatalog ⟨top, s.notebooks⟩ s.now (s.output / patternsName) s.read

def openingLine : String := "=== Pixeltable LLM Documentation Generator ===\n"

def closingLine : String := "\nLLMs can now use these files to understand Pixeltable completely."

def fileLine (width : Nat) (name purpose : String) : String :=
  "  - " ++ name ++ String.ofList (List.replicate (width - name.length) ' ') ++ " # " ++ purpose

def tellFiles (width : Nat) : Job Unit := do
  Job.print "\nFiles created:"
  Job.print (fileLine width mapName "Public API reference")
  Job.print (fileLine width patternsName "Developer patterns from notebooks")
  Job.print (fileLine width guideName "Guide to using the files")
  Job.print closingLine

end Suite

def projectRoot (file : Path) : Path := file.parent.parent.parent.parent

def runSuite (scene : Scene) (now : Moment) (project backups : Path)
    (read : Notebook.Reader := .plain) : Job Unit := do
  let tools := project / "docs" / "tools"
  let s : Suite :=
    ⟨scene, now, tools / "public_api.opml", backups, project / "docs" / "notebooks",
      tools / "llmdocs" / "llm_output", read⟩
  Job.print Suite.openingLine
  Job.change (·.makeDir s.output.place)
  Job.print "1. Generating llm_map.jsonld from OPML..."
  s.makeMap
  Job.print ("   ✓ Generated " ++ mapName)
  Job.print "\n2. Generating llm_dev_patterns.jsonld from notebooks..."
  s.makePatterns
  Job.print ("   ✓ Generated " ++ patternsName)
  Job.print "\n3. Generating llm_quick_reference.md..."
  publishGuide now s.output
  Job.print ("   ✓ Generated " ++ guideName)
  Job.print "\n✅ Complete! LLM docs generated in docs/tools/llmdocs/llm_output"
  Suite.tellFiles 30

/-- The part that reads outlines, which programs that stand alone find only on the search path. -/
def needReader (isFound : Bool) : Job Unit :=
  if isFound then return
  else Job.fail (.noModule "the reader of outlines is not on the search path")

def runStandalone (scene : Scene) (now : Moment) (program : Path) (isFound : Bool)
    (read : Notebook.Reader := .plain) : Job Unit := do
  let s : Suite :=
    ⟨scene, now, program.parent / "public_api.opml", program / "opml_bak",
      program.parent.parent / "notebooks", program / "llm_output", read⟩
  Job.print Suite.openingLine
  Job.change (·.makeDir s.output.place)
  Job.print "1. Generating llm_map.jsonld from OPML..."
  needReader isFound
  s.makeMap
  Job.print "2. Generating llm_dev_patterns.jsonld from notebooks..."
  s.makePatterns
  Job.print "3. Generating llm_quick_reference.md..."
  publishGuide now s.output
  Job.print ("\n✅ Complete! LLM docs generated in " ++ s.output.toString)
  Suite.tellFiles 23

def runListing (w : Api.World) (now : Moment) (program : Path) (isFound : Bool) : Job Unit := do
  needReader isFound
  let tab? ← Outline.loadBackedUp (program.parent / "public_api.opml") (program / "opml_bak") now
  let target ← publishListing w "main" now program (pagesOf tab?)
  Job.print ("\n✅ Generated " ++ target.toString)

def runPatterns (now : Moment) (cwd : Path) (read : Notebook.Reader) : Job Unit := do
  let _ ← Notebook.interfaceNames cwd (.ofString "mintlifier.opml")
  let output := Path.ofString "llm_output"
  Job.change (·.makeDir (cwd.join output).place)
  Notebook.saveCatalog ⟨cwd, .ofString "../notebooks"⟩ now (output / patternsName) read

end DocSite.Llm
