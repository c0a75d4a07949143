import DocSite.Calendar.Date
import DocSite.Job
import DocSite.Json.Reader
import DocSite.Notebook.Digest
import DocSite.Outline.Entry
import DocSite.Xml.Reader

namespace DocSite.Notebook

/-- Where notebooks are looked for, as it is told and as it is found from the directory of the
run. -/
structure Source where
  cwd : Path
  notebooks : Path

def Source.place (s : Source) : List String := (s.cwd.join s.notebooks).place

def readDigest (read : Reader) (s : Source) (parts : List String) : Job Digest := do
  let v ← Job.ofExcept (Json.parseChars (← Job.readText (s.place ++ parts)))
  return digest ("/".intercalate parts) (← Job.ofExcept (read v))

def readDigests (read : Reader) (s : Source) : List (List String) → Job (List Digest)
  | [] => return []
  | parts :: rest => do
    let file := s.notebooks.join ⟨"", parts⟩
    if Text.contains ".ipynb_checkpoints".toList file.toString.toList then readDigests read s rest
    else
      Job.print ("Processing " ++ file.name ++ "...")
      let found ← Job.rescue (List.singleton <$> readDigest read s parts) fun fault => do
        Job.print ("  Error processing " ++ file.toString ++ ": " ++ fault.message)
        return []
      return found ++ (← readDigests read s rest)

def collect (s : Source) (now : Moment) (read : Reader := .plain) : Job Collection := do
  let files := (← Job.disk).matching s.place "*.ipynb"
  Job.print ("Found " ++ toString files.length ++ " notebooks")
  return ⟨now.iso, ← readDigests read s files⟩

def saveCatalog (s : Source) (now : Moment) (target : Path) (read : Reader := .plain) :
    Job Unit := do
  let collection ← collect s now read
  let place := (s.cwd.join target).place
  Job.change (·.makeDir place.dropLast)
  Job.change (·.write place collection.catalog.fileText)
  Job.print ("Saved developer patterns to " ++ target.toString)

def interfaceNames (cwd outline : Path) : Job (List String) :=
  Job.rescue
    (do
      let text ← Job.ofExcept
        (((← Job.disk).read (cwd.join outline).place).mapError (Fault.named outline.toString))
      return Outline.names (← Job.ofExcept (Xml.parse text)))
    fun fault => do
      Job.print ("Warning: Could not load OPML: " ++ fault.message)
      return []

end DocSite.Notebook
