import DocSite.Job
import DocSite.Json.Reader
import DocSite.Json.Writer
import DocSite.Navigation.Update

namespace DocSite.Site

structure Store where
  path : Path
  tab : String

/-- Work on the configuration. What was loaded is remembered; it is null before that. -/
abbrev StoreJob := Keeping Json

def tabCount (docs : Json) : Except Fault Nat := do
  (← (← docs.get "navigation" (.obj [])).get "tabs" (.arr [])).size

namespace Store

def readJson (place : List String) : Job Json := do
  Job.ofExcept (Json.parseChars (← Job.readText place))

def load (s : Store) : StoreJob Unit := do
  let docs ← readJson s.path.place
  Keeping.keep docs
  let count ← Job.ofExcept (tabCount docs)
  Job.print ("📋 Loaded docs.json with " ++ toString count ++ " tabs")

def update (s : Store) (nav : Json) : StoreJob Unit := do
  let (r, draft) := (Navigation.update s.tab nav).result (← Keeping.kept)
  Keeping.keep draft.docs
  draft.lines.forM fun line => Keeping.ofJob (Job.print line)
  Job.ofExcept r

/-- Writing does not fail half-way here: the file gets its new text as a whole or stays as it
was. -/
def save (s : Store) : StoreJob Unit := do
  let docs ← Keeping.kept
  if !docs.isPresent then Job.fail (α := Unit) (.notLoaded "No configuration to save")
  Job.change (·.write s.path.place docs.fileText)
  Job.print ("✅ Updated " ++ s.path.toString)

end Store

end DocSite.Site
