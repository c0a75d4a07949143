import DocSite.Calendar.Date
import DocSite.Job
import DocSite.Outline.Entry
import DocSite.Xml.Reader

namespace DocSite.Outline

/-- What a reader of outlines does with the column functions of a module: it lists them among the
module's functions and tells the two apart, or it leaves them out. -/
inductive Reading
  | withColumnFunctions
  | plainFunctions
  deriving DecidableEq, Repr

def Reading.functionKinds : Reading → List String
  | .withColumnFunctions => ["func", "udf"]
  | .plainFunctions => ["func"]

/-- An entry that only asks for a page is one for a function. -/
def pageKind (kind : String) : String := if kind = "page" then "func" else kind

def childNames (e : Xml.Element) : List String := (childEntries e).map Entry.name

def listedFunctions (r : Reading) (e : Xml.Element) : List Entry :=
  (childEntries e).filter fun c => r.functionKinds.contains c.kind

def classPages (groups : List String) (e : Xml.Element) : List PageItem :=
  e.children.filterMap fun c =>
    match entryOf? c with
    | some ⟨"class", path⟩ => some ⟨path, groups, "class", some (childNames c), none⟩
    | _ => none

/-- The pages of an entry of an outer group: a module is followed by its classes. -/
def outerPages (r : Reading) (groups : List String) (e : Xml.Element) (entry : Entry) :
    List PageItem :=
  let kind := pageKind entry.kind
  if kind = "module" then
    let functions := listedFunctions r e
    let kinds? :=
      match r with
      | .withColumnFunctions =>
        some (OrderedMap.ofEntries (functions.map fun c => (c.name, c.kind)))
      | .plainFunctions => none
    ⟨entry.path, groups, kind, some (functions.map Entry.name), kinds?⟩ :: classPages groups e
  else if kind = "class" then [⟨entry.path, groups, kind, some (childNames e), none⟩]
  else [⟨entry.path, groups, kind, none, none⟩]

def innerPage (groups : List String) (e : Xml.Element) (entry : Entry) : PageItem :=
  let kind := pageKind entry.kind
  let lists := kind = "module" || kind = "class"
  ⟨entry.path, groups, kind, if lists then some (childNames e) else none, none⟩

def itemsOf (e : Xml.Element) : List (Xml.Element × Entry) :=
  e.children.filterMap fun c =>
    (entryOf? c).bind fun entry => if entry.kind = "group" then none else some (c, entry)

def groupsOf (e : Xml.Element) : List (Xml.Element × String) :=
  e.children.filterMap fun c =>
    (entryOf? c).bind fun entry => if entry.kind = "group" then some (c, entry.path) else none

/-- A group inside a group. Groups below it are not read. -/
def innerGroup (outer : String) (e : Xml.Element) (name : String) : Group :=
  .node name ((itemsOf e).map fun (c, entry) => innerPage [outer, name] c entry) []

def outerGroup (r : Reading) (e : Xml.Element) (name : String) : Group :=
  .node name ((itemsOf e).flatMap fun (c, entry) => outerPages r [name] c entry)
    ((groupsOf e).map fun (c, inner) => innerGroup name c inner)

def readTab? (r : Reading) (root : Xml.Element) : Option Tab :=
  (outlines root).findSome? fun e =>
    match entryOf? e with
    | some ⟨"tab", name⟩ => some ⟨name, (groupsOf e).map fun (c, g) => outerGroup r c g⟩
    | _ => none

def load (file : Path) (reading : Reading) : Job (Option Tab) := do
  let text ← Job.ofExcept ((← Job.disk).read file.place)
  return readTab? reading (← Job.ofExcept (Xml.parse text))

def backupName (now : Moment) : String := "public_api_" ++ now.stamp ++ ".opml"

def backUp (file directory : Path) (now : Moment) : Job Unit := do
  Job.change (·.makeDir directory.place)
  let target := directory / backupName now
  let text ← Job.ofExcept ((← Job.disk).read file.place)
  Job.change (·.write target.place text)
  Job.print ("📋 Created OPML backup: " ++ target.toString)

def loadBackedUp (file directory : Path) (now : Moment) : Job (Option Tab) := do
  backUp file directory now
  load file .plainFunctions

end DocSite.Outline
