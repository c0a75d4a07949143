import DocSite.Coverage.Report
import DocSite.OrderedMap
import DocSite.Text.Basic
import DocSite.Text.Search
import DocSite.Xml.Element

namespace DocSite.Outline

open Text

structure Entry where
  kind : String
  path : String
  deriving DecidableEq, Repr

def readEntry? (text : String) : Option Entry :=
  (cutAt? ['|'] text.toList).map fun (kind, path) => ⟨String.ofList kind, String.ofList path⟩

def textOf (e : Xml.Element) : String := (e.get? "text").getD ""

def entryOf? (e : Xml.Element) : Option Entry := readEntry? (textOf e)

def Entry.name (e : Entry) : String := String.ofList (afterLast '.' e.path.toList)

def childEntries (e : Xml.Element) : List Entry := e.children.filterMap entryOf?

def outlines (root : Xml.Element) : List Xml.Element :=
  root.descendants.filter fun e => e.name = "outline"

/-- What an outline documents: for each module and class the kinds and names of the entries below
it. The last entry of a path counts. -/
def coverage (root : Xml.Element) : Coverage.Items :=
  OrderedMap.ofEntries <| (outlines root).filterMap fun e =>
    (entryOf? e).bind fun entry =>
      if entry.kind = "module" || entry.kind = "class" then
        some (entry.path, (childEntries e).map fun c => ⟨c.kind, c.name⟩)
      else none

/-- The texts of all outlines up to a dash between blanks, in order and each once. -/
def names (root : Xml.Element) : List String :=
  let texts := (outlines root).filterMap fun e => e.get? "text"
  let shown := texts.map fun t =>
    let cs := t.toList
    String.ofList (strip (((cutAt? " - ".toList cs).map Prod.fst).getD cs))
  (shown.mergeSort fun a b => a ≤ b).eraseDups

structure PageItem where
  path : String
  /-- The names of the groups it lies in, from the outside. -/
  groups : List String
  kind : String
  /-- The names it is to document, if the outline lists them. -/
  children? : Option (List String)
  /-- The kinds of those names, if the outline tells them apart. -/
  kinds? : Option (OrderedMap String)
  deriving DecidableEq, Repr

inductive Group
  | node (name : String) (pages : List PageItem) (subgroups : List Group)

instance : Inhabited Group := ⟨.node "" [] []⟩

structure Tab where
  name : String
  groups : List Group

namespace Group

def name : Group → String
  | .node n _ _ => n

mutual

def allPages : Group → List PageItem
  | .node _ pages subgroups => pages ++ allPagesOf subgroups

def allPagesOf : List Group → List PageItem
  | [] => []
  | g :: gs => allPages g ++ allPagesOf gs

end

end Group

def Tab.pages (t : Tab) : List PageItem := Group.allPagesOf t.groups

end DocSite.Outline
