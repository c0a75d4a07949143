import DocSite.Api.Access

namespace DocSite.Api

structure Module where
  name : String
  rawDoc? : Option String
  members : OrderedMap Entity
  file : SourceFile
  all? : Option (List String)
  /-- The names it declares as those to be documented. -/
  children? : Option (List String)
  unreadable : List String

/-- The modules that can be loaded. A world is a table that stays as it is: nothing is run when a
module is loaded, so loading fails only because no module has the name, and a member cannot be read
only if it is listed as `unreadable` or is `Entity.raising` or `Entity.broken`. -/
abbrev World := List Module

namespace World

def find? (w : World) (name : String) : Option Module := List.find? (·.name = name) w

/-- Loads the module at the end of a path whose parts are given from the last. One that is not
there is looked for in the module above it, which has no others inside. -/
def loadParts (w : World) : List String → Except Fault Module
  | [] => .error (.badValue "Empty module name")
  | part :: above =>
    let name := ".".intercalate (part :: above).reverse
    match w.find? name with
    | some m => .ok m
    | none =>
      if above.isEmpty then .error (.noModule ("No module named " ++ Literal.quotedText name))
      else do
        let parent ← w.loadParts above
        .error (.noModule ("No module named " ++ Literal.quotedText name ++ "; " ++
          Literal.quotedText parent.name ++ " is not a package"))

def load (w : World) (name : String) : Except Fault Module :=
  let cs := name.toList
  if cs.isEmpty then .error (.badValue "Empty module name")
  else if Text.startsWith ['.'] cs then
    .error (.wrongKind "a relative path needs a package")
  else w.loadParts ((Text.splitChar '.' cs).reverse.map String.ofList)

end World

namespace Module

def get? (m : Module) (name : String) : Option Entity := m.members.get? name

def names (m : Module) : List String := sortedNames (m.members.keys ++ m.unreadable)

def publicMembers (m : Module) : List (String × Entity) :=
  m.names.filterMap fun n => if n.startsWith "_" then none else (m.get? n).map fun e => (n, e)

def doc? (m : Module) : Option String := cleanDoc? m.rawDoc?

end Module

def lastPart (path : String) : String := String.ofList (Text.afterLast '.' path.toList)

def parentPath (path : String) : String :=
  ".".intercalate (((Text.splitChar '.' path.toList).dropLast).map String.ofList)

def sortByName (entries : List (String × α)) : List (String × α) :=
  entries.mergeSort fun a b => a.1 ≤ b.1

end DocSite.Api
