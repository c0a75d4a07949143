import DocSite.Api.World
import DocSite.Calendar.Date
import DocSite.Job
import DocSite.Json.Writer
import DocSite.Outline.Entry
import DocSite.Text.Case

namespace DocSite.Llm

open Api

structure Listing where
  functions : List String
  classes : List String
  methods : List String
  types : List String
  deriving DecidableEq, Repr

namespace Listing

def empty : Listing := ⟨[], [], [], []⟩

def addFunction (l : Listing) (path : String) : Listing :=
  { l with functions := l.functions ++ [path] }

def addClass (l : Listing) (path : String) : Listing := { l with classes := l.classes ++ [path] }

def addMethod (l : Listing) (path : String) : Listing := { l with methods := l.methods ++ [path] }

def addType (l : Listing) (path : String) : Listing := { l with types := l.types ++ [path] }

end Listing

def typeNames : List String :=
  ["Image", "Video", "Audio", "Document", "String", "Int", "Float", "Bool", "Json", "Array",
    "Timestamp", "Date"]

def isColumnType (info : ClassInfo) : Except Fault Bool :=
  if typeNames.contains info.name then .ok true
  else
    match info.module? with
    | none => .error (.wrongKind "argument of type 'NoneType' is not iterable")
    | some m =>
      .ok (Text.contains "type_system".toList m.toList ||
        Text.contains "types".toList (Text.lower m.toList))

abbrev Listed := ExceptT Fault (StateM Listing)

def methodNames (layers : List (Layer Entity)) : List String :=
  (memberNames layers).filter fun n =>
    (!n.startsWith "_" || n = "__call__") && (member? n layers).any Entity.isMethod

def listMethods (w : World) (path : String) : Listed Unit := do
  match w.load (parentPath path) with
  | .error (.noModule _) => return
  | .error fault => throw fault
  | .ok m =>
    match m.get? (lastPart path) with
    | some (.cls _ layers) =>
      modify fun l => (methodNames layers).foldl
        (fun l n =>
          let method := path ++ "." ++ n
          if l.methods.contains method then l else l.addMethod method)
        l
    | _ => return

/-- Lists an object of a module by what it is. One whose module cannot be loaded counts as a
function; what is neither a class nor a plain function is not listed. -/
def listChild (w : World) (path : String) : Listed Unit := do
  match w.load (parentPath path) with
  | .error (.noModule _) => modify (·.addFunction path)
  | .error fault => throw fault
  | .ok m =>
    match m.get? (lastPart path) with
    | some (.cls info _) =>
      if ← isColumnType info then modify (·.addType path)
      else
        modify (·.addClass path)
        listMethods w path
    | some e => if e.isFunction then modify (·.addFunction path)
    | none => return

def listModule (w : World) (path : String) : Listed Unit := do
  match w.load path with
  | .error (.noModule _) => return
  | .error fault => throw fault
  | .ok m =>
    (m.names.filter fun n => !n.startsWith "_").forM fun n => listChild w (path ++ "." ++ n)

def listPage (w : World) (p : Outline.PageItem) : Listed Unit := do
  let children := p.children?.getD []
  match p.kind with
  | "func" => modify (·.addFunction p.path)
  | "type" => modify (·.addType p.path)
  | "class" =>
    modify (·.addClass p.path)
    if children.isEmpty then listMethods w p.path
    else modify fun l => children.foldl (fun l c => l.addMethod (p.path ++ "." ++ c)) l
  | "module" =>
    if children.isEmpty then listModule w p.path
    else children.forM fun c => listChild w (p.path ++ "." ++ c)
  | "method" => modify (·.addMethod p.path)
  | _ => return

def listPages (w : World) (pages : List Outline.PageItem) : Listed Unit := pages.forM (listPage w)

def Listed.result (work : Listed α) : Except Fault α × Listing := (ExceptT.run work).run .empty

def coreTypes : List String :=
  ["Image", "Video", "Audio", "Document", "Array", "Json", "String", "Int", "Float", "Bool",
    "Timestamp"].map ("pixeltable." ++ ·)

def Listing.tidy (l : Listing) : Listing :=
  ⟨sortedNames l.functions, sortedNames l.classes, sortedNames l.methods,
    sortedNames (l.types ++ coreTypes)⟩

def Listing.total (l : Listing) : Nat :=
  l.functions.length + l.classes.length + l.methods.length + l.types.length

def Listing.json (version : String) (generated : Moment) (l : Listing) : Json :=
  .obj [("version", .str version), ("generated", .str generated.iso),
    ("counts", .obj [("functions", .int l.functions.length), ("classes", .int l.classes.length),
      ("methods", .int l.methods.length), ("types", .int l.types.length), ("total", .int l.total)]),
    ("functions", .ofTexts l.functions), ("classes", .ofTexts l.classes),
    ("methods", .ofTexts l.methods), ("types", .ofTexts l.types)]

def publishListing (w : World) (version : String) (generated : Moment) (output : Path)
    (pages : List Outline.PageItem) : Job Path := do
  let (r, listed) := (listPages w pages).result
  Job.ofExcept r
  let l := listed.tidy
  let target := output / "pixeltable_public_api.json"
  Job.change (·.write target.place (l.json version generated).fileText)
  Job.print "\n📋 Generated public API listing:"
  Job.print ("   Functions: " ++ toString l.functions.length)
  Job.print ("   Classes: " ++ toString l.classes.length)
  Job.print ("   Methods: " ++ toString l.methods.length)
  Job.print ("   Types: " ++ toString l.types.length)
  Job.print ("   Total: " ++ toString l.total)
  Job.print ("   Saved to: " ++ target.toString)
  return target

end DocSite.Llm
