import DocSite.Api.World
import DocSite.Coverage.Report
import DocSite.Job

namespace DocSite.Coverage

open Api

def styleNames (info : ClassInfo) : List String :=
  match info.style with
  | .plain | .record => []
  | .tuple => ["count", "index"] ++ info.fields.map Field.name
  | .keyed =>
    ["clear", "copy", "fromkeys", "get", "items", "keys", "pop", "popitem", "setdefault", "update",
      "values"]

def memberKind? : Entity → Option String
  | .func _ => some "method"
  | .property _ _ | .cached _ => some "property"
  | _ => none

def classItems (info : ClassInfo) (layers : List (Layer Entity)) : List Item :=
  let inborn := styleNames info
  let names := sortedNames (memberNames layers ++ inborn)
  (names.filter fun n => !n.startsWith "_").filterMap fun n =>
    match member? n layers with
    | some e => (memberKind? e).map fun kind => ⟨kind, n⟩
    | none => some ⟨"property", n⟩

def isOwnColumnFunction : Entity → Bool
  | .udf u => u.className = "CallableFunction"
  | _ => false

def objectKind? : Entity → Option String
  | .cls _ _ => some "class"
  | .func _ => some "func"
  | .udf u => some (if u.className = "CallableFunction" then "udf" else "func")
  | _ => none

/-- Whether an object belongs to a module. All objects of the package itself do; another module has
those it defines and its column functions. -/
def belongsTo (package path : String) (e : Entity) : Bool :=
  path = package || isOwnColumnFunction e || e.home?.any (·.startsWith path)

def publicNames (m : Module) : List String :=
  m.all?.getD (m.names.filter fun n => !n.startsWith "_")

def publicObjects (package path : String) (m : Module) : List (Item × Entity) :=
  (publicNames m).filterMap fun n =>
    (m.get? n).bind fun e =>
      if belongsTo package path e then (objectKind? e).map fun kind => (⟨kind, n⟩, e) else none

def addItems (path : String) (found : List Item) (items : Items) : Items :=
  if found.isEmpty then items else items.set path found

def addModule (package path : String) (m : Module) (items : Items) : Items :=
  let objects := publicObjects package path m
  let addMembers (items : Items) (object : Item × Entity) : Items :=
    match object.2 with
    | .cls info layers => addItems (path ++ "." ++ object.1.name) (classItems info layers) items
    | _ => items
  addItems path (objects.map Prod.fst) (objects.foldl addMembers items)

def submodules : List String :=
  ["audio", "date", "image", "json", "math", "string", "timestamp", "video", "yolox", "whisperx",
    "openai", "anthropic", "gemini", "bedrock", "groq", "replicate", "together", "fireworks",
    "mistralai", "deepseek", "ollama", "llama_cpp", "whisper", "vision", "huggingface"].map
    ("functions." ++ ·) ++ ["iterators", "io"]

def criteria : List String :=
  ["📋 Scan Criteria:",
    "   • Using __all__ if defined, otherwise all non-private symbols",
    "   • Main module: Include all items in __all__",
    "   • Submodules: Include items defined in that module or UDFs",
    "   • UDFs detected by: isinstance of CallableFunction (created by @pxt.udf)",
    "   • Classes: Scan for methods, properties, and descriptors",
    ""]

def scanModules (w : World) (package : String) (items : Items) : List String → Job Items
  | [] => return items
  | submodule :: rest => do
    let path := package ++ "." ++ submodule
    match w.load path with
    | .ok m => scanModules w package (addModule package path m items) rest
    | .error (.noModule detail) =>
      Job.complain ("⚠️  Could not import " ++ path ++ ": " ++ detail)
      scanModules w package items rest
    | .error fault => Job.fail fault

def scanNothing : Job Items := do
  criteria.forM Job.print
  Job.fail (.noAttribute "list" "startswith")

def scan (w : World) (package : String) : Job Items := do
  criteria.forM Job.print
  match w.load package with
  | .ok m => scanModules w package (addModule package package m []) submodules
  | .error (.noModule detail) =>
    Job.complain ("❌ Could not import " ++ package ++ ": " ++ detail)
    Job.complain "   Make sure pixeltable is installed in the current environment"
    Job.exit 1
  | .error fault => Job.fail fault

end DocSite.Coverage
