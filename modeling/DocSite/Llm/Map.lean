import DocSite.Calendar.Date
import DocSite.Job
import DocSite.Json.Access
import DocSite.Json.Writer
import DocSite.Llm.Entry

namespace DocSite.Llm

open Api

structure ApiMap where
  scene : Scene
  begun : Moment
  parts : List Json

namespace ApiMap

def json (m : ApiMap) : Json :=
  .obj [("@context", .str "https://schema.org"), ("@type", .str "SoftwareSourceCode"),
    ("name", .str "Pixeltable SDK"), ("version", .str m.scene.version),
    ("url", .str m.scene.site), ("programmingLanguage", .str "Python"),
    ("dateModified", .str m.begun.iso), ("hasPart", .arr m.parts)]

def push (m : ApiMap) (entry : Json) : Json × ApiMap :=
  (entry, { m with parts := m.parts ++ [entry] })

def addModule (m : ApiMap) (path : String) (children : List String) :
    Except Fault (Json × ApiMap) :=
  match m.scene.world.load path with
  | .ok mod => .ok (m.push (m.scene.module path mod children))
  | .error (.noModule reason) => .ok (m.push (errorEntry path reason "Module"))
  | .error fault => .error fault

def lookUp (w : World) (path kind complaint : String) (test : Entity → Bool) :
    Except Fault (Except String Entity) :=
  let name := lastPart path
  match w.load (parentPath path) with
  | .ok mod =>
    .ok <|
      match mod.get? name with
      | none => .error (kind ++ " " ++ name ++ " not found")
      | some e => if test e then .ok e else .error (name ++ " is not " ++ complaint)
  | .error (.noModule reason) => .ok (.error reason)
  | .error fault => .error fault

def addClass (m : ApiMap) (path : String) (children : List String) :
    Except Fault (Json × ApiMap) := do
  match ← lookUp m.scene.world path "Class" "a class" Entity.isClass with
  | .ok (.cls info layers) => return m.push (m.scene.classEntry path info layers children)
  | .ok _ => return m.push (errorEntry path "" "Class")
  | .error reason => return m.push (errorEntry path reason "Class")

def addFunction (m : ApiMap) (path : String) : Except Fault (Json × ApiMap) := do
  match ← lookUp m.scene.world path "Function" "callable" Entity.isCallable with
  | .ok e => return m.push (m.scene.function (parentPath path) (lastPart path) e)
  | .error reason => return m.push (errorEntry path reason "Function")

def addType (m : ApiMap) (path : String) : Json × ApiMap := m.push (typeEntry path)

def addEntry (m : ApiMap) (entry : Json) : Except Fault ApiMap := do
  if !entry.isPresent then return m
  else if (← entry.get "error" .null).isPresent then return m
  else return (m.push entry).2

end ApiMap

/-- What a processor of linked data makes of a map, if there is one: its flat and its compact form,
or the reason why it fails. -/
structure Processor where
  flatten : Except String Json
  compact : Except String Json

def compactContext : Json :=
  .obj [("pxt", .str "https://pixeltable.com/ontology#"), ("schema", .str "https://schema.org/"),
    ("name", .str "schema:name"), ("description", .str "schema:description"),
    ("signature", .str "pxt:signature"), ("parameters", .str "pxt:parameters"),
    ("category", .str "pxt:category"), ("codeLocation", .str "pxt:codeLocation"),
    ("memberOf", .str "schema:memberOf")]

def saveForm (file : Path) (ending title : String) (form : Except String Json) : Job Unit := do
  let v ← match form with
    | .ok v => pure v
    | .error reason => Job.fail (.unreachable reason)
  let target := file.withStem (file.stem ++ ending)
  Job.change (·.write target.place v.fileText)
  Job.print ("📊 " ++ title ++ " LLM map saved to: " ++ target.toString)

def ApiMap.save (m : ApiMap) (file : Path) (processor? : Option Processor) : Job Unit := do
  Job.change (·.makeDir file.place.dropLast)
  Job.change (·.write file.place m.json.fileText)
  Job.print ("📊 LLM map saved to: " ++ file.toString)
  match processor? with
  | none => return
  | some p =>
    Job.rescue
      (do
        saveForm file "_flat" "Flattened" p.flatten
        saveForm file "_compact" "Compacted" p.compact)
      fun fault =>
        Job.print ("⚠️ Could not create flattened/compacted versions: " ++ fault.message)

end DocSite.Llm
