import DocSite.Api.Docstring
import DocSite.Llm.Call
import DocSite.Page.Slug
import DocSite.Path

namespace DocSite.Llm

open Api

structure Location where
  file : Path
  relative? : Option String
  line : Int
  lineCount : Nat

def fromPackage? : List String → Option (List String)
  | [] => none
  | p :: ps => if p = "pixeltable" then some (p :: ps) else fromPackage? ps

def location? (e : Entity) : Option Location :=
  let source := Page.sourceOf e
  match source.file, source.line? with
  | .at f, some line =>
    if f.isEmpty then none
    else
      let file := Path.ofString f
      some ⟨file, (fromPackage? file.parts).map ("/".intercalate ·), line, source.lineCount⟩
  | _, _ => none

def Location.address (version : String) (l : Location) : String :=
  match l.relative? with
  | some r =>
    "https://github.com/pixeltable/pixeltable/blob/" ++ version ++ "/" ++ r ++ "#L" ++
      toString l.line
  | none => "file://" ++ l.file.toString ++ "#L" ++ toString l.line

def Location.json (version : String) (l : Location) : Json :=
  let address := Json.str (l.address version)
  let lines := [("line", Json.int l.line), ("lineCount", .int l.lineCount)]
  match l.relative? with
  | some r =>
    .obj ([("@id", address), ("@type", .str "SoftwareSourceCode"), ("url", address)] ++ lines ++
      [("relativePath", .str r), ("localPath", .str l.file.toString)])
  | none => .obj ([("@id", address), ("localPath", .str l.file.toString)] ++ lines)

def Location.lines (l : Location) : Json :=
  .obj [("startLine", .int l.line), ("lineCount", .int l.lineCount),
    ("relativePath", .ofText? l.relative?)]

structure Scene where
  aids : Aids
  world : World
  version : String

def Scene.site (s : Scene) : String := "https://docs.pixeltable.com/sdk/" ++ s.version

def sitePath (path : String) : String := Text.onChars (Text.replaceChar '.' '/') path

def identifier (path : String) : Json := .str ("pxt:" ++ path)

def describe (doc? : Option Docstring) : Json :=
  match doc? with
  | some doc => .ofText? doc.short?
  | none => .str ""

def memberOf (kind path : String) : Json := .obj [("@type", .str kind), ("@id", identifier path)]

def paramEntry (p : DocParam) : Json :=
  .obj [("@type", .str "PropertyValue"), ("name", .str p.name),
    ("valueType", .str ((present? p.type?).getD "Any")),
    ("description", .str (p.description?.getD ""))]

def returnsEntry (r : DocReturns) : Json :=
  .obj [("@type", .str "PropertyValue"), ("valueType", .str ((present? r.type?).getD "Any")),
    ("description", .str (r.description?.getD ""))]

def frequent : List String := ["create_table", "select", "where", "insert"]

def callFields (name path : String) (proto : Prototype) : List (String × Json) :=
  [("signature", (CallInfo.of proto).json),
    ("potentialAction", .obj [("@type", .str "InvokeAction"),
      ("target", .obj [("@type", .str "EntryPoint"),
        ("urlTemplate", identifier (path ++ "." ++ name)),
        ("httpMethod", .str "GET")])]),
    ("category", .str (category name path))] ++
    (if frequent.contains name then [("usageFrequency", .str "high")] else [])

def Scene.docOf (s : Scene) (e : Entity) : Option Docstring := e.doc?.map s.aids.parse

def Scene.function (s : Scene) (path name : String) (e : Entity) : Json :=
  let doc? := s.docOf e
  let full := path ++ "." ++ name
  let place : List (String × Json) :=
    match location? e with
    | some l =>
      let address := Json.str (l.address s.version)
      [("sameAs", address), ("url", address), ("codeLocation", l.lines)]
    | none => []
  let call :=
    match e.prototype with
    | .ok proto => callFields name path proto
    | .error _ => [("signature", unknownCall)]
  let params : List (String × Json) :=
    match doc? with
    | some doc =>
      if doc.params.isEmpty then [] else [("parameters", .arr (doc.params.map paramEntry))]
    | none => []
  let returns : List (String × Json) :=
    match doc?.bind Docstring.returns? with
    | some r => [("returns", returnsEntry r)]
    | none => []
  .obj ([("@type", .str "Function"), ("@id", identifier full), ("name", .str full),
      ("identifier", .str name), ("description", describe doc?),
      ("memberOf", memberOf "SoftwareSourceCode" path)] ++ place ++ call ++ params ++ returns)

def Scene.method (s : Scene) (className name : String) (e : Entity) : Json :=
  let doc? := s.docOf e
  let place : List (String × Json) :=
    match location? e with
    | some l => [("sourceLocation", l.json s.version)]
    | none => []
  let call :=
    match e.prototype with
    | .ok proto => (CallInfo.of proto).json
    | .error _ => unknownCall
  let params : List (String × Json) :=
    match doc? with
    | some doc =>
      if doc.params.isEmpty then []
      else [("parameters", .arr ((doc.params.filter fun p => p.name ≠ "self").map paramEntry))]
    | none => []
  .obj ([("@type", .str "Method"), ("@id", identifier (className ++ "." ++ name)),
      ("name", .str name), ("description", describe doc?),
      ("memberOf", memberOf "Class" className)] ++ place ++ [("signature", call)] ++ params)

def Scene.classBrief (s : Scene) (path name : String) (e : Entity) : Json :=
  .obj [("@type", .str "Class"), ("@id", identifier (path ++ "." ++ name)), ("name", .str name),
    ("description", describe (s.docOf e)),
    ("url", .str (s.site ++ "/" ++ sitePath path ++ "/" ++ name))]

def constantEntry (name kind : String) : Json :=
  .obj [("@type", .str "PropertyValue"), ("name", .str name), ("value", .str kind),
    ("description", .str ("Constant or attribute of type " ++ kind))]

def kindOf : Entity → String
  | .value v => v.kind
  | .property _ _ => "property"
  | .cached _ => "cached_property"
  | _ => "object"

def Scene.item? (s : Scene) (path name : String) (e : Entity) : Option Json :=
  if e.isClass then some (s.classBrief path name e)
  else if e.isCallable then some (s.function path name e)
  else if e.isModule then none
  else some (constantEntry name (kindOf e))

def errorEntry (path reason kind : String) : Json :=
  .obj [("@type", .str "Error"), ("name", .str path),
    ("description", .str ("Failed to load " ++ kind ++ ": " ++ reason)), ("error", .bool true)]

def typeEntry (path : String) : Json :=
  .obj [("@type", .str "DataType"), ("@id", identifier path), ("name", .str (lastPart path)),
    ("description", .str "Type definition")]

def Scene.module (s : Scene) (path : String) (m : Module) (children : List String) : Json :=
  let members :=
    if children.isEmpty then m.publicMembers
    else children.filterMap fun n => (m.get? n).map fun e => (n, e)
  .obj [("@type", .str "SoftwareSourceCode"), ("@id", identifier path), ("name", .str path),
    ("description", describe (m.doc?.map s.aids.parse)), ("programmingLanguage", .str "Python"),
    ("url", .str (s.site ++ "/" ++ sitePath path)),
    ("codeRepository", .str ("https://github.com/pixeltable/pixeltable/tree/" ++ s.version)),
    ("hasPart", .arr (members.filterMap fun (n, e) => s.item? path n e))]

def constructorOf (info : ClassInfo) (layers : List (Layer Entity)) : Except Fault Prototype :=
  match member? "__init__" layers, info.style with
  | some e, _ => e.prototype
  | none, .record =>
    .ok ⟨⟨"self", .standard, none, none⟩ :: info.fields.map Field.parameter, some .none⟩
  | none, _ => ((OrderedMap.get? "__init__" inherent).getD .broken).prototype

/-- What a class that has no member of a name has by that name all the same. -/
def inherited? (info : ClassInfo) (layers : List (Layer Entity)) (name : String) : Option Entity :=
  match name, OrderedMap.get? name inherent with
  | "__init__", some (.func f) =>
    (constructorOf info layers).toOption.map fun proto => .func { f with proto }
  | "__doc__", _ =>
    some (.value (((layers.head?.bind (·.doc?)).map Literal.str).getD .none))
  | _, e? => e?

def methodsOf (info : ClassInfo) (layers : List (Layer Entity)) (children : List String) :
    List (String × Entity) :=
  if children.isEmpty then
    (memberNames layers).filterMap fun n =>
      if n.startsWith "_" && n ≠ "__call__" then none
      else (member? n layers).bind fun e => if e.isMethod then some (n, e) else none
  else
    children.filterMap fun n =>
      match member? n layers with
      | some .raising => none
      | some e => some (n, e)
      | none => (inherited? info layers n).map fun e => (n, e)

def Scene.classEntry (s : Scene) (path : String) (info : ClassInfo) (layers : List (Layer Entity))
    (children : List String) : Json :=
  let e := Entity.cls info layers
  let name := lastPart path
  let place : List (String × Json) :=
    match location? e with
    | some l => [("sourceLocation", l.json s.version)]
    | none => []
  let construction : List (String × Json) :=
    match constructorOf info layers with
    | .ok proto => [("constructor", (CallInfo.of proto).json)]
    | .error _ => []
  let methods := (methodsOf info layers children).map fun (n, m) => s.method name n m
  .obj ([("@type", .str "Class"), ("@id", identifier path), ("name", .str name),
      ("description", describe (s.docOf e)), ("url", .str (s.site ++ "/" ++ sitePath path)),
      ("memberOf", memberOf "SoftwareSourceCode" (parentPath path)),
      ("hasPart", .arr methods)] ++ place ++ construction)

end DocSite.Llm
