import DocSite.Api.Docstring
import DocSite.Api.World
import DocSite.Json.Access
import DocSite.Json.View

/-!
Packages described by data: modules, their members and the parts of their documentation.
-/

namespace DocSite

mutual

/-- A constant. A tuple and a number with a point are marked by the only key of an object. -/
def Literal.ofJson : Json → Literal
  | .arr xs => .list (Literal.listOfJson xs)
  | .obj fs =>
    match fs with
    | [("$tuple", .arr xs)] => .tuple (Literal.listOfJson xs)
    | [("$float", .str s)] => .float s
    | fs => .ofFields (Literal.fieldsOfJson fs)
  | v => v.literal

def Literal.listOfJson : List Json → List Literal
  | [] => []
  | x :: xs => Literal.ofJson x :: Literal.listOfJson xs

def Literal.fieldsOfJson : List (String × Json) → List (String × Literal)
  | [] => []
  | (key, v) :: fs => (key, Literal.ofJson v) :: Literal.fieldsOfJson fs

end

namespace Api

def TypeNote.ofJson (v : Json) : TypeNote :=
  match v with
  | .str s => .text s
  | .obj _ =>
    if v.textAt? "py" = some "None" then .none
    else .type ⟨v.textAt "str", v.textAt "sig", v.textAt? "module", v.textAt? "name"⟩
  | _ => .none

def ParamKind.ofWord : String → ParamKind
  | "pos" => .positional
  | "var" => .rest
  | "kw" => .keyword
  | "varkw" => .restKeyword
  | _ => .standard

def Parameter.ofJson (v : Json) : Parameter :=
  ⟨v.textAt "name", .ofWord (v.textAt "kind"), (v.given? "ann").map .ofJson,
    (v.field? "default").map .ofJson⟩

def Source.ofJson (v : Json) : Source :=
  { text? := v.textAt? "source"
    file := match v.field? "file" with
      | none => .refused
      | some (.str s) => .at s
      | some _ => .unknown
    line? := (v.field "line").int?
    lineCount := ((v.field "line_count").int?.getD 1).toNat }

def homeOf (home : String) (v : Json) : Option String :=
  match v.field? "module" with
  | none => some home
  | some m => m.str?

def Binding.ofWord : String → Binding
  | "classmethod" => .ofClass
  | "staticmethod" => .static
  | _ => .plain

def Func.ofJson (home name : String) (v : Json) : Func :=
  { name := (v.field "name").strD name
    doc? := v.textAt? "doc"
    proto := ⟨(v.field "params").items.map .ofJson, (v.given? "returns").map .ofJson⟩
    module? := homeOf home v
    binding := .ofWord (v.textAt "wrap")
    hidden := (v.field "bad_signature").isTrue
    source := .ofJson v }

def ColumnParam.ofJson (v : Json) : ColumnParam :=
  ⟨v.textAt "name", v.textAt? "col_type", (v.field? "default").map .ofJson⟩

def Form.ofJson (v : Json) : Form :=
  ⟨v.textAt "str", (v.given? "parameters").map fun ps => ps.items.map .ofJson⟩

def Udf.ofJson (home name : String) (v : Json) : Udf :=
  { className := (v.field "class_name").strD "CallableFunction"
    doc? := v.textAt? "doc"
    module? := homeOf home v
    isPolymorphic? := (v.field? "is_polymorphic").map Json.isTrue
    signature? := v.textAt? "signature"
    sig? := v.textAt? "sig"
    forms? := (v.given? "signatures").map fun fs => fs.items.map .ofJson
    function? := (v.given? "py_fn").map (.ofJson home name)
    functions? := (v.given? "py_fns").map fun fs => fs.items.map (.ofJson home name)
    wrapped? := (v.given? "wrapped").map (.ofJson home name)
    hidden := (v.field "bad_signature").isTrue }

def Style.ofWord : String → Style
  | "dataclass" => .record
  | "namedtuple" => .tuple
  | "typeddict" => .keyed
  | _ => .plain

def Field.ofJson (v : Json) : Field :=
  { name := v.textAt "name"
    type? := (v.field? "type").map .ofJson
    default? := (v.field? "default").map .ofJson
    hasFactory := (v.field "factory").isTrue
    metadata := (v.field "metadata").entries.map fun (k, m) => (k, .ofJson m)
    required? := (v.field "required").bool? }

def DocumentedField.ofJson (v : Json) : DocumentedField :=
  ⟨v.textAt "name", v.textAt? "annotation", v.textAt? "doc"⟩

def ClassInfo.ofJson (home name : String) (v : Json) : ClassInfo :=
  { name := (v.field "name").strD name
    module? := homeOf home v
    source := .ofJson v
    annotations := (v.field "annotations").entries.map fun (k, a) => (k, .ofJson a)
    style := .ofWord (v.textAt "style")
    fields := (v.field "fields").items.map .ofJson
    documented := (v.field "documented").items.map .ofJson }

def baseLayers (earlier : List (String × Entity)) (v : Json) : Except Fault (List (Layer Entity)) :=
  match v.textAt? "base" with
  | none => .ok []
  | some base =>
    match OrderedMap.get? base earlier with
    | some (.cls _ layers) => .ok layers
    | _ => .error (.noKey base)

mutual

def Entity.ofJson (home : String) (earlier : List (String × Entity)) (name : String) :
    Json → Except Fault Entity
  | .obj fs =>
    let v := Json.obj fs
    match v.textAt "kind" with
    | "func" => .ok (.func (.ofJson home name v))
    | "udf" => .ok (.udf (.ofJson home name v))
    | "class" => do
      let base ← baseLayers earlier v
      let members ← membersOf home earlier fs
      return .cls (.ofJson home name v) (⟨v.textAt? "doc", members⟩ :: base)
    | "property" => .ok (.property (v.textAt? "doc") ((v.given? "returns").map .ofJson))
    | "cached" => .ok (.cached (v.textAt? "doc"))
    | "raising" => .ok .raising
    | "module" => .ok (.module (v.textAt "name"))
    | "broken" => .ok .broken
    | _ => .ok (.value (.ofJson (v.field "value")))
  | _ => .ok (.value .none)

def membersOf (home : String) (earlier : List (String × Entity)) :
    List (String × Json) → Except Fault (List (String × Entity))
  | [] => .ok []
  | (key, v) :: fs =>
    if key = "members" then memberTable home earlier v else membersOf home earlier fs

def memberTable (home : String) (earlier : List (String × Entity)) :
    Json → Except Fault (List (String × Entity))
  | .obj ms => eachMember home earlier ms
  | _ => .ok []

def eachMember (home : String) (earlier : List (String × Entity)) :
    List (String × Json) → Except Fault (List (String × Entity))
  | [] => .ok []
  | (name, v) :: ms => do
    return (name, ← Entity.ofJson home earlier name v) :: (← eachMember home earlier ms)

end

def objectsOf (home : String) (earlier : List (String × Entity)) :
    List (String × Json) → Except Fault (List (String × Entity))
  | [] => .ok earlier
  | (name, v) :: rest => do
    objectsOf home (earlier ++ [(name, ← Entity.ofJson home earlier name v)]) rest

def Module.ofJson (v : Json) : Except Fault Module := do
  let home := v.textAt "name"
  return { name := home
           rawDoc? := v.textAt? "doc"
           members := ← objectsOf home [] (v.field "members").entries
           file := (Source.ofJson v).file
           all? := (v.given? "all").map Json.strings
           children? := (v.given? "children").map Json.strings
           unreadable := (v.field "dir_extra").strings }

def World.ofJson (v : Json) : Except Fault World := v.items.mapM Module.ofJson

def DocParam.ofJson (v : Json) : DocParam :=
  ⟨v.textAt "name", v.textAt? "type", v.textAt? "desc"⟩

def Docstring.ofJson (v : Json) : Docstring :=
  { short? := v.textAt? "short"
    long? := v.textAt? "long"
    description? := v.textAt? "description"
    params := (v.field "params").items.map .ofJson
    returns? := (v.given? "returns").map fun r => ⟨r.textAt? "type", r.textAt? "desc"⟩
    parts := (v.field "meta").items.map fun m => ⟨(m.field "args").strings, m.textAt? "desc"⟩
    examples := (v.field "examples").items.map fun e => ⟨e.textAt? "desc", e.textAt? "snippet"⟩ }

def ownDocs (v : Json) : List (String × Docstring) :=
  match v.textAt? "doc", v.given? "parsed" with
  | some text, some parsed =>
    let doc := Docstring.ofJson parsed
    [(text, doc), (Text.onChars Text.flushLeft text, doc)]
  | _, _ => []

mutual

/-- All documentation texts in a description with their parts. The last one comes first. -/
def docTable : Json → List (String × Docstring)
  | .arr xs => docsOfItems xs
  | .obj fs => docsOfFields fs ++ ownDocs (.obj fs)
  | _ => []

def docsOfItems : List Json → List (String × Docstring)
  | [] => []
  | x :: xs => docsOfItems xs ++ docTable x

def docsOfFields : List (String × Json) → List (String × Docstring)
  | [] => []
  | (_, v) :: fs => docsOfFields fs ++ docTable v

end

def Aids.ofJson (formatter : Formatter) (v : Json) : Aids :=
  let table := docTable v
  ⟨fun text => (OrderedMap.get? text table).getD .empty, formatter⟩

end Api

end DocSite
