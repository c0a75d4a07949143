import DocSite.Api.Prototype
import DocSite.Json.Basic
import DocSite.Llm.Category

namespace DocSite.Llm

open Api

structure ParamInfo where
  name : String
  required : Bool
  type? : Option String
  default? : Option Literal

structure CallInfo where
  params : List ParamInfo
  returns? : Option String

def ParamInfo.of (p : Parameter) : ParamInfo :=
  ⟨p.name, p.default?.isNone, p.note?.map TypeNote.shown, p.default?⟩

def CallInfo.of (proto : Prototype) : CallInfo :=
  ⟨(proto.params.filter fun p => p.name ≠ "self").map ParamInfo.of,
    proto.returns?.map TypeNote.shown⟩

/-- A default in the text of a call: a text between single quotes, whatever it holds. -/
def defaultText : Literal → String
  | .str s => "'" ++ s ++ "'"
  | v => v.shown

def ParamInfo.text (p : ParamInfo) : String :=
  p.name ++
    (match p.type? with
     | some t => ": " ++ t
     | none => "") ++
    (match p.default? with
     | some d => " = " ++ defaultText d
     | none => "")

def ParamInfo.json (p : ParamInfo) : Json :=
  .obj ([("name", .str p.name), ("required", .bool p.required)] ++
    (match p.type? with
     | some t => [("type", .str t)]
     | none => []) ++
    (match p.default? with
     | some d => [("default", .str d.shown)]
     | none => []))

def CallInfo.json (c : CallInfo) : Json :=
  .obj ([("parameters", .arr (c.params.map ParamInfo.json)),
      ("formatted", .str (wrapParams (c.params.map ParamInfo.text)))] ++
    (match c.returns? with
     | some t => [("returns", .str t)]
     | none => []))

def unknownCall : Json := .obj [("parameters", .arr []), ("returns", .str "Any")]

end DocSite.Llm
