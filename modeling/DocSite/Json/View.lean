import DocSite.Json.Basic

namespace DocSite.Json

/-! Views of values in which what is missing, or of another kind, counts as empty. -/

def entries : Json → List (String × Json)
  | .obj fs => fs
  | _ => []

def items : Json → List Json
  | .arr xs => xs
  | _ => []

def field? (key : String) (v : Json) : Option Json := OrderedMap.get? key v.entries

def field (key : String) (v : Json) : Json := (v.field? key).getD .null

def given? (key : String) (v : Json) : Option Json :=
  match v.field? key with
  | none | some .null => none
  | some x => some x

def str? : Json → Option String
  | .str s => some s
  | _ => none

def strD (default : String) (v : Json) : String := v.str?.getD default

def strings (v : Json) : List String := v.items.filterMap str?

def int? : Json → Option Int
  | .int n => some n
  | _ => none

def bool? : Json → Option Bool
  | .bool b => some b
  | _ => none

def isTrue (v : Json) : Bool := v.bool?.getD false

def textAt (key : String) (v : Json) : String := (v.field key).strD ""

def textAt? (key : String) (v : Json) : Option String := (v.field key).str?

end DocSite.Json
