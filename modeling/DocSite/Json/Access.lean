import DocSite.Fault
import DocSite.Json.Basic
import DocSite.Text.Search

namespace DocSite.Json

mutual

def literal : Json → Literal
  | .null => .none
  | .bool b => .bool b
  | .int n => .int n
  | .float x => .float x.text
  | .str s => .str s
  | .arr xs => .list (literals xs)
  | .obj fs => .ofFields (literalFields fs)

def literals : List Json → List Literal
  | [] => []
  | x :: xs => literal x :: literals xs

def literalFields : List (String × Json) → List (String × Literal)
  | [] => []
  | (k, v) :: fs => (k, literal v) :: literalFields fs

end

def kind (v : Json) : String := v.literal.kind

def shown (v : Json) : String := v.literal.shown

def get (v : Json) (key : String) (default : Json) : Except Fault Json :=
  match v with
  | .obj fields => .ok ((OrderedMap.get? key fields).getD default)
  | v => .error (.noAttribute v.kind "get")

def item (key : String) : Json → Except Fault Json
  | .obj fields =>
    match OrderedMap.get? key fields with
    | some v => .ok v
    | none => .error (.noKey key)
  | .arr _ => .error (.wrongKind "list indices must be integers or slices, not str")
  | .str _ => .error (.wrongKind "string indices must be integers, not 'str'")
  | v => .error (.wrongKind ("'" ++ v.kind ++ "' object is not subscriptable"))

/-- Whether a key is among the fields, a text among the items, or a text inside a text. -/
def has (key : String) : Json → Except Fault Bool
  | .obj fields => .ok (OrderedMap.has key fields)
  | .arr items => .ok (items.any fun v => v.same (.str key))
  | .str s => .ok (Text.contains key.toList s.toList)
  | v => .error (.wrongKind ("argument of type '" ++ v.kind ++ "' is not iterable"))

def each : Json → Except Fault (List Json)
  | .arr items => .ok items
  | .obj fields => .ok (fields.map fun (k, _) => .str k)
  | .str s => .ok (s.toList.map fun c => .str (String.ofList [c]))
  | v => .error (.wrongKind ("'" ++ v.kind ++ "' object is not iterable"))

def put (v : Json) (key : String) (value : Json) : Except Fault Json :=
  match v with
  | .obj fields => .ok (.obj (OrderedMap.set key value fields))
  | .arr _ => .error (.wrongKind "list indices must be integers or slices, not str")
  | v => .error (.wrongKind ("'" ++ v.kind ++ "' object does not support item assignment"))

def size : Json → Except Fault Nat
  | .arr items => .ok items.length
  | .obj fields => .ok fields.length
  | .str s => .ok s.toList.length
  | v => .error (.wrongKind ("object of type '" ++ v.kind ++ "' has no len()"))

def text (operation : String) : Json → Except Fault String
  | .str s => .ok s
  | v => .error (.noAttribute v.kind operation)

/-- Whether a number is less than another. A value that is no number is less than none. -/
def lessNumber (a b : Json) : Bool :=
  match a, b with
  | .float (.infinite m), .float (.infinite n) => m && !n
  | .float (.infinite m), b => m && b.ratio?.isSome
  | a, .float (.infinite n) => !n && a.ratio?.isSome
  | a, b =>
    match a.ratio?, b.ratio? with
    | some (m, p), some (n, q) => m * q < n * p
    | _, _ => false

def isNumber : Json → Bool
  | .bool _ | .int _ | .float _ => true
  | _ => false

mutual

def precedes : Json → Json → Except Fault Bool
  | .str a, .str b => .ok (a < b)
  | .arr xs, .arr ys => itemsPrecede xs ys
  | a, b =>
    if a.isNumber && b.isNumber then .ok (a.lessNumber b)
    else
      .error (.wrongKind ("'<' not supported between instances of '" ++ a.kind ++ "' and '" ++
        b.kind ++ "'"))

def itemsPrecede : List Json → List Json → Except Fault Bool
  | x :: xs, y :: ys => if x.alike y then itemsPrecede xs ys else precedes x y
  | [], _ :: _ => .ok true
  | _, [] => .ok false

end

end DocSite.Json
