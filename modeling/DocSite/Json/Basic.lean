import DocSite.OrderedMap
import DocSite.Number.Double

namespace DocSite

/-- Values of the data format that configurations, notebooks and answers come in. Fields stay in
the order in which they were written. -/
inductive Json
  | null
  | bool (b : Bool)
  | int (n : Int)
  | float (x : Double)
  | str (s : String)
  | arr (items : List Json)
  | obj (fields : List (String × Json))
  deriving Repr

namespace Json

instance : Inhabited Json := ⟨.null⟩

/-- Whether a value counts as something: not null, false, zero or empty. -/
def isPresent : Json → Bool
  | .null => false
  | .bool b => b
  | .int n => n ≠ 0
  | .float (.finite _ m _) => m ≠ 0
  | .float _ => true
  | .str s => s ≠ ""
  | .arr items => !items.isEmpty
  | .obj fields => !fields.isEmpty

def ratio? : Json → Option (Int × Nat)
  | .bool b => some (if b then 1 else 0, 1)
  | .int n => some (n, 1)
  | .float x => x.ratio?
  | _ => none

def sameNumber (a b : Json) : Bool :=
  match a.ratio?, b.ratio? with
  | some (n, d), some (m, e) => n * e == m * d
  | _, _ =>
    match a, b with
    | .float (.infinite s), .float (.infinite t) => s == t
    | _, _ => false

def isUndefined : Json → Bool
  | .float .undefined => true
  | _ => false

mutual

/-- Agreement of values: numbers by value, objects whatever the order of their fields. A number
that is undefined agrees with none, except where both lie in the same place of something. -/
def same : Json → Json → Bool
  | .null, b => match b with | .null => true | _ => false
  | .str s, b => match b with | .str t => s == t | _ => false
  | .arr xs, b => match b with | .arr ys => sameItems xs ys | _ => false
  | .obj fs, b =>
    match b with
    | .obj gs => fs.length == gs.length && sameFields fs gs
    | _ => false
  | .bool x, b => sameNumber (.bool x) b
  | .int x, b => sameNumber (.int x) b
  | .float x, b => sameNumber (.float x) b

def sameItems : List Json → List Json → Bool
  | [], ys => ys.isEmpty
  | x :: xs, ys => match ys with | [] => false | y :: ys => (same x y || (x.isUndefined && y.isUndefined)) && sameItems xs ys

def sameFields : List (String × Json) → List (String × Json) → Bool
  | [], _ => true
  | (k, v) :: fs, gs =>
    (match OrderedMap.get? k gs with
      | some w => same v w || (v.isUndefined && w.isUndefined)
      | none => false) && sameFields fs gs

end

def alike (a b : Json) : Bool := a.same b || (a.isUndefined && b.isUndefined)

def ofText? : Option String → Json
  | some s => .str s
  | none => .null

def ofTexts (ss : List String) : Json := .arr (ss.map .str)

end Json

end DocSite
