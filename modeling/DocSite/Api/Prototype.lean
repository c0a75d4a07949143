import DocSite.Api.TypeNote
import DocSite.Fault

namespace DocSite.Api

inductive ParamKind
  | positional
  | standard
  | rest
  | keyword
  | restKeyword
  deriving DecidableEq, Repr

structure Parameter where
  name : String
  kind : ParamKind
  note? : Option TypeNote
  default? : Option Literal
  deriving Repr

structure Prototype where
  params : List Parameter
  returns? : Option TypeNote
  deriving Repr

namespace Parameter

def marks : ParamKind → List Char
  | .rest => ['*']
  | .restKeyword => ['*', '*']
  | _ => []

/-- A parameter as a signature shows it. The equals sign of a default has blanks around it after
a type only. -/
def code (p : Parameter) : List Char :=
  marks p.kind ++ p.name.toList ++
    (match p.note?, p.default? with
     | none, none => []
     | none, some d => '=' :: d.code
     | some a, none => ':' :: ' ' :: a.inSignature.toList
     | some a, some d => ':' :: ' ' :: a.inSignature.toList ++ ' ' :: '=' :: ' ' :: d.code)

end Parameter

namespace Prototype

def anything : Prototype :=
  ⟨[⟨"args", .rest, none, none⟩, ⟨"kwargs", .restKeyword, none, none⟩], none⟩

/-- The entries of a parameter list. A slash ends the parameters taken by place only; a star
begins those taken by name only, unless one with a star went before. -/
def entriesFrom (inPositional starred : Bool) : List Parameter → List (List Char)
  | [] => if inPositional then [['/']] else []
  | p :: ps =>
    match p.kind with
    | .positional => p.code :: entriesFrom true starred ps
    | .standard => slash ++ p.code :: entriesFrom false starred ps
    | .rest => slash ++ p.code :: entriesFrom false true ps
    | .keyword =>
      slash ++ (if starred then [] else [['*']]) ++ p.code :: entriesFrom false true ps
    | .restKeyword => slash ++ p.code :: entriesFrom false starred ps
  where slash : List (List Char) := if inPositional then [['/']] else []

def entries (p : Prototype) : List (List Char) := entriesFrom false false p.params

def code (p : Prototype) : List Char :=
  '(' :: ", ".toList.intercalate p.entries ++ [')'] ++
    (match p.returns? with
     | none => []
     | some a => " -> ".toList ++ a.inSignature.toList)

def bound (p : Prototype) : Except Fault Prototype :=
  match p.params with
  | [] => .error (.badValue "invalid method signature")
  | first :: others =>
    match first.kind with
    | .positional | .standard => .ok { p with params := others }
    | .rest => .ok p
    | .keyword | .restKeyword => .error (.badValue "invalid method signature")

def withoutReceiver (p : Prototype) : Prototype :=
  match p.params with
  | first :: others =>
    if first.name = "self" || first.name = "cls" then { p with params := others } else p
  | [] => p

end Prototype

end DocSite.Api
