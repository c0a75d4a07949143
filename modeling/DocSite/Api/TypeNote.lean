import DocSite.Literal
import DocSite.Text.Search

namespace DocSite.Api

open Text

/-- A type as a program sees it: its text on its own, its text inside a signature, and the module
and name it goes by, if it has them. -/
structure TypeForm where
  shown : String
  inSignature : String
  module? : Option String
  name? : Option String
  deriving DecidableEq, Repr

inductive TypeNote
  | none
  | text (s : String)
  | type (t : TypeForm)
  deriving DecidableEq, Repr

namespace TypeNote

def shown : TypeNote → String
  | .none => "None"
  | .text s => s
  | .type t => t.shown

def inSignature : TypeNote → String
  | .none => "None"
  | .text s => Literal.quotedText s
  | .type t => t.inSignature

def isPresent : TypeNote → Bool
  | .none => false
  | .text s => !s.isEmpty
  | .type _ => true

end TypeNote

def classOpening : List Char := "<class '".toList

def classClosing : List Char := "'>".toList

def readClassForm (cs : List Char) : Option Hit :=
  match afterStart? classOpening cs with
  | none => none
  | some rest =>
    let name := rest.takeWhile (· ≠ '\x27')
    if !name.isEmpty && startsWith classClosing (rest.drop name.length) then
      some ⟨classOpening.length + name.length + classClosing.length, name⟩
    else none

def plainClasses (cs : List Char) : List Char := substitute readClassForm cs

def plainClassesText (s : String) : String := onChars plainClasses s

def plainType (cs : List Char) : List Char :=
  replace "NoneType".toList "None".toList (replace "typing.".toList [] (plainClasses cs))

/-- The text of a type in a list of fields. A named type goes by its module and name, the module
left out for one that is built in. -/
def TypeNote.display : TypeNote → String
  | .none => "Any"
  | .text s => s
  | .type t =>
    match t.module?, t.name? with
    | some m, some n => if m = "builtins" then n else m ++ "." ++ n
    | _, _ => onChars plainType t.shown

end DocSite.Api
