import DocSite.Fault
import DocSite.Text.Lines
import DocSite.Text.Search

namespace DocSite.Api

structure DocParam where
  name : String
  type? : Option String
  description? : Option String
  deriving DecidableEq, Repr

structure DocReturns where
  type? : Option String
  description? : Option String
  deriving DecidableEq, Repr

structure DocPart where
  heading : List String
  description? : Option String
  deriving DecidableEq, Repr

structure DocExample where
  description? : Option String
  snippet? : Option String
  deriving DecidableEq, Repr

structure Docstring where
  short? : Option String
  long? : Option String
  description? : Option String
  params : List DocParam
  returns? : Option DocReturns
  parts : List DocPart
  examples : List DocExample
  deriving DecidableEq, Repr

def Docstring.empty : Docstring := ⟨none, none, none, [], none, [], []⟩

def present? (s? : Option String) : Option String :=
  match s? with
  | some s => if s.isEmpty then none else some s
  | none => none

def cleanDoc? (raw? : Option String) : Option String :=
  present? (raw?.map (Text.onChars Text.flushLeft))

/-- The formatter of code: it may be absent, leave a text in the place of any code, or be
interrupted. -/
inductive Formatter
  | absent
  | leaves (text : String)
  | interrupts
  deriving DecidableEq, Repr

def Formatter.run (f : Formatter) (code : List Char) : Except Halt (List Char) :=
  match f with
  | .absent => .ok code
  | .leaves text => .ok (Text.strip (Text.plainNewlines text.toList))
  | .interrupts => .error .interrupted

structure Aids where
  parse : String → Docstring
  formatter : Formatter

end DocSite.Api
