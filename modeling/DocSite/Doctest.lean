import DocSite.Text.Lines

namespace DocSite.Doctest

open Text

structure Example where
  description : List Char
  code : List Char
  deriving DecidableEq, Repr

def promptMark : List Char := ">>>".toList

def continuationMark : List Char := "...".toList

inductive Line
  | prompt (code : List Char)
  | continuation (code : List Char)
  | blank
  | other (text : List Char)
  deriving DecidableEq, Repr

def readLine (raw : List Char) : Line :=
  let l := strip raw
  if startsWith promptMark l then .prompt (l.drop 4)
  else if startsWith continuationMark l then .continuation (l.drop 4)
  else if l.isEmpty then .blank
  else .other l

structure State where
  description : List Char
  code : List (List Char)
  inCode : Bool
  deriving DecidableEq, Repr

def State.start : State := ⟨[], [], false⟩

def State.finished (s : State) : List Example :=
  if s.code.isEmpty then [] else [⟨s.description, unlines s.code⟩]

def State.describe (s : State) (l : List Char) : State :=
  { s with description := if s.description.isEmpty then l else s.description ++ ' ' :: l }

/-- The examples of a list of lines. A blank line in code ends the example unless a prompt follows
at once; at the end of the text it only leaves the code. Any other line ends the code too. -/
def scan (s : State) : List Line → List Example
  | [] => s.finished
  | line :: rest =>
    match line with
    | .prompt code => scan { s with code := s.code ++ [code], inCode := true } rest
    | .continuation code =>
      scan (if s.inCode then { s with code := s.code ++ [code] } else s) rest
    | .blank =>
      if s.inCode then
        match rest with
        | [] => scan { s with inCode := false } rest
        | .prompt _ :: _ => scan s rest
        | _ => s.finished ++ scan .start rest
      else scan s rest
    | .other text =>
      if s.inCode then s.finished ++ scan .start rest
      else scan (s.describe text) rest

def Example.isEmpty (e : Example) : Bool := e.code.isEmpty && e.description.isEmpty

def extract (cs : List Char) : List Example :=
  (scan .start ((lines cs).map readLine)).filter (!·.isEmpty)

structure Verdict where
  passed : Bool
  output : String
  expected : String
  error? : Option String
  warning : String
  deriving DecidableEq, Repr

/-- Examples are not run: every one passes, with a warning. -/
def verdict : Verdict := ⟨true, "", "", none, "Doctest execution not yet implemented"⟩

end DocSite.Doctest
