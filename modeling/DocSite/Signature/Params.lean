import DocSite.Text.Basic
import DocSite.Text.Search

namespace DocSite.Signature

/-- Where a scan of a parameter list stands: the bracket depth, all kinds of bracket sharing one
signed count, and the quote of the string it is in, if any. -/
structure ParamState where
  depth : Int
  quote : Option Char
  deriving DecidableEq, Repr

def ParamState.start : ParamState := ⟨0, none⟩

def isQuote (c : Char) : Bool := c = '\x22' || c = '\x27'

def isOpening (c : Char) : Bool := c = '(' || c = '[' || c = '\x7b'

def isClosing (c : Char) : Bool := c = ')' || c = ']' || c = '\x7d'

def ParamState.cutsAt (s : ParamState) (c : Char) : Bool :=
  s.quote.isNone && c = ',' && s.depth = 0

def ParamState.step (s : ParamState) (escaped : Bool) (c : Char) : ParamState :=
  match s.quote with
  | none =>
    if isQuote c then { s with quote := some c }
    else if isOpening c then { s with depth := s.depth + 1 }
    else if isClosing c then { s with depth := s.depth - 1 }
    else s
  | some q => if c = q && !escaped then { s with quote := none } else s

/-- The raw pieces between the parting commas. A quote counts as escaped when the character
`before` it in the text is a backslash. -/
def piecesFrom (s : ParamState) (before : Option Char) : List Char → List (List Char)
  | [] => [[]]
  | c :: cs =>
    if s.cutsAt c then [] :: piecesFrom s (some c) cs
    else Text.consPiece c (piecesFrom (s.step (before = some '\\') c) (some c) cs)

def trimPieces : List (List Char) → List (List Char)
  | [] => []
  | [last] => if last.isEmpty then [] else [Text.strip last]
  | piece :: pieces => Text.strip piece :: trimPieces pieces

def splitParams (cs : List Char) : List (List Char) :=
  trimPieces (piecesFrom .start none cs)

/-- Where a scan stands that collects parameters: the depth, whether it is in a string, and the
quote of the string it is in or was in last. -/
structure CollectState where
  depth : Int
  inString : Bool
  quote : Option Char
  deriving DecidableEq, Repr

def CollectState.start : CollectState := ⟨0, false, none⟩

def CollectState.cutsAt (s : CollectState) (c : Char) : Bool :=
  !s.inString && c = ',' && s.depth = 0

def CollectState.step (s : CollectState) (escaped : Bool) (c : Char) : CollectState :=
  if s.inString then
    if s.quote = some c && !escaped then { s with inString := false } else s
  else if isQuote c then { s with inString := true, quote := some c }
  else if isOpening c then { s with depth := s.depth + 1 }
  else if isClosing c then { s with depth := s.depth - 1 }
  else s

/-- The parameters with the piece read so far held last character first. A quote counts as
escaped when the piece ends in a backslash. -/
def collectFrom (s : CollectState) (piece : List Char) : List Char → List (List Char)
  | [] => if piece.isEmpty then [] else [Text.strip piece.reverse]
  | c :: cs =>
    if s.cutsAt c then Text.strip piece.reverse :: collectFrom s [] cs
    else collectFrom (s.step (piece.head? = some '\\') c) (c :: piece) cs

def collectParams (cs : List Char) : List (List Char) := collectFrom .start [] cs

def argumentPieces (depth : Int) : List Char → List (List Char)
  | [] => [[]]
  | c :: cs =>
    if c = ',' && depth = 0 then [] :: argumentPieces depth cs
    else
      let next := if isOpening c then depth + 1 else if isClosing c then depth - 1 else depth
      Text.consPiece c (argumentPieces next cs)

def splitArguments (cs : List Char) : List (List Char) := trimPieces (argumentPieces 0 cs)

end DocSite.Signature
