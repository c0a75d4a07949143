import DocSite.Fault
import DocSite.Text.Search

namespace DocSite.Notebook

open Text

structure Alert where
  kind : List Char
  directive? : Option (List Char)
  content : List Char
  deriving DecidableEq, Repr

def isSmallLetter (c : Char) : Bool := 'a' ≤ c && c ≤ 'z'

def smallWord? (cs : List Char) : Option (List Char × List Char) :=
  let word := cs.takeWhile isSmallLetter
  if word.isEmpty then none else some (word, cs.drop word.length)

def directive? (cs : List Char) : Option (List Char × List Char) := do
  let (word, rest) ← smallWord? (← afterStart? "<!-- mdx:".toList cs)
  return (word, ← afterStart? " -->".toList rest)

def alert? (cs : List Char) : Option (Alert × List Char) := do
  let (kind, rest) ←
    smallWord? (← afterStart? "<div class=\\\"alert alert-block alert-".toList cs)
  let body ← afterStart? "\\\">".toList rest
  let (word?, body) := match directive? body with
    | some (word, body) => (some word, body)
    | none => (none, body)
  let (content, rest) ← cutAt? "</div>".toList body
  return (⟨kind, word?, content⟩, rest)

inductive AlertPiece
  | char (c : Char)
  | alert (a : Alert)
  deriving DecidableEq, Repr

/-- The boxes of a text and the characters between them, after `skip` characters of a box. -/
def alertPieces : Nat → List Char → List AlertPiece
  | _, [] => []
  | skip + 1, _ :: cs => alertPieces skip cs
  | 0, c :: cs =>
    match alert? (c :: cs) with
    | some (a, rest) => .alert a :: alertPieces (cs.length - rest.length) cs
    | none => .char c :: alertPieces 0 cs

def Alert.guarded (a : Alert) : List Char :=
  "(((BEGIN-alert-".toList ++ a.kind ++ ")))".toList ++ a.content ++ "(((END-alert)))".toList

/-- A box is guarded or, if its directive says so, left out. `source` names the notebook. -/
def AlertPiece.guarded (source : String) : AlertPiece → Except Fault (List Char)
  | .char c => .ok [c]
  | .alert a =>
    match a.directive? with
    | none => .ok a.guarded
    | some word =>
      if word = "none".toList then .ok []
      else
        .error (.givenUp ("Unknown mdx directive " ++ Literal.quotedText (String.ofList word) ++
          " for alert in: " ++ source))

def guardAlerts (source : String) (cs : List Char) : Except Fault (List Char) := do
  return (← (alertPieces 0 cs).mapM (AlertPiece.guarded source)).flatten

def tagGuard (tag : List Char) : List Char := "(((HTML-".toList ++ tag ++ ")))".toList

def itemTag? (cs : List Char) : Option Hit :=
  if startsWith "<li>".toList cs then some ⟨4, tagGuard "li".toList⟩
  else if startsWith "</li>".toList cs then some ⟨5, tagGuard "/li".toList⟩
  else none

def guardTags (cs : List Char) : List Char := substitute itemTag? cs

def isTagChar (c : Char) : Bool := isSmallLetter c || c = '/'

def guardedTag? (cs : List Char) : Option Hit := do
  let rest ← afterStart? "(((HTML-".toList cs
  let tag := rest.takeWhile isTagChar
  let _ ← afterStart? ")))".toList (rest.drop tag.length)
  return ⟨8 + tag.length + 3, '<' :: tag ++ ['>']⟩

def unguardTags (cs : List Char) : List Char := substitute guardedTag? cs

def calloutElement (kind : List Char) : List Char :=
  match String.ofList kind with
  | "success" => "Check".toList
  | "warning" => "Warning".toList
  | "danger" => "Danger".toList
  | _ => "Note".toList

def guardedAlert? (cs : List Char) : Option Hit := do
  let (kind, rest) ← smallWord? (← afterStart? "(((BEGIN-alert-".toList cs)
  let (content, rest) ← cutAt? "(((END-alert)))".toList (← afterStart? ")))".toList rest)
  let element := calloutElement kind
  return ⟨cs.length - rest.length,
    '<' :: element ++ ">\n".toList ++ content ++ "\n</".toList ++ element ++ ['>']⟩

def showAlerts (cs : List Char) : List Char := substitute guardedAlert? cs

/-- Prepares the text of a notebook for conversion: printed output counts as markup, and what
conversion would spoil is guarded. -/
def prepare (source : String) (cs : List Char) : Except Fault (List Char) := do
  let cs := replace "\"text/markdown\"".toList "\"text/html\"".toList cs
  return guardTags (← guardAlerts source cs)

end DocSite.Notebook
