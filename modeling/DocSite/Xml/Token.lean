import DocSite.Fault
import DocSite.OrderedMap
import DocSite.Text.Search
import DocSite.Xml.Letter

namespace DocSite.Xml

open Text

def bad : Except Fault α := .error .badMarkup

def isValid (c : Char) : Bool :=
  let n := c.toNat
  n = 9 || n = 10 || n = 13 || (32 ≤ n && n ≠ 0xfffe && n ≠ 0xffff)

def isSpace (c : Char) : Bool := c = ' ' || c = '\t' || c = '\n' || c = '\r'

def skipSpace (cs : List Char) : List Char := cs.dropWhile isSpace

def isQuote (c : Char) : Bool := c = '\x22' || c = '\x27'

def readSimpleName (l : Letters) (cs : List Char) : Except Fault (List Char × List Char) :=
  let name := cs.takeWhile l.isPart
  if name.head?.any l.isStart then .ok (name, cs.drop name.length) else bad

def readName (l : Letters) (cs : List Char) : Except Fault (List Char × List Char) := do
  let (name, rest) ← readSimpleName l cs
  match rest with
  | ':' :: rest =>
    let (own, rest) ← readSimpleName l rest
    return (name ++ ':' :: own, rest)
  | _ => return (name, rest)

def expect (start cs : List Char) : Except Fault (List Char) :=
  match afterStart? start cs with
  | some rest => .ok rest
  | none => bad

def readUpTo (stop cs : List Char) : Except Fault (List Char × List Char) :=
  match cutAt? stop cs with
  | some (inner, rest) => if inner.all isValid then .ok (inner, rest) else bad
  | none => bad

/-- What follows a comment, after its opening. Two hyphens can only end it. -/
def skipComment (cs : List Char) : Except Fault (List Char) := do
  expect ['>'] (← readUpTo ['-', '-'] cs).2

def skipInstruction (l : Letters) (cs : List Char) : Except Fault (List Char) := do
  let (name, rest) ← readSimpleName l cs
  if (name.map Char.toLower) = "xml".toList then bad
  else if startsWith ['?', '>'] rest then return rest.drop 2
  else if !rest.head?.any isSpace then bad
  else return (← readUpTo ['?', '>'] rest).2

def hexDigit? (c : Char) : Option Nat :=
  if '0' ≤ c && c ≤ '9' then some (c.toNat - 48)
  else if 'a' ≤ c && c ≤ 'f' then some (c.toNat - 87)
  else if 'A' ≤ c && c ≤ 'F' then some (c.toNat - 55)
  else none

def readDigits? (base : Nat) (ds : List Char) : Option Nat :=
  if ds.isEmpty then none
  else
    ds.foldlM
      (fun n c => (hexDigit? c).bind fun d => if d < base then some (base * n + d) else none) 0

def charOf? (n : Nat) : Option Char :=
  if n < 0x110000 && !(0xd800 ≤ n && n < 0xe000) then
    let c := Char.ofNat n
    if isValid c then some c else none
  else none

inductive Reference
  | char (c : Char)
  | entity (name : List Char)

def readReference (l : Letters) (cs : List Char) : Except Fault (Reference × List Char) := do
  match cs with
  | '#' :: cs =>
    let (base, cs) := match cs with
      | 'x' :: cs => (16, cs)
      | cs => (10, cs)
    let digits := cs.takeWhile Char.isAlphanum
    let rest ← expect [';'] (cs.drop digits.length)
    match (readDigits? base digits).bind charOf? with
    | some c => return (.char c, rest)
    | none => bad
  | _ =>
    let (name, rest) ← readSimpleName l cs
    return (.entity name, ← expect [';'] rest)

def namedChar? (name : List Char) : Option Char :=
  match String.ofList name with
  | "amp" => some '&'
  | "lt" => some '<'
  | "gt" => some '>'
  | "quot" => some '\x22'
  | "apos" => some '\x27'
  | _ => none

end DocSite.Xml
