import DocSite.Pattern.Item
import DocSite.Text.CharName

namespace DocSite.Pattern

/-! The marks of a written pattern, and what is known while they are read. -/

inductive Mark
  | plain (c : Char)
  | escaped (c : Char)
  deriving DecidableEq, Repr

def Mark.chars : Mark → List Char
  | .plain c => [c]
  | .escaped c => ['\\', c]

def marks : List Char → List Mark
  | '\\' :: c :: cs => .escaped c :: marks cs
  | c :: cs => .plain c :: marks cs
  | [] => []

def marksText (ms : List Mark) : List Char := ms.flatMap Mark.chars

/-- What is left of a pattern, with what is known of its groups: their names, their widths in
order as far as they are closed, the number of groups before the outermost look behind, and the
places where groups were first asked for by number. -/
structure Scan where
  text : List Char
  rest : List Mark
  names : List (String × Nat)
  widths : List (Option Width)
  behindFrom? : Option Nat
  asked : List (Nat × Nat)

namespace Scan

def start (text : List Char) : Scan := ⟨text, marks text, [], [none], none, []⟩

def offset (s : Scan) : Nat := s.text.length - (marksText s.rest).length

def count (s : Scan) : Nat := s.widths.length

def width? (s : Scan) (index : Nat) : Option Width := (s.widths[index]?).join

end Scan

abbrev Scanner := StateT Scan (Except Fault)

namespace Scanner

variable {α : Type}

def located (reason : String) (text : List Char) (offset : Nat) : String :=
  let before := text.take offset
  let line := before.count '\n' + 1
  let column := (before.reverse.takeWhile (· ≠ '\n')).length + 1
  s!"{reason} at position {offset}" ++
    if text.contains '\n' then s!" (line {line}, column {column})" else ""

def failAt (offset : Nat) (reason : String) : Scanner α := do
  throw (.badPattern (located reason (← get).text offset))

/-- Complains about a place that lies `back` characters before the one reached. -/
def fail (reason : String) (back : Nat) : Scanner α := do failAt ((← get).offset - back) reason

def offset : Scanner Nat := do return (← get).offset

def next? : Scanner (Option Mark) := do return (← get).rest.head?

def take? : Scanner (Option Mark) := do
  let s ← get
  set { s with rest := s.rest.tail }
  return s.rest.head?

def accept (c : Char) : Scanner Bool := do
  if (← next?) = some (.plain c) then
    let _ ← take?
    return true
  else return false

def takeWhile (test : Char → Bool) : Nat → Scanner (List Char)
  | 0 => return []
  | limit + 1 => do
    match ← next? with
    | some (.plain c) =>
      if test c then
        let _ ← take?
        return c :: (← takeWhile test limit)
      else return []
    | _ => return []

/-- Takes all up to a character, which must come, and the character itself. What comes before it
must be something. -/
def takeUntil (stop : Char) (what : String) : Scanner (List Char) := do
  let s ← get
  let taken := s.rest.takeWhile (· ≠ .plain stop)
  let text := marksText taken
  match s.rest.drop taken.length with
  | [] =>
    set { s with rest := [] }
    if text.isEmpty then fail ("missing " ++ what) 0
    else fail ("missing " ++ String.singleton stop ++ ", unterminated name") text.length
  | _ :: rest =>
    set { s with rest := rest }
    if text.isEmpty then fail ("missing " ++ what) 1 else return text

end Scanner

open Scanner

def isOctal (c : Char) : Bool := '0' ≤ c && c ≤ '7'

def hexValue? (c : Char) : Option Nat :=
  let n := c.toNat
  if c.isDigit then some (n - 48)
  else if 'a' ≤ c && c ≤ 'f' then some (n - 87)
  else if 'A' ≤ c && c ≤ 'F' then some (n - 55)
  else none

def digitsValue (base : Nat) (ds : List Char) : Nat :=
  ds.foldl (fun n d => base * n + (hexValue? d).getD 0) 0

def controlLetter? : Char → Option Nat
  | 'a' => some 7
  | 'f' => some 12
  | 'n' => some 10
  | 'r' => some 13
  | 't' => some 9
  | 'v' => some 11
  | '\\' => some 92
  | _ => none

def kindLetter? : Char → Option Member
  | 'd' => some (.kind .digit false)
  | 'D' => some (.kind .digit true)
  | 's' => some (.kind .blank false)
  | 'S' => some (.kind .blank true)
  | 'w' => some (.kind .word false)
  | 'W' => some (.kind .word true)
  | _ => none

def anchorLetter? : Char → Option Anchor
  | 'A' => some .textStart
  | 'Z' => some .textEnd
  | 'b' => some (.edge true)
  | 'B' => some (.edge false)
  | _ => none

def escapeText (c : Char) (ds : List Char) : String := String.ofList ('\\' :: c :: ds)

def badEscape {α : Type} (c : Char) (ds : List Char) : Scanner α :=
  fail ("bad escape " ++ escapeText c ds) (ds.length + 2)

def readHex (c : Char) (size : Nat) : Scanner Nat := do
  let ds ← takeWhile (fun d => (hexValue? d).isSome) size
  if ds.length < size then fail ("incomplete escape " ++ escapeText c ds) (ds.length + 2)
  else
    let n := digitsValue 16 ds
    if n < 0x110000 then return n else badEscape c ds

def readNamed : Scanner Nat := do
  if ← accept '\x7b' then
    let name ← takeUntil '\x7d' "character name"
    match Text.charNamed? name with
    | some n => return n
    | none =>
      fail ("undefined character name " ++ String.ofList (Literal.quoted name)) (name.length + 4)
  else fail "missing \x7b" 0

def readCode? : Char → Scanner (Option Nat)
  | 'x' => some <$> readHex 'x' 2
  | 'u' => some <$> readHex 'u' 4
  | 'U' => some <$> readHex 'U' 8
  | 'N' => some <$> readNamed
  | _ => return none

def octalCode (c : Char) (ds : List Char) : Scanner Nat :=
  let n := digitsValue 8 (c :: ds)
  if 255 < n then
    fail ("octal escape value " ++ escapeText c ds ++ " outside of range 0-0o377") (ds.length + 2)
  else return n

/-- A group may be asked for in a look behind only if it was closed before it. -/
def checkBehind (index : Nat) : Scanner Unit := do
  let s ← get
  match s.behindFrom? with
  | none => return
  | some first =>
    if (s.width? index).isNone then fail "cannot refer to an open group" 0
    else if first ≤ index then
      fail "cannot refer to group defined in the same lookbehind subpattern" 0

def askAgain (index back : Nat) : Scanner Item := do
  match (← get).width? index with
  | none => fail "cannot refer to an open group" back
  | some width =>
    checkBehind index
    return .again index width

def readNumbered (c : Char) : Scanner Item := do
  let more ← takeWhile Char.isDigit 1
  let third ← if isOctal c && more.any isOctal then takeWhile isOctal 1 else pure []
  if third.isEmpty then
    let index := digitsValue 10 (c :: more)
    if index < (← get).count then askAgain index (more.length + 2)
    else fail s!"invalid group reference {index}" (more.length + 1)
  else return .literal (← octalCode c (more ++ third))

def readEscape (c : Char) : Scanner Item := do
  match anchorLetter? c, kindLetter? c, controlLetter? c with
  | some a, _, _ => return .anchor a
  | _, some m, _ => return .set false [m]
  | _, _, some n => return .literal n
  | _, _, _ =>
    match ← readCode? c with
    | some n => return .literal n
    | none =>
      if c = '0' then
        return .literal (digitsValue 8 (← takeWhile isOctal 2))
      else if c.isDigit then readNumbered c
      else if c.isAlpha then badEscape c []
      else return .literal c.toNat

def readMemberEscape (c : Char) : Scanner Member := do
  match controlLetter? c, kindLetter? c with
  | some n, _ => return .code n
  | _, some m => return m
  | _, _ =>
    if c = 'b' then return .code 8
    else
      match ← readCode? c with
      | some n => return .code n
      | none =>
        if isOctal c then return .code (← octalCode c (← takeWhile isOctal 2))
        else if c.isAlphanum then badEscape c []
        else return .code c.toNat

def readMember : Mark → Scanner Member
  | .plain c => return .code c.toNat
  | .escaped c => readMemberEscape c

/-- The members of a set up to its end, the last of them first. `opened` is where the set begins. A
closing bracket that comes first is a member. -/
def readMembers (opened : Nat) : Nat → List Member → Scanner (List Member)
  | 0, _ => failAt opened "unterminated character set"
  | fuel + 1, found => do
    match ← take? with
    | none => failAt opened "unterminated character set"
    | some mark =>
      if mark = .plain ']' && !found.isEmpty then return found
      let low ← readMember mark
      if !(← accept '-') then readMembers opened fuel (low :: found)
      else
        match ← take? with
        | none => failAt opened "unterminated character set"
        | some (.plain ']') => return .code 45 :: low :: found
        | some other =>
          let high ← readMember other
          let shown := mark.chars ++ '-' :: other.chars
          let bad : Scanner (List Member) :=
            fail ("bad character range " ++ String.ofList shown) shown.length
          match low, high with
          | .code a, .code b => if b < a then bad else readMembers opened fuel (.range a b :: found)
          | _, _ => bad

def readSet : Scanner Item := do
  let opened := (← offset) - 1
  let negated ← accept '^'
  let members ← readMembers opened ((← get).rest.length + 1) []
  return .set negated members.reverse

end DocSite.Pattern
