import DocSite.Pattern.Scan

namespace DocSite.Pattern

open Scanner

def repeatLimit : Nat := 4294967295

def readBound (ds : List Char) : Scanner Nat :=
  let n := digitsValue 10 ds
  if repeatLimit ≤ n then throw (.tooLarge "the repetition number is too large") else return n

/-- The bounds of a repetition between braces, after the opening one. Without them the brace is a
character like others. -/
def readBounds? : Scanner (Option (Nat × Option Nat)) := do
  let start ← get
  if (← next?) = some (.plain '\x7d') then return none
  let low ← takeWhile Char.isDigit start.rest.length
  let high ← if ← accept ',' then takeWhile Char.isDigit start.rest.length else pure low
  if ← accept '\x7d' then
    let least ← if low.isEmpty then pure 0 else readBound low
    if high.isEmpty then return some (least, none)
    let most ← readBound high
    if most < least then failAt start.offset "min repeat greater than max repeat"
    else return some (least, some most)
  else
    set start
    return none

def repeatBounds? : Char → Scanner (Option (Nat × Option Nat))
  | '?' => return some (0, some 1)
  | '*' => return some (0, none)
  | '+' => return some (1, none)
  | '\x7b' => readBounds?
  | _ => return none

def repeatLast (opened least : Nat) (most? : Option Nat) : List Item → Scanner (List Item)
  | [] | .anchor _ :: _ => failAt opened "nothing to repeat"
  | .repeats .. :: _ => failAt opened "multiple repeat"
  | item :: items => do
    let body := match item with
      | .group none [] [] body => body
      | item => [item]
    let manner ←
      if ← accept '?' then pure Manner.lazy
      else if ← accept '+' then pure .possessive
      else pure .greedy
    return .repeats manner least most? body :: items

def isFlag (c : Char) : Bool := "iLmsxatu".toList.contains c

def isTypeFlag (c : Char) : Bool := c = 'a' || c = 'u' || c = 'L'

def noFlag {α : Type} (missing : String) : Option Mark → Scanner α
  | none => fail missing 0
  | some (.plain c) =>
    let isLetter := c.isAlpha || (127 < c.toNat && Text.startsIdentifier c)
    fail (if isLetter then "unknown flag" else missing) 1
  | some (.escaped _) => fail missing 2

def readAdded (c : Char) (added : List Char) : Nat → Scanner (List Char × Char)
  | 0 => fail "missing -, : or )" 0
  | fuel + 1 => do
    if c = 'L' then fail "bad inline flags: cannot use 'L' flag with a str pattern" 0
    let added := c :: added
    if added.contains 'a' && added.contains 'u' && isTypeFlag c then
      fail "bad inline flags: flags 'a', 'u' and 'L' are incompatible" 0
    match ← take? with
    | some (.plain d) =>
      if d = ')' || d = '-' || d = ':' then return (added, d)
      else if isFlag d then readAdded d added fuel
      else noFlag "missing -, : or )" (some (.plain d))
    | other => noFlag "missing -, : or )" other

def readRemoved (missing : String) (removed : List Char) : Nat → Scanner (List Char)
  | 0 => fail missing 0
  | fuel + 1 => do
    match ← take? with
    | some (.plain d) =>
      if d = ':' && !removed.isEmpty then return removed
      else if !isFlag d then noFlag missing (some (.plain d))
      else if isTypeFlag d then
        fail "bad inline flags: cannot turn off flags 'a', 'u' and 'L'" 0
      else readRemoved "missing :" (d :: removed) fuel
    | other => noFlag missing other

/-- The flags that hold in a parenthesis, beginning with `c`. `opened` is where it opens. Flags for
the whole pattern would have to stand at its start. -/
def readFlags (opened : Nat) (c : Char) : Scanner (List Char × List Char) := do
  let fuel := (← get).rest.length + 1
  let (added, stop) ← if c = '-' then pure ([], '-') else readAdded c [] fuel
  if stop = ')' then failAt opened "global flags not at the start of the expression"
  if added.contains 't' then fail "bad inline flags: cannot turn on global flag" 1
  let removed ← if stop = '-' then readRemoved "missing flag" [] fuel else pure []
  if removed.contains 't' then fail "bad inline flags: cannot turn off global flag" 1
  if added.any removed.contains then fail "bad inline flags: flag turned on and off" 1
  return (added, removed)

inductive Opening
  | capturing (name? : Option String)
  | flagged (added removed : List Char)
  | atomic
  | look (isBehind wanted : Bool)
  | given (index : Nat)
  /-- It is closed already, and leaves an item or nothing. -/
  | closed (item? : Option Item)

def checkName (name : List Char) : Scanner Unit := do
  if !Text.isIdentifier name then
    fail ("bad character in group name " ++ String.ofList (Literal.quoted name)) (name.length + 1)

def indexOf (name : List Char) : Scanner Nat := do
  match (← get).names.lookup (String.ofList name) with
  | some index => return index
  | none => fail ("unknown group name " ++ String.ofList (Literal.quoted name)) (name.length + 1)

def readCondition : Scanner Nat := do
  let name ← takeUntil ')' "group name"
  if Text.isIdentifier name then indexOf name
  else
    match Text.readInt? name with
    | some (.ofNat 0) => fail "bad group number" (name.length + 1)
    | some (.ofNat index) =>
      let s ← get
      if (s.asked.lookup index).isNone then
        set { s with asked := s.asked ++ [(index, s.offset - name.length - 1)] }
      return index
    | _ =>
      fail ("bad character in group name " ++ String.ofList (Literal.quoted name)) (name.length + 1)

def readNaming : Scanner Opening := do
  if ← accept '<' then
    let name ← takeUntil '>' "group name"
    checkName name
    return .capturing (some (String.ofList name))
  else if ← accept '=' then
    let name ← takeUntil ')' "group name"
    checkName name
    return .closed (some (← askAgain (← indexOf name) (name.length + 1)))
  else
    match ← take? with
    | none => fail "unexpected end of pattern" 0
    | some mark =>
      fail ("unknown extension ?P" ++ String.ofList mark.chars) (mark.chars.length + 2)

def readBehind : Scanner Opening := do
  match ← take? with
  | none => fail "unexpected end of pattern" 0
  | some (.plain '=') => return .look true true
  | some (.plain '!') => return .look true false
  | some mark => fail ("unknown extension ?<" ++ String.ofList mark.chars) (mark.chars.length + 2)

def skipComment (opened : Nat) : Scanner Unit := do
  let s ← get
  match s.rest.dropWhile (· ≠ .plain ')') with
  | [] => failAt opened "missing ), unterminated comment"
  | _ :: rest => set { s with rest := rest }

def readOpening (opened : Nat) : Scanner Opening := do
  if !(← accept '?') then return .capturing none
  match ← take? with
  | none => fail "unexpected end of pattern" 0
  | some (.escaped c) => fail ("unknown extension ?" ++ escapeText c []) 3
  | some (.plain c) =>
    match c with
    | 'P' => readNaming
    | ':' => return .flagged [] []
    | '#' =>
      skipComment opened
      return .closed none
    | '=' => return .look false true
    | '!' => return .look false false
    | '<' => readBehind
    | '(' =>
      let index ← readCondition
      checkBehind index
      return .given index
    | '>' => return .atomic
    | c =>
      if isFlag c || c = '-' then
        let (added, removed) ← readFlags opened c
        return .flagged added removed
      else fail ("unknown extension ?" ++ String.singleton c) 2

def openGroup (name? : Option String) : Scanner Nat := do
  let s ← get
  let index := s.count
  match name? with
  | none => set { s with widths := s.widths ++ [none] }
  | some name =>
    match s.names.lookup name with
    | some old =>
      fail (s!"redefinition of group name {Literal.quotedText name} as group {index}; " ++
        s!"was group {old}") (name.length + 1)
    | none => set { s with widths := s.widths ++ [none], names := s.names ++ [(name, index)] }
  return index

def closeGroup (index : Nat) (body : List Item) : Scanner Unit :=
  modify fun s => { s with widths := s.widths.set index (some (itemsWidth body)) }

def needClosing (opened : Nat) : Scanner Unit := do
  if !(← accept ')') then failAt opened "missing ), unterminated subpattern"

def skipLayout (c : Char) : Scanner Bool := do
  if c = ' ' || (9 ≤ c.toNat && c.toNat ≤ 13) then return true
  else if c = '#' then
    modify fun s => { s with rest := (s.rest.dropWhile (· ≠ .plain '\n')).tail }
    return true
  else return false

def readSimple (c : Char) : Scanner Item :=
  match c with
  | '[' => readSet
  | '.' => return .any
  | '^' => return .anchor .start
  | '$' => return .anchor .finish
  | c => return .literal c.toNat

mutual

/-- The branches of a pattern up to a closing parenthesis or the end. `isFree` says that it is laid
out freely. -/
def readBranches : Nat → Bool → Scanner (List Item)
  | 0, _ => fail "too long" 0
  | fuel + 1, isFree => do
    let first ← readItems fuel isFree []
    let others ← readOthers fuel isFree
    return if others.isEmpty then first else [.branch (first :: others)]

def readOthers : Nat → Bool → Scanner (List (List Item))
  | 0, _ => fail "too long" 0
  | fuel + 1, isFree => do
    if ← accept '|' then
      let branch ← readItems fuel isFree []
      return branch :: (← readOthers fuel isFree)
    else return []

/-- The items up to a bar, a closing parenthesis or the end. `found` holds those read so far, the
last of them first. -/
def readItems : Nat → Bool → List Item → Scanner (List Item)
  | 0, _, _ => fail "too long" 0
  | fuel + 1, isFree, found => do
    match ← next? with
    | none | some (.plain '|') | some (.plain ')') => return found.reverse
    | some (.escaped c) =>
      let _ ← take?
      let item ← readEscape c
      readItems fuel isFree (item :: found)
    | some (.plain c) =>
      let opened ← offset
      let _ ← take?
      let isLayout ← if isFree then skipLayout c else pure false
      if isLayout then readItems fuel isFree found
      else if c = '(' then
        let opening ← readOpening opened
        let item? ← readParenthesis fuel isFree opened opening
        readItems fuel isFree (item?.toList ++ found)
      else
        match ← repeatBounds? c with
        | some (least, most?) =>
          let items ← repeatLast opened least most? found
          readItems fuel isFree items
        | none =>
          let item ← readSimple c
          readItems fuel isFree (item :: found)

def readParenthesis : Nat → Bool → Nat → Opening → Scanner (Option Item)
  | 0, _, _, _ => fail "too long" 0
  | fuel + 1, isFree, opened, opening => do
    match opening with
    | .closed item? => return item?
    | .capturing name? =>
      let index ← openGroup name?
      let body ← readBranches fuel isFree
      needClosing opened
      closeGroup index body
      return some (.group (some index) [] [] body)
    | .flagged added removed =>
      let isFree := (isFree || added.contains 'x') && !removed.contains 'x'
      let body ← readBranches fuel isFree
      needClosing opened
      return some (.group none added removed body)
    | .atomic =>
      let body ← readBranches fuel isFree
      needClosing opened
      return some (.atomic body)
    | .look false wanted =>
      let body ← readBranches fuel isFree
      needClosing opened
      return some (.look false wanted body)
    | .look true wanted =>
      let outer? := (← get).behindFrom?
      modify fun s => { s with behindFrom? := some (outer?.getD s.count) }
      let body ← readBranches fuel isFree
      modify fun s => { s with behindFrom? := outer? }
      needClosing opened
      return some (.look true wanted body)
    | .given index =>
      let yes ← readItems fuel isFree []
      let no ← if ← accept '|' then readItems fuel isFree [] else pure []
      if (← next?) = some (.plain '|') then
        fail "conditional backref with more than two branches" 0
      needClosing opened
      return some (.given index yes no)

end

def readAll : Scanner (List Item) := do
  let items ← readBranches (3 * (← get).rest.length + 3) false
  if !(← get).rest.isEmpty then fail "unbalanced parenthesis" 0
  let s ← get
  match s.asked.find? fun (index, _) => s.count ≤ index with
  | some (index, offset) => failAt offset s!"invalid group reference {index}"
  | none => return items

structure Written where
  pattern : Pattern
  groups : Nat

def read (cs : List Char) : Except Fault Written := do
  let (items, s) ← readAll.run (.start cs)
  return ⟨← buildAll .none items, s.count - 1⟩

end DocSite.Pattern
