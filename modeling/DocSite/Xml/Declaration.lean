import DocSite.Xml.Value

namespace DocSite.Xml

open Text

/-- A mark that a declaration is made of. A name or a closing bracket may carry a sign that says
how often. -/
inductive Mark
  | name (text : List Char) (sign : Option Char)
  | joined (text : List Char) (sign : Option Char)
  | word (text : List Char)
  | quoted (text : List Char)
  | key (text : List Char)
  | percent
  | opening
  | closing (sign : Option Char)
  | comma
  | bar

def readSign (cs : List Char) : Option Char × List Char :=
  match cs with
  | c :: rest => if c = '?' || c = '*' || c = '+' then (some c, rest) else (none, cs)
  | [] => (none, cs)

def isBefore (others : List Char) (cs : List Char) : Bool :=
  cs.head?.any fun c => isSpace c || others.contains c

def markOfWord (l : Letters) (text : List Char) (sign : Option Char) : Except Fault Mark :=
  match text.head?.any l.isStart, splitChar ':' text, sign with
  | true, [_], _ => .ok (.name text sign)
  | true, [_, own], none => .ok (if own.isEmpty then .word text else .joined text none)
  | true, [_, own], some _ => if own.isEmpty then bad else .ok (.joined text sign)
  | _, _, none => .ok (.word text)
  | _, _, some _ => bad

def readWordMark (l : Letters) (cs : List Char) : Except Fault (Mark × List Char) := do
  let text := cs.takeWhile fun c => l.isPart c || c = ':'
  if text.isEmpty then bad
  else
    let (sign, rest) := readSign (cs.drop text.length)
    let mark ← markOfWord l text sign
    if sign.isSome || isBefore ['>', ')', ',', '|', '[', '%'] rest then return (mark, rest)
    else bad

def readMark (l : Letters) (c : Char) (cs : List Char) : Except Fault (Mark × List Char) :=
  if isQuote c then do
    let (text, rest) ← readUpTo [c] cs
    if isBefore ['>', '%', '['] rest then return (.quoted text, rest) else bad
  else if c = '(' then .ok (.opening, cs)
  else if c = ',' then .ok (.comma, cs)
  else if c = '|' then .ok (.bar, cs)
  else if c = '%' then if isBefore ['%'] cs then .ok (.percent, cs) else bad
  else if c = ')' then
    let (sign, rest) := readSign cs
    if sign.isSome || isBefore ['>', ',', '|', ')'] rest then .ok (.closing sign, rest) else bad
  else if c = '#' then do
    let (text, rest) ← readSimpleName l cs
    if isBefore [')', '>', '%', '|'] rest then return (.key text, rest) else bad
  else readWordMark l (c :: cs)

/-- The marks of a declaration up to its end or up to a square bracket, the sign that ends them and
what follows. -/
def readMarks (l : Letters) : Nat → List Char → Except Fault (List Mark × Char × List Char)
  | 0, _ => bad
  | fuel + 1, cs => do
    match skipSpace cs with
    | [] => bad
    | c :: cs =>
      if c = '>' || c = '[' then return ([], c, cs)
      else
        let (mark, rest) ← readMark l c cs
        let (marks, stop, rest) ← readMarks l fuel rest
        return (mark :: marks, stop, rest)

def Mark.name? : Mark → Option (List Char)
  | .name text none => some text
  | .joined text none => some text
  | _ => none

def Mark.isWord (w : String) : Mark → Bool
  | .name text none => String.ofList text = w
  | _ => false

def isPublicChar (c : Char) : Bool :=
  c.isAlphanum || "-'()+,./:=?;!*#@$_% \r\n".toList.contains c

def readOutside (marks : List Mark) : Except Fault (List Mark) :=
  match marks with
  | source :: .quoted text :: rest =>
    if source.isWord "SYSTEM" then .ok rest
    else if source.isWord "PUBLIC" && text.all isPublicChar then
      match rest with
      | .quoted _ :: rest => .ok rest
      | _ => bad
    else bad
  | _ => bad

/-- The text of an entity: numbers of characters are put in, and other references stay. -/
def entityText (l : Letters) : Nat → List Char → Except Fault (List Char)
  | _, [] => .ok []
  | 0, _ => bad
  | fuel + 1, c :: cs =>
    if c = '%' then bad
    else if c = '&' then do
      match ← readReference l cs with
      | (.char c, rest) => return c :: (← entityText l fuel rest)
      | (.entity name, rest) => return '&' :: name ++ ';' :: (← entityText l fuel rest)
    else if c = '\r' then do
      let rest := if cs.head? = some '\n' then cs.drop 1 else cs
      return '\n' :: (← entityText l fuel rest)
    else return c :: (← entityText l fuel cs)

def textIfKept (d : DocType) (l : Letters) (text : List Char) : Except Fault (List Char) :=
  if d.isKept then entityText l text.length text else .ok []

def declareEntity (d : DocType) (l : Letters) (marks : List Mark) : Except Fault DocType := do
  match marks with
  | [.name name none, .quoted text] => return d.addEntity name (.text (← textIfKept d l text))
  | .percent :: .name _ none :: [.quoted text] =>
    let _ ← textIfKept d l text
    return d
  | .percent :: .name _ none :: rest =>
    if (← readOutside rest).isEmpty then return d else bad
  | .name name none :: rest =>
    match ← readOutside rest with
    | [] => return d.addEntity name .elsewhere
    | [data, .name _ none] =>
      if data.isWord "NDATA" then return d.addEntity name .foreign else bad
    | _ => bad
  | _ => bad

def checkNotation (marks : List Mark) : Except Fault Unit :=
  match marks with
  | [.name _ none, source, .quoted text] =>
    if source.isWord "SYSTEM" || (source.isWord "PUBLIC" && text.all isPublicChar) then .ok ()
    else bad
  | [.name _ none, source, .quoted text, .quoted _] =>
    if source.isWord "PUBLIC" && text.all isPublicChar then .ok () else bad
  | _ => bad

def readChoices (isChoice : Mark → Bool) : List Mark → Except Fault (List Mark)
  | m :: .bar :: rest => if isChoice m then readChoices isChoice rest else bad
  | m :: .closing none :: rest => if isChoice m then .ok rest else bad
  | _ => bad

def Mark.isChoice : Mark → Bool
  | .name _ none | .joined _ none | .word _ => true
  | _ => false

def Mark.isSimple : Mark → Bool
  | .name _ none => true
  | _ => false

def wordKinds : List String :=
  ["ID", "IDREF", "IDREFS", "ENTITY", "ENTITIES", "NMTOKEN", "NMTOKENS"]

/-- The kind of an attribute: whether any text may be its value, whether it marks the element, and
what follows. -/
def readKind (marks : List Mark) : Except Fault (Bool × Bool × List Mark) := do
  match marks with
  | .opening :: rest => return (false, false, ← readChoices Mark.isChoice rest)
  | .name word none :: rest =>
    let word := String.ofList word
    if word = "CDATA" then return (true, false, rest)
    else if wordKinds.contains word then return (false, word = "ID", rest)
    else if word = "NOTATION" then
      match rest with
      | .opening :: rest => return (false, false, ← readChoices Mark.isSimple rest)
      | _ => bad
    else bad
  | _ => bad

def DocType.addDefault (d : DocType) (l : Letters) (element name : List Char) (isFree : Bool)
    (text : List Char) : Except Fault DocType := do
  if !d.isKept then return d
  else
    let (value, _) ← valueOf d l isFree [] 0 text
    return d.addRule element false ⟨name, isFree, some value⟩

def declareAttributes (l : Letters) (element : List Char) :
    Nat → DocType → List Mark → Except Fault DocType
  | _, d, [] => .ok d
  | 0, _, _ => bad
  | fuel + 1, d, m :: marks => do
    match m.name? with
    | none => bad
    | some name =>
      let (isFree, isMark, rest) ← readKind marks
      match rest with
      | .quoted text :: rest =>
        declareAttributes l element fuel (← d.addDefault l element name isFree text) rest
      | .key word :: rest =>
        match String.ofList word, rest with
        | "IMPLIED", rest | "REQUIRED", rest =>
          declareAttributes l element fuel (d.addRule element isMark ⟨name, isFree, none⟩) rest
        | "FIXED", .quoted text :: rest =>
          declareAttributes l element fuel (← d.addDefault l element name isFree text) rest
        | _, _ => bad
      | _ => bad

def checkMixed : List Mark → Except Fault Unit
  | [.closing (some '*')] => .ok ()
  | .bar :: m :: rest => if m.name?.isSome then checkMixed rest else bad
  | _ => bad

/-- Groups of names, of which the open ones are given by the sign that divides their parts, if it
has come yet; `due` tells that a part must follow. -/
def checkGroups : Bool → List (Option Char) → List Mark → Except Fault Unit
  | true, open_, .opening :: ms => checkGroups true (none :: open_) ms
  | true, open_, .name _ _ :: ms => checkGroups false open_ ms
  | true, open_, .joined _ _ :: ms => checkGroups false open_ ms
  | false, [_], [.closing _] => .ok ()
  | false, _ :: outer :: open_, .closing _ :: ms => checkGroups false (outer :: open_) ms
  | false, sign :: open_, .comma :: ms =>
    if sign = some '|' then bad else checkGroups true (some ',' :: open_) ms
  | false, sign :: open_, .bar :: ms =>
    if sign = some ',' then bad else checkGroups true (some '|' :: open_) ms
  | _, _, _ => bad

def checkElement (marks : List Mark) : Except Fault Unit :=
  match marks with
  | [m, what] =>
    if m.name?.isSome && (what.isWord "EMPTY" || what.isWord "ANY") then .ok () else bad
  | m :: .opening :: rest =>
    if m.name?.isNone then bad
    else
      match rest with
      | .key word :: rest =>
        if String.ofList word ≠ "PCDATA" then bad
        else
          match rest with
          | [.closing none] => .ok ()
          | rest => checkMixed rest
      | rest => checkGroups true [none] rest
  | _ => bad

def declare (d : DocType) (l : Letters) (word : String) (marks : List Mark) :
    Except Fault DocType := do
  match word with
  | "ENTITY" => declareEntity d l marks
  | "ATTLIST" =>
    match marks with
    | m :: rest =>
      match m.name? with
      | some element => declareAttributes l element rest.length d rest
      | none => bad
    | [] => bad
  | "ELEMENT" =>
    checkElement marks
    return d
  | "NOTATION" =>
    checkNotation marks
    return d
  | _ => bad

end DocSite.Xml
