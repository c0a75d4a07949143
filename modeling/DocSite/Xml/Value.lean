import DocSite.Xml.DocType

namespace DocSite.Xml

def weight (cs : List Char) : Nat := cs.foldl (fun n c => n + c.utf8Size) 0

/-- A value while it is read, its last character first, and the bytes that references brought in so
far. -/
structure Growing where
  reversed : List Char
  spent : Nat

def Growing.addBlank (g : Growing) (isFree : Bool) : Growing :=
  if !isFree && (g.reversed.isEmpty || g.reversed.head? = some ' ') then g
  else { g with reversed := ' ' :: g.reversed }

def Growing.add (g : Growing) (c : Char) : Growing := { g with reversed := c :: g.reversed }

def Growing.value (g : Growing) (isFree : Bool) : List Char :=
  if !isFree && g.reversed.head? = some ' ' then (g.reversed.drop 1).reverse
  else g.reversed.reverse

/-- Reads on in the text of a value. White space is read as blanks, and `inner` reads the text of
an entity in its place. -/
def readValueText (d : DocType) (l : Letters) (isFree : Bool)
    (inner : List Char → List Char → Growing → Except Fault Growing) :
    Nat → List Char → Growing → Except Fault Growing
  | _, [], g => .ok g
  | 0, _, _ => bad
  | fuel + 1, c :: cs, g =>
    if c = '<' then bad
    else if c = '&' then do
      match ← readReference l cs with
      | (.char c, rest) =>
        readValueText d l isFree inner fuel rest
          (if c = ' ' then g.addBlank isFree else g.add c)
      | (.entity name, rest) =>
        match namedChar? name, d.entity? name with
        | some c, _ => readValueText d l isFree inner fuel rest (g.add c)
        | none, some (.text text) =>
          readValueText d l isFree inner fuel rest (← inner name text g)
        | none, some _ => bad
        | none, none =>
          if d.isComplete then bad else readValueText d l isFree inner fuel rest g
    else if isSpace c then
      let rest := if c = '\r' && cs.head? = some '\n' then cs.drop 1 else cs
      readValueText d l isFree inner fuel rest (g.addBlank isFree)
    else readValueText d l isFree inner fuel cs (g.add c)

/-- Reads the text of an entity inside a value, at most so many inside each other. No entity may
stand inside of itself. -/
def readValueEntity (d : DocType) (isFree : Bool) :
    Nat → List (List Char) → List Char → List Char → Growing → Except Fault Growing
  | 0, _, _, _, _ => bad
  | depth + 1, opened, name, text, g =>
    let spent := g.spent + weight text
    if opened.contains name || d.allowance < spent then bad
    else
      readValueText d .common isFree (readValueEntity d isFree depth (name :: opened))
        text.length text { g with spent }

def valueOf (d : DocType) (l : Letters) (isFree : Bool) (opened : List (List Char))
    (spent : Nat) (text : List Char) : Except Fault (List Char × Nat) := do
  let inner := readValueEntity d isFree d.entities.length opened
  let g ← readValueText d l isFree inner text.length text ⟨[], spent⟩
  return (g.value isFree, g.spent)

def readLiteral (cs : List Char) : Except Fault (List Char × List Char) :=
  match cs with
  | c :: rest => if isQuote c then readUpTo [c] rest else bad
  | [] => bad

end DocSite.Xml
