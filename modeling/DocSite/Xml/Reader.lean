import DocSite.Xml.Element
import DocSite.Xml.Prolog

namespace DocSite.Xml

open Text

/-- The namespaces in force, by their short names; the one without a short name is for elements
only. The last declared comes first. -/
abbrev Scope := List (List Char × List Char)

def xmlSpace : List Char := "http://www.w3.org/XML/1998/namespace".toList

def declaringSpace : List Char := "http://www.w3.org/2000/xmlns/".toList

def Scope.start : Scope := [("xml".toList, xmlSpace)]

def declared? (name : List Char) : Option (List Char) :=
  if name = "xmlns".toList then some [] else afterStart? "xmlns:".toList name

/-- Whether a namespace may be declared under a short name. It may not hold the brace that ends it
before a name. -/
def mayDeclare (short space : List Char) : Bool :=
  if short = "xml".toList then space = xmlSpace
  else if space.contains '\x7d' then false
  else if short = "xmlns".toList then false
  else if space = xmlSpace || space = declaringSpace then false
  else short.isEmpty || !space.isEmpty

def Scope.enter (scope : Scope) (attributes : List (List Char × List Char)) :
    Except Fault Scope :=
  attributes.foldlM
    (fun scope (name, value) =>
      match declared? name with
      | none => .ok scope
      | some short => if mayDeclare short value then .ok ((short, value) :: scope) else bad)
    scope

def Scope.find? (scope : Scope) (short : List Char) : Option (List Char) :=
  (List.find? (·.1 = short) scope).map Prod.snd

def inSpace (space name : List Char) : List Char :=
  if space.isEmpty then name else '\x7b' :: space ++ '\x7d' :: name

/-- A name by its namespace. The namespace without a short name does not reach attributes. -/
def Scope.resolve (scope : Scope) (ofElement : Bool) (name : List Char) :
    Except Fault (List Char) :=
  match cutAt? [':'] name with
  | none => .ok (if ofElement then inSpace ((scope.find? []).getD []) name else name)
  | some (short, rest) =>
    match scope.find? short with
    | some space => .ok (inSpace space rest)
    | none => bad

def Scope.resolveAll (scope : Scope) (attributes : List (List Char × List Char)) :
    Except Fault (List (List Char × List Char)) := do
  if ¬ (attributes.map Prod.fst).Nodup then bad
  else
    let plain := attributes.filter fun (name, _) => (declared? name).isNone
    let resolved ← plain.mapM fun (name, value) => do
      return (← scope.resolve false name, value)
    if ¬ (resolved.map Prod.fst).Nodup then bad else return resolved

structure Tag where
  name : List Char
  attributes : List (List Char × List Char)
  closed : Bool

def readAttributes (d : DocType) (l : Letters) (opened : List (List Char)) (rules : List Rule) :
    Nat → Nat → List Char → Except Fault (Tag × Nat × List Char)
  | 0, _, _ => bad
  | fuel + 1, spent, cs => do
    match skipSpace cs with
    | '>' :: rest => return (⟨[], [], false⟩, spent, rest)
    | '/' :: '>' :: rest => return (⟨[], [], true⟩, spent, rest)
    | ahead =>
      if !cs.head?.any isSpace then bad
      else
        let (name, rest) ← readName l ahead
        let rest ← expect ['='] (skipSpace rest)
        let (text, rest) ← readLiteral (skipSpace rest)
        let (value, spent) ← valueOf d l (isFreeIn rules name) opened spent text
        let (tag, spent, rest) ← readAttributes d l opened rules fuel spent rest
        return ({ tag with attributes := (name, value) :: tag.attributes }, spent, rest)

def readTag (d : DocType) (l : Letters) (opened : List (List Char)) (fuel spent : Nat)
    (cs : List Char) : Except Fault (Tag × Nat × List Char) := do
  let (name, rest) ← readName l cs
  let rules := d.rulesOf name
  let (tag, spent, rest) ← readAttributes d l opened rules fuel spent rest
  return (⟨name, withDefaults rules tag.attributes, tag.closed⟩, spent, rest)

/-- An element that is not yet ended: its name as written, its full name, its attributes, the
namespaces in force and the children read so far, the last one first. -/
structure Frame where
  written : List Char
  name : List Char
  attributes : List (List Char × List Char)
  scope : Scope
  children : List Element

def Frame.start (scope : Scope) (t : Tag) : Except Fault Frame := do
  let scope ← scope.enter t.attributes
  let name ← scope.resolve true t.name
  let attributes ← scope.resolveAll t.attributes
  return ⟨t.name, name, attributes, scope, []⟩

def Frame.element (f : Frame) : Element :=
  .node (String.ofList f.name)
    (f.attributes.map fun (k, v) => (String.ofList k, String.ofList v)) f.children.reverse

def Frame.add (f : Frame) (e : Element) : Frame := { f with children := e :: f.children }

def skipEndTag (name cs : List Char) : Except Fault (List Char) := do
  let rest ← expect name cs
  expect ['>'] (skipSpace rest)

inductive Stop
  /-- With the text, inside the element that it began in. -/
  | text (frame : Frame)
  | element (frame : Frame) (rest : List Char)

/-- Reads on inside the innermost open element, with those around it. `inner` reads the text of an
entity in its place. -/
def readContent (d : DocType) (l : Letters) (opened : List (List Char))
    (inner : List Char → List Char → Frame → Nat → Except Fault (Frame × Nat)) :
    Nat → Frame → List Frame → Nat → List Char → Except Fault (Stop × Nat)
  | 0, _, _, _, _ => bad
  | _, frame, outer, spent, [] => if outer.isEmpty then .ok (.text frame, spent) else bad
  | fuel + 1, frame, outer, spent, c :: cs =>
    if c = '<' then
      match cs with
      | '/' :: rest => do
        let rest ← skipEndTag frame.written rest
        match outer with
        | [] => return (.element frame rest, spent)
        | next :: outer =>
          readContent d l opened inner fuel (next.add frame.element) outer spent rest
      | '!' :: '-' :: '-' :: rest => do
        readContent d l opened inner fuel frame outer spent (← skipComment rest)
      | '!' :: rest => do
        let (_, rest) ← readUpTo "]]>".toList (← expect "[CDATA[".toList rest)
        readContent d l opened inner fuel frame outer spent rest
      | '?' :: rest => do
        readContent d l opened inner fuel frame outer spent (← skipInstruction l rest)
      | _ => do
        let (tag, spent, rest) ← readTag d l opened fuel spent cs
        let started ← Frame.start frame.scope tag
        if tag.closed then
          readContent d l opened inner fuel (frame.add started.element) outer spent rest
        else readContent d l opened inner fuel started (frame :: outer) spent rest
    else if c = '&' then do
      match ← readReference l cs with
      | (.char _, rest) => readContent d l opened inner fuel frame outer spent rest
      | (.entity name, rest) =>
        if (namedChar? name).isSome then
          readContent d l opened inner fuel frame outer spent rest
        else
          match d.entity? name with
          | some (.text text) =>
            let (frame, spent) ← inner name text frame spent
            readContent d l opened inner fuel frame outer spent rest
          | _ => bad
    else if !isValid c || startsWith "]]>".toList (c :: cs) then bad
    else readContent d l opened inner fuel frame outer spent cs

/-- Reads the text of an entity inside an element, at most so many inside each other. The elements
that begin in it end in it. -/
def readContentEntity (d : DocType) :
    Nat → List (List Char) → List Char → List Char → Frame → Nat → Except Fault (Frame × Nat)
  | 0, _, _, _, _, _ => bad
  | depth + 1, opened, name, text, frame, spent => do
    let spent := spent + weight text
    if opened.contains name || d.allowance < spent then bad
    else
      let opened := name :: opened
      match ← readContent d .common opened (readContentEntity d depth opened) (text.length + 1)
        frame [] spent text with
      | (.text frame, spent) => return (frame, spent)
      | (.element _ _, _) => bad

def readRoot (d : DocType) (l : Letters) (fuel : Nat) (cs : List Char) :
    Except Fault (Element × List Char) := do
  let (tag, spent, rest) ← readTag d l [] fuel 0 cs
  let frame ← Frame.start .start tag
  if tag.closed then return (frame.element, rest)
  else
    match ← readContent d l [] (readContentEntity d d.entities.length []) fuel frame [] spent
      rest with
    | (.element frame rest, _) => return (frame.element, rest)
    | (.text _, _) => bad

/-- The most text that references may bring into a document, in bytes: a hundred times the document
itself, and never too little for common use. -/
def allowanceFor (cs : List Char) : Nat :=
  let own := weight cs
  max 8388608 (100 * own) - own

def readDocument (l : Letters) (isAlone : Bool) (cs : List Char) : Except Fault Element := do
  let fuel := cs.length + 1
  let bare := DocType.start isAlone (allowanceFor cs)
  let rest ← skipMisc l fuel cs
  let (d, rest) ← match rest with
    | '<' :: '!' :: rest => do
      let (d, rest) ← readDocType l fuel bare rest
      .ok (d, ← skipMisc l fuel rest)
    | rest => .ok (bare, rest)
  let (root, rest) ← readRoot d l fuel (← expect ['<'] rest)
  let rest ← skipMisc l fuel rest
  if rest.isEmpty then return root else bad

def parse (text : String) : Except Fault Element := do
  let cs := match text.toList with
    | '\ufeff' :: rest => rest
    | cs => cs
  match afterStart? "<?xml".toList cs with
  | some rest =>
    if rest.head?.any isSpace then
      let (head, rest) ← readHead rest
      readDocument head.encoding.letters head.isAlone (← head.encoding.read rest)
    else readDocument .common false cs
  | none => readDocument .common false cs

end DocSite.Xml
