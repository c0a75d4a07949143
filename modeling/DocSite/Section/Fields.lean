import DocSite.Api.Access
import DocSite.Mdx.Prose
import DocSite.Pattern.Basic

namespace DocSite.Section

section Documentation

open Pattern

def namedLine (name : Pattern) : Pattern :=
  all [lineStart, blanks, name, blanks, this ':']

/-- A field's name and colon at the start of a line, and then its text, which goes on to the next
such line or to what `stop` finds. -/
def fieldText (name : List Char) (stop : Pattern) : Pattern :=
  all [namedLine (text name), blanks, .group 1 (.many .lazy 1 none anyChar),
    .ahead true (.either (namedLine word) stop)]

def blankLine : Pattern := all [lineStart, blanks, lineEnd]

def listedText (name : List Char) : Pattern :=
  all [text "Attributes:".toList, .many .lazy 0 none anyChar, fieldText name blankLine]

def findText? (patterns : List Pattern) (doc : List Char) : Option (List Char) :=
  (patterns.findSome? fun p => (p.search doc).bind (·.group? 1)).map fun found =>
    [' '].intercalate (Text.words found)

end Documentation

open Api

def notes? : Entity → Option (OrderedMap TypeNote)
  | .cls info _ =>
    some <|
      match info.style with
      | .plain => info.annotations
      | _ => info.fields.filterMap fun f => f.type?.map fun t => (f.name, t)
  | _ => none

def isKeyed : Entity → Bool
  | .cls info _ => info.style = .keyed
  | _ => false

def isRecord : Entity → Bool
  | .cls info _ => info.style = .record
  | _ => false

def constant? (layers : List (Layer Entity)) (name : String) : Option Literal :=
  match member? name layers with
  | some (.value v) => some v
  | _ => none

def partsOf? : Literal → Option (List Literal)
  | .str s => some (s.toList.map fun c => .str (String.singleton c))
  | .list xs => some xs
  | .tuple xs => some xs
  | .dict es => some (es.map Prod.fst)
  | _ => none

def tupleFields? : Entity → Except Fault (Option (List Literal))
  | .cls info layers =>
    if info.style = .tuple then .ok (some (info.fields.map fun f => .str f.name))
    else if !isReadable "_fields" layers then .ok none
    else
      match (constant? layers "_fields").bind partsOf? with
      | some fields => .ok (some fields)
      | none => .error (.wrongKind "object is not iterable")
  | _ => .ok none

def tupleDefaults? : Entity → Option Literal
  | .cls info layers =>
    if info.style = .tuple then
      some (.ofFields (info.fields.filterMap fun f => f.default?.map fun d => (f.name, d)))
    else if isReadable "_field_defaults" layers then constant? layers "_field_defaults"
    else some (.dict [])
  | _ => some (.dict [])

def isTuple : Entity → Bool
  | .cls info layers =>
    info.style = .tuple || (isReadable "_fields" layers && isReadable "_field_defaults" layers)
  | _ => false

def isOrdinary (e : Entity) : Bool := !isKeyed e && !isRecord e && !isTuple e

def heading (name : String) : String := "### \x60" ++ name ++ "\x60\n\n"

def typeLine (t : TypeNote) : String := "**Type:** \x60" ++ t.display ++ "\x60\n\n"

def defaultLine (v : Literal) : String := "**Default:** \x60" ++ v.codeText ++ "\x60\n\n"

def fieldNote (doc? : Option String) (patterns : List Char → List Pattern) (name : String) :
    String :=
  match doc?.bind fun d => findText? (patterns name.toList) d.toList with
  | some cs => if cs.isEmpty then "" else String.ofList (Mdx.escapeShort cs) ++ "\n\n"
  | none => ""

def toBlankLine (name : List Char) : List Pattern := [fieldText name blankLine]

def toLineEnd (name : List Char) : List Pattern := [fieldText name Pattern.lineEnd]

def listedOrDirect (name : List Char) : List Pattern :=
  [listedText name, fieldText name blankLine]

def keysWith (b : Bool) : Entity → List String
  | .cls info _ =>
    if info.style = .keyed then (info.fields.filter fun f => f.required? = some b).map Field.name
    else []
  | _ => []

/-- The fields of a keyed class, in the order of their names. With no key declared either way all
are required. -/
def keyedSection (e : Entity) : String :=
  match notes? e with
  | none => ""
  | some notes =>
    let optional := keysWith false e
    let required := keysWith true e
    let required := if required.isEmpty && optional.isEmpty then notes.keys else required
    let field (name : String) : String :=
      heading name ++ typeLine ((notes.get? name).getD .none) ++
        (if optional.contains name then "**Optional:** This field is optional\n\n"
         else if required.contains name then "**Required:** This field is required\n\n"
         else "") ++
        fieldNote e.doc? toLineEnd name
    "## Attributes\n\n" ++ String.join ((sortedNames notes.keys).map field)

def recordField (doc? : Option String) (f : Field) : String :=
  let supplied : String :=
    match f.default?, f.hasFactory with
    | some d, _ => defaultLine d
    | none, true => "**Default:** Factory function\n\n"
    | none, false => ""
  let metadata : String :=
    if f.metadata.isEmpty then ""
    else "**Metadata:** " ++ (Literal.ofFields f.metadata).codeText ++ "\n\n"
  let required : String :=
    if f.default?.isNone && !f.hasFactory then
      "**Required:** This field must be provided at initialization\n\n"
    else ""
  heading f.name ++ typeLine (f.type?.getD .none) ++ supplied ++ metadata ++ required ++
    fieldNote doc? toBlankLine f.name

def recordSection (e : Entity) : Except Fault String :=
  match e with
  | .cls info _ =>
    if info.style ≠ .record then .error (.wrongKind "must be called with a record class")
    else if info.fields.isEmpty then .ok ""
    else .ok ("## Attributes\n\n" ++ String.join (info.fields.map (recordField e.doc?)))
  | _ => .error (.wrongKind "must be called with a record class")

mutual

def isKey : Literal → Bool
  | .list _ => false
  | .dict _ => false
  | .tuple xs => areKeys xs
  | _ => true

def areKeys : List Literal → Bool
  | [] => true
  | x :: xs => isKey x && areKeys xs

end

def noLookUp : Except Fault α := .error (.wrongKind "no place for this kind of value")

def itemAt (items : List Literal) (i : Int) : Except Fault (Option Literal) :=
  let n := if i < 0 then i + items.length else i
  match if n < 0 then none else items[n.toNat]? with
  | some v => .ok (some v)
  | none => .error .noIndex

def defaultFor (defaults? : Option Literal) (f : Literal) : Except Fault (Option Literal) :=
  match defaults?, f with
  | some (.dict es), f => if isKey f then .ok (Literal.entry? f es) else noLookUp
  | some (.str s), .str k => if Text.contains k.toList s.toList then noLookUp else .ok none
  | some (.list xs), f | some (.tuple xs), f =>
    if !(xs.map Literal.codeText).contains f.codeText then .ok none
    else
      match f with
      | .int i => itemAt xs i
      | .bool b => itemAt xs (if b then 1 else 0)
      | _ => noLookUp
  | _, _ => noLookUp

def noteFor (notes : OrderedMap TypeNote) (f : Literal) : Except Fault (Option TypeNote) :=
  match f with
  | .str k => .ok (notes.get? k)
  | f => if isKey f then .ok none else noLookUp

def tupleNote (doc? : Option String) (f : Literal) : Except Fault String :=
  match f with
  | .str k => .ok (fieldNote doc? toBlankLine k)
  | _ => if (doc?.getD "").isEmpty then .ok "" else noLookUp

def tupleField (e : Entity) (f : Literal) : Except Fault String := do
  let typed ← noteFor ((notes? e).getD []) f
  let supplied ← defaultFor (tupleDefaults? e) f
  let note ← tupleNote e.doc? f
  return heading f.shown ++ (typed.map typeLine).getD "" ++ (supplied.map defaultLine).getD "" ++
    "**Immutable:** This field cannot be modified after creation\n\n" ++ note

def tupleSection (e : Entity) (name : String) : Except Fault String := do
  match ← tupleFields? e with
  | none => return ""
  | some fields =>
    return "## Attributes\n\n" ++ String.join (← fields.mapM (tupleField e)) ++
      "## Usage\n\n\x60" ++ name ++ "\x60 is a NamedTuple and supports:\n\n" ++
      "- Accessing fields by name: \x60instance.field_name\x60\n" ++
      "- Accessing fields by index: \x60instance[0]\x60\n" ++
      "- Unpacking: \x60field1, field2 = instance\x60\n" ++
      "- Iteration: \x60for value in instance\x60\n\n"

/-- The texts by which the constants of a class show themselves. A tuple class has one that reads
each field; a record class has the defaults. -/
def classConstants (info : ClassInfo) (layers : List (Layer Entity)) : OrderedMap String :=
  let own : OrderedMap String := (memberNames layers).filterMap fun n =>
    if n.startsWith "_" then none else (constant? layers n).map fun v => (n, v.codeText)
  let declared : List (String × String) :=
    match info.style with
    | .tuple => (List.range info.fields.length).zip info.fields |>.map fun (i, f) =>
        (f.name,
          "_tuplegetter(" ++ toString i ++ ", 'Alias for field number " ++ toString i ++ "')")
    | .record => info.fields.filterMap fun f => f.default?.map fun d => (f.name, d.codeText)
    | _ => []
  let all := own ++ declared.filter fun (n, _) => !n.startsWith "_" && !OrderedMap.has n own
  all.mergeSort fun a b => a.1 ≤ b.1

def constantSection (e : Entity) : String :=
  match e with
  | .cls info layers =>
    let constants := classConstants info layers
    let notes := (notes? e).getD []
    let entry (c : String × String) : String :=
      heading c.1 ++
        (match notes.get? c.1 with
         | some t => typeLine t
         | none => "") ++
        "**Value:** \x60" ++ c.2 ++ "\x60\n\n" ++ fieldNote e.doc? listedOrDirect c.1
    if constants.isEmpty then ""
    else "## Class Attributes\n\n" ++ String.join (constants.map entry)
  | _ => ""

end DocSite.Section
