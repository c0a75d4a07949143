import DocSite.Mdx.Element
import DocSite.Section.Examples
import DocSite.Section.Parameters
import DocSite.Signature.Layout

namespace DocSite.Section

open Text Api

def resultOfText? (sig : String) : Option String :=
  (cutAtLast? arrow sig.toList).map fun (_, after) => String.ofList (strip after)

def returnType? (e : Entity) : Option String :=
  let byPrototype :=
    match e.prototype with
    | .ok proto => proto.returns?.map TypeNote.shown
    | .error _ => none
  match e with
  | .udf u =>
    match u.isPolymorphic? with
    | some true => (u.forms?.bind List.head?).bind fun f => resultOfText? f.text
    | _ =>
      match present? u.signature? with
      | some sig => resultOfText? sig
      | none => byPrototype
  | _ => byPrototype

def fence : List Char := ['\x60', '\x60', '\x60']

def isFenceLine (l : List Char) : Bool := startsWith fence (strip l)

/-- The lines after the first one of a list entry, each under a newline: indented to stay in the
entry, a blank one emptied, or left out if a fence follows. -/
def continuationLines : List (List Char) → List Char
  | [] => []
  | l :: ls =>
    if !(strip l).isEmpty then "\n  ".toList ++ l ++ continuationLines ls
    else
      match ls with
      | next :: _ =>
        if isFenceLine next then continuationLines ls else '\n' :: continuationLines ls
      | [] => ['\n']

def hangingText (cs : List Char) : List Char :=
  match lines cs with
  | [] => []
  | first :: others => dropTail (· = '\n') (first ++ continuationLines others)

/-- The description of a result. The type is that of the object, else the documented one. -/
def returns (doc : Docstring) (e? : Option Entity) : String :=
  match doc.returns? with
  | none => ""
  | some r =>
    let type := (present? (e?.bind returnType?)).getD ((present? r.type?).getD "Any")
    let description := (present? r.description?).getD "Return value"
    "**Returns:**\n\n- \x60" ++ plainClassesText type ++ "\x60: " ++
      onChars (fun cs => hangingText (Mdx.escape cs)) description ++ "\n\n"

inductive Role
  | func
  | method
  deriving DecidableEq, Repr

def Role.label : Role → String
  | .func => "func"
  | .method => "method"

def udfMarks : List (List Char) := ["@udf".toList, "@pxt.udf".toList]

def isMarked : List (List Char) → Bool
  | [] => false
  | l :: ls =>
    let s := strip l
    if udfMarks.any fun m => startsWith m s then true
    else if startsWith "def ".toList s then false
    else isMarked ls

def defining? : Entity → Option Func
  | .func f => some f
  | .udf u =>
    match u.isPolymorphic? with
    | some true => u.functions?.bind List.head?
    | _ => u.function?
  | _ => none

def isUdf (e : Entity) : Bool :=
  match (defining? e).bind fun f => f.source.text? with
  | some text => isMarked (lines text.toList)
  | none => false

def innerPrototype (e : Entity) : Except Fault Prototype :=
  match e with
  | .udf u =>
    match u.wrapped?, u.function? with
    | some f, _ => f.prototype
    | none, some f => f.prototype
    | none, none => e.prototype
  | _ => e.prototype

def injectDefaultsOf (e : Entity) (sig : List Char) : List Char :=
  match innerPrototype e with
  | .ok proto => injectDefaults proto sig
  | .error _ => sig

def formLines (name : String) (total index : Nat) (sig : String) : Except Fault String := do
  let shown ← Signature.formatNamedText sig
  return (if 1 < total then "# Signature " ++ toString index ++ ":\n" else "") ++
    name ++ shown ++ "\n" ++ (if index < total then "\n" else "")

def formsText (name : String) (total : Nat) : Nat → List String → Except Fault String
  | _, [] => .ok ""
  | index, sig :: sigs => do
    let here ← formLines name total index sig
    let more ← formsText name total (index + 1) sigs
    return here ++ more

def forms? : Entity → Option (List Form)
  | .udf u => u.forms?
  | _ => none

def signatureLines (role : Role) (e : Entity) (name : String) : Except Fault String :=
  match forms? e with
  | some [form] =>
    formsText name 1 1 [String.ofList (injectDefaultsOf e form.text.toList)]
  | some forms => formsText name forms.length 1 (forms.map Form.text)
  | none => do
    let proto ← e.prototype
    let proto := if role = .method then proto.withoutReceiver else proto
    let shown ← Signature.formatNamed proto.code
    return name ++ String.ofList shown ++ "\n"

def signature (role : Role) (e : Entity) (name : String) : Except Fault String := do
  let shown ← signatureLines role e name
  return "\x60\x60\x60python\n" ++ shown ++ "\x60\x60\x60\n\n"

def description (doc : Docstring) : String :=
  match present? doc.description? with
  | some d => Mdx.escapeText d ++ "\n\n"
  | none => ""

/-- The section of a function. Whether it is a column function is looked up in its text unless it
is given. -/
def function (aids : Aids) (role : Role) (e : Entity) (name : String) (udf? : Option Bool) :
    Except Halt String := do
  let label := if udf?.getD (isUdf e) then "udf" else role.label
  let shown ← (signature role e name).mapError .failed
  let head := "\n## " ++ Mdx.label label ++ " " ++ name ++ "()\n\n" ++ shown
  match e.doc? with
  | none => return head
  | some text =>
    let doc := aids.parse text
    let examples ← examplesOfParts aids.formatter (doc.parts.filter isExamplePart)
    return head ++ description doc ++ parameters e doc ++ returns doc (some e) ++ examples

end DocSite.Section
