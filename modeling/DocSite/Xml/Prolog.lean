import DocSite.Text.Charset
import DocSite.Xml.Declaration

namespace DocSite.Xml

open Text

inductive Encoding
  | utf8
  | latin
  | page (p : CodePage)

def Encoding.ofCharset : Charset → Except Fault Encoding
  | .page p => .ok (.page p)
  | .wide => .error (.badValue "multi-byte encodings are not supported")
  | .foreign => bad
  | .ruled => .error (.noDecoding "no bytes can be read alone")
  | .hosts => .error (.undecodable "ordinal not in range(128)")

def encodingOf (name : List Char) : Except Fault Encoding :=
  if !name.head?.any Char.isAlpha then bad
  else
    match String.ofList (lower name) with
    | "utf-8" => .ok .utf8
    | "us-ascii" => .ok (.page .plain)
    | "iso-8859-1" => .ok .latin
    | "utf-16" | "utf-16be" | "utf-16le" => bad
    | _ =>
      match charset? name with
      | some s => Encoding.ofCharset s
      | none => .error (.unknownEncoding (String.ofList name))

def Encoding.letters : Encoding → Letters
  | .latin => .latin
  | _ => .common

def readPage (p : CodePage) (cs : List Char) : Except Fault (List Char) :=
  match (String.ofList cs).toUTF8.toList.mapM p.char? with
  | some cs => .ok cs
  | none => bad

def Encoding.read : Encoding → List Char → Except Fault (List Char)
  | .utf8, cs => .ok cs
  | .latin, cs => readPage .latin cs
  | .page p, cs => readPage p cs

def readSetting? (name : List Char) (cs : List Char) : Option (List Char × List Char) := do
  if !cs.head?.any isSpace then none
  let rest ← afterStart? name (skipSpace cs)
  let rest ← afterStart? ['='] (skipSpace rest)
  match skipSpace rest with
  | q :: rest =>
    if isQuote q then
      let (value, rest) ← cutAt? [q] rest
      if value.all fun c => c.isAlphanum || c = '.' || c = '-' || c = '_' then some (value, rest)
      else none
    else none
  | [] => none

structure Head where
  encoding : Encoding
  isAlone : Bool

/-- The declaration at the head of a document, after its opening, and what follows it. The
encoding is only looked for when the rest is in order. -/
def readHead (cs : List Char) : Except Fault (Head × List Char) := do
  let rest ← match readSetting? "version".toList cs with
    | some (_, rest) => .ok rest
    | none => bad
  let (name?, rest) := match readSetting? "encoding".toList rest with
    | some (name, rest) => (some name, rest)
    | none => (none, rest)
  let (isAlone, rest) ← match readSetting? "standalone".toList rest with
    | some (value, rest) =>
      if value = "yes".toList then .ok (true, rest)
      else if value = "no".toList then .ok (false, rest)
      else bad
    | none => .ok (false, rest)
  let rest ← expect ['?', '>'] (skipSpace rest)
  let encoding ← match name? with
    | some name => encodingOf name
    | none => .ok .utf8
  return (⟨encoding, isAlone⟩, rest)

def skipMisc (l : Letters) : Nat → List Char → Except Fault (List Char)
  | 0, _ => bad
  | fuel + 1, cs =>
    match skipSpace cs with
    | '<' :: '!' :: '-' :: '-' :: rest => do skipMisc l fuel (← skipComment rest)
    | '<' :: '?' :: rest => do skipMisc l fuel (← skipInstruction l rest)
    | rest => .ok rest

def readDeclaration (l : Letters) (fuel : Nat) (cs : List Char) :
    Except Fault (String × List Mark × Char × List Char) := do
  let word := cs.takeWhile Char.isAlpha
  let rest := cs.drop word.length
  if !rest.head?.any isSpace then bad
  else return (String.ofList word, ← readMarks l fuel rest)

def readSubset (l : Letters) : Nat → DocType → List Char → Except Fault (DocType × List Char)
  | 0, _, _ => bad
  | fuel + 1, d, cs => do
    match skipSpace cs with
    | ']' :: rest => return (d, rest)
    | '<' :: '!' :: '-' :: '-' :: rest => readSubset l fuel d (← skipComment rest)
    | '<' :: '?' :: rest => readSubset l fuel d (← skipInstruction l rest)
    | '%' :: rest =>
      let (_, rest) ← readSimpleName l rest
      readSubset l fuel d.pass (← expect [';'] rest)
    | '<' :: '!' :: rest =>
      let (word, marks, stop, rest) ← readDeclaration l fuel rest
      if stop ≠ '>' then bad else readSubset l fuel (← declare d l word marks) rest
    | _ => bad

def refersElsewhere (marks : List Mark) : Except Fault Bool := do
  match marks with
  | [] => bad
  | [m] => if m.name?.isSome then return false else bad
  | m :: source =>
    if m.name?.isSome && (← readOutside source).isEmpty then return true else bad

def readDocType (l : Letters) (fuel : Nat) (d : DocType) (cs : List Char) :
    Except Fault (DocType × List Char) := do
  let (word, marks, stop, rest) ← readDeclaration l fuel cs
  if word ≠ "DOCTYPE" then bad
  else
    let d := { d with hasMore := ← refersElsewhere marks }
    if stop = '>' then return (d, rest)
    else
      let (d, rest) ← readSubset l fuel d rest
      return (d, ← expect ['>'] (skipSpace rest))

end DocSite.Xml
