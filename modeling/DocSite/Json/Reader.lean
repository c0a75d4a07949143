import DocSite.Fault
import DocSite.Json.Basic

namespace DocSite.Json

inductive Complaint
  /-- It is not of the form, with the number of characters that were left. -/
  | malformed (reason : String) (left : Nat)
  | longNumber (digits : Nat)
  /-- Something of the given kind lies too deep inside. -/
  | deep (kind : String)

def isSpace (c : Char) : Bool := c = ' ' || c = '\t' || c = '\n' || c = '\r'

def skipSpace (cs : List Char) : List Char := cs.dropWhile isSpace

def complain {α : Type} (reason : String) (cs : List Char) : Except Complaint α :=
  .error (.malformed reason cs.length)

def hexValue? (c : Char) : Option Nat :=
  let n := c.toNat
  if 48 ≤ n && n ≤ 57 then some (n - 48)
  else if 65 ≤ n && n ≤ 70 then some (n - 55)
  else if 97 ≤ n && n ≤ 102 then some (n - 87)
  else none

def simpleEscape? (c : Char) : Option Nat :=
  match c with
  | '\x22' => some 34
  | '\\' => some 92
  | '/' => some 47
  | 'b' => some 8
  | 'f' => some 12
  | 'n' => some 10
  | 'r' => some 13
  | 't' => some 9
  | _ => none

/-- The code points and sixteen-bit units of a string up to its closing quote. `opened` is what
was left at the opening quote. -/
def readUnits (opened : Nat) : List Char → Except Complaint (List Nat × List Char)
  | [] => .error (.malformed "Unterminated string starting at" opened)
  | '\x22' :: cs => .ok ([], cs)
  | '\\' :: 'u' :: a :: b :: c :: d :: cs =>
    match hexValue? a, hexValue? b, hexValue? c, hexValue? d with
    | some w, some x, some y, some z =>
      if cs.isEmpty then .error (.malformed "Invalid \\uXXXX escape" 5)
      else (readUnits opened cs).map fun (us, rest) =>
        ((4096 * w + 256 * x + 16 * y + z) :: us, rest)
    | _, _, _, _ => .error (.malformed "Invalid \\uXXXX escape" (cs.length + 5))
  | '\\' :: 'u' :: cs => .error (.malformed "Invalid \\uXXXX escape" (cs.length + 1))
  | '\\' :: c :: cs =>
    match simpleEscape? c with
    | some n => (readUnits opened cs).map fun (us, rest) => (n :: us, rest)
    | none => .error (.malformed "Invalid \\escape" (cs.length + 2))
  | ['\\'] => .error (.malformed "Unterminated string starting at" opened)
  | c :: cs =>
    if c.toNat < 32 then .error (.malformed "Invalid control character at" (cs.length + 1))
    else (readUnits opened cs).map fun (us, rest) => ((Text.half? c).getD c.toNat :: us, rest)

def unitChar (u : Nat) : Char := if Text.isHalf u then Text.heldHalf u else Char.ofNat u

def joinUnits : List Nat → List Char
  | [] => []
  | hi :: lo :: us =>
    match Text.joined? hi lo with
    | some c => c :: joinUnits us
    | none => unitChar hi :: joinUnits (lo :: us)
  | [u] => [unitChar u]

def readString (cs : List Char) : Except Complaint (String × List Char) :=
  (readUnits (cs.length + 1) cs).map fun (us, rest) => (String.ofList (joinUnits us), rest)

def isAsciiDigit (c : Char) : Bool := c.isDigit

def natOf (ds : List Char) : Nat := Text.ofDigits (ds.map fun d => d.toNat - 48)

def readFraction (cs : List Char) : List Char × List Char :=
  match cs with
  | '.' :: rest =>
    let ds := rest.takeWhile isAsciiDigit
    if ds.isEmpty then ([], cs) else (ds, rest.dropWhile isAsciiDigit)
  | _ => ([], cs)

def readPower (cs : List Char) : Option Int × List Char :=
  match cs with
  | c :: rest =>
    if c = 'e' || c = 'E' then
      let (negative, body) :=
        match rest with
        | '-' :: body => (true, body)
        | '+' :: body => (false, body)
        | body => (false, body)
      let ds := body.takeWhile isAsciiDigit
      if ds.isEmpty then (none, cs)
      else
        (some (if negative then -(natOf ds : Int) else natOf ds), body.dropWhile isAsciiDigit)
    else (none, cs)
  | [] => (none, cs)

def readWhole (cs : List Char) : Option (List Char × List Char) :=
  match cs with
  | '0' :: rest => some (['0'], rest)
  | c :: _ =>
    if isAsciiDigit c then some (cs.takeWhile isAsciiDigit, cs.dropWhile isAsciiDigit) else none
  | [] => none

def digitLimit : Nat := 4300

def readNumber (negative : Bool) (cs : List Char) : Except Complaint (Option (Json × List Char)) :=
  match readWhole cs with
  | none => .ok none
  | some (whole, rest) =>
    let (fraction, rest) := readFraction rest
    let (power, rest) := readPower rest
    if fraction.isEmpty && power.isNone then
      if digitLimit < whole.length then .error (.longNumber whole.length)
      else .ok (some (.int (if negative then -(natOf whole : Int) else natOf whole), rest))
    else
      let scale : Int := power.getD 0 - fraction.length
      .ok (some (.float (Double.ofDecimal negative (natOf (whole ++ fraction)) scale), rest))

def readKeyword (cs : List Char) : Except Complaint (Option (Json × List Char)) :=
  match cs with
  | 'n' :: 'u' :: 'l' :: 'l' :: rest => .ok (some (.null, rest))
  | 't' :: 'r' :: 'u' :: 'e' :: rest => .ok (some (.bool true, rest))
  | 'f' :: 'a' :: 'l' :: 's' :: 'e' :: rest => .ok (some (.bool false, rest))
  | 'N' :: 'a' :: 'N' :: rest => .ok (some (.float .undefined, rest))
  | 'I' :: 'n' :: 'f' :: 'i' :: 'n' :: 'i' :: 't' :: 'y' :: rest =>
    .ok (some (.float (.infinite false), rest))
  | '-' :: 'I' :: 'n' :: 'f' :: 'i' :: 'n' :: 'i' :: 't' :: 'y' :: rest =>
    .ok (some (.float (.infinite true), rest))
  | '-' :: rest => readNumber true rest
  | _ => readNumber false cs

/-- How deep a value may lie inside of others. This is what the limit on nested calls of version
3.11 of the interpreter leaves to a reader that is called from a program's top. -/
def depthLimit : Nat := 988

mutual

/-- A value at the front of a text, inside of `depth` others. Each step into the text takes one
unit of fuel. -/
def readValue : Nat → Nat → List Char → Except Complaint (Json × List Char)
  | 0, _, cs => complain "Expecting value" cs
  | fuel + 1, depth, cs =>
    match cs with
    | '\x22' :: rest => (readString rest).map fun (s, rest) => (.str s, rest)
    | '[' :: rest =>
      if depthLimit ≤ depth then .error (.deep "array")
      else
        match skipSpace rest with
        | ']' :: rest => .ok (.arr [], rest)
        | rest => (readItems fuel (depth + 1) rest).map fun (xs, rest) => (.arr xs, rest)
    | '\x7b' :: rest =>
      if depthLimit ≤ depth then .error (.deep "object")
      else
        match skipSpace rest with
        | '\x7d' :: rest => .ok (.obj [], rest)
        | rest =>
          (readFields fuel (depth + 1) rest).map fun (fs, rest) =>
            (.obj (OrderedMap.ofEntries fs), rest)
    | _ => do
      match ← readKeyword cs with
      | some found => return found
      | none => complain "Expecting value" cs

def readItems : Nat → Nat → List Char → Except Complaint (List Json × List Char)
  | 0, _, cs => complain "Expecting value" cs
  | fuel + 1, depth, cs => do
    let (x, rest) ← readValue fuel depth cs
    match skipSpace rest with
    | ']' :: rest => return ([x], rest)
    | ',' :: rest =>
      let (xs, rest) ← readItems fuel depth (skipSpace rest)
      return (x :: xs, rest)
    | rest => complain "Expecting ',' delimiter" rest

def readFields : Nat → Nat → List Char → Except Complaint (List (String × Json) × List Char)
  | 0, _, cs => complain "Expecting value" cs
  | fuel + 1, depth, cs =>
    match cs with
    | '\x22' :: rest => do
      let (key, rest) ← readString rest
      match skipSpace rest with
      | ':' :: rest =>
        let (value, rest) ← readValue fuel depth (skipSpace rest)
        match skipSpace rest with
        | '\x7d' :: rest => return ([(key, value)], rest)
        | ',' :: rest =>
          let (fields, rest) ← readFields fuel depth (skipSpace rest)
          return ((key, value) :: fields, rest)
        | rest => complain "Expecting ',' delimiter" rest
      | rest => complain "Expecting ':' delimiter" rest
    | _ => complain "Expecting property name enclosed in double quotes" cs

end

def located (reason : String) (left : Nat) (all : List Char) : String :=
  let offset := all.length - left
  let before := all.take offset
  let line := before.count '\n' + 1
  let column := (before.reverse.takeWhile (· ≠ '\n')).length + 1
  s!"{reason}: line {line} column {column} (char {offset})"

def Complaint.fault (all : List Char) : Complaint → Fault
  | .malformed reason left => .badJson (located reason left all)
  | .longNumber digits =>
    .badValue (s!"Exceeds the limit ({digitLimit} digits) for integer string conversion: " ++
      s!"value has {digits} digits; use sys.set_int_max_str_digits() to increase the limit")
  | .deep kind =>
    .tooDeep ("maximum recursion depth exceeded while decoding a JSON " ++ kind ++
      " from a unicode string")

def parseChars (all : List Char) : Except Fault Json :=
  let body : Except Complaint Json :=
    if all.head? = some '\ufeff' then
      complain "Unexpected UTF-8 BOM (decode using utf-8-sig)" all
    else do
      let (v, rest) ← readValue (2 * all.length + 2) 0 (skipSpace all)
      let rest := skipSpace rest
      if rest.isEmpty then return v else complain "Extra data" rest
  body.mapError (·.fault all)

def parse (text : String) : Except Fault Json := parseChars text.toList

end DocSite.Json
