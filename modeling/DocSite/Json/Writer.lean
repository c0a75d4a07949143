import DocSite.Json.Basic
import DocSite.Text.Basic

namespace DocSite.Json

def escapeUnit (n : Nat) : List Char := '\\' :: 'u' :: Text.hex 4 n

/-- A character inside a string: quotes, backslashes and controls escaped, and all above ASCII as
one or two sixteen-bit units. -/
def escapeChar (c : Char) : List Char :=
  let n := c.toNat
  if c = '\x22' then ['\\', '\x22']
  else if c = '\\' then ['\\', '\\']
  else if c = '\n' then ['\\', 'n']
  else if c = '\r' then ['\\', 'r']
  else if c = '\t' then ['\\', 't']
  else if n = 8 then ['\\', 'b']
  else if n = 12 then ['\\', 'f']
  else if 32 ≤ n && n ≤ 126 then [c]
  else if n < 0x10000 then escapeUnit n
  else
    match Text.half? c with
    | some u => escapeUnit u
    | none =>
      escapeUnit (0xd800 + (n - 0x10000) / 0x400) ++ escapeUnit (0xdc00 + (n - 0x10000) % 0x400)

def quote (s : String) : String :=
  String.ofList ('\x22' :: s.toList.flatMap escapeChar ++ ['\x22'])

def floatText : Double → String
  | .infinite negative => if negative then "-Infinity" else "Infinity"
  | .undefined => "NaN"
  | x => x.text

def scalarText : Json → String
  | .null => "null"
  | .bool b => if b then "true" else "false"
  | .int n => toString n
  | .float x => floatText x
  | .str s => quote s
  | .arr _ => "[]"
  | .obj _ => "\x7b\x7d"

def newline (depth : Nat) : String := String.ofList ('\n' :: List.replicate (2 * depth) ' ')

mutual

def pretty (depth : Nat) : Json → String
  | .arr (x :: xs) =>
    "[" ++ newline (depth + 1) ++ pretty (depth + 1) x ++ prettyItems (depth + 1) xs ++
      newline depth ++ "]"
  | .obj ((k, v) :: fs) =>
    "\x7b" ++ newline (depth + 1) ++ quote k ++ ": " ++ pretty (depth + 1) v ++
      prettyFields (depth + 1) fs ++ newline depth ++ "\x7d"
  | v => scalarText v

def prettyItems (depth : Nat) : List Json → String
  | [] => ""
  | x :: xs => "," ++ newline depth ++ pretty depth x ++ prettyItems depth xs

def prettyFields (depth : Nat) : List (String × Json) → String
  | [] => ""
  | (k, v) :: fs =>
    "," ++ newline depth ++ quote k ++ ": " ++ pretty depth v ++ prettyFields depth fs

end

mutual

def compact : Json → String
  | .arr (x :: xs) => "[" ++ compact x ++ compactItems xs ++ "]"
  | .obj ((k, v) :: fs) => "\x7b" ++ quote k ++ ": " ++ compact v ++ compactFields fs ++ "\x7d"
  | v => scalarText v

def compactItems : List Json → String
  | [] => ""
  | x :: xs => ", " ++ compact x ++ compactItems xs

def compactFields : List (String × Json) → String
  | [] => ""
  | (k, v) :: fs => ", " ++ quote k ++ ": " ++ compact v ++ compactFields fs

end

def fileText (v : Json) : String := pretty 0 v

end DocSite.Json
