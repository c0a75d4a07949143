import DocSite.Fault
import DocSite.Signature.Params
import DocSite.Text.Basic
import DocSite.Text.Letter
import DocSite.Text.Search

namespace DocSite.Signature

open Text

/-- A quoted text after a lead: the lead, white space, then something between two quotes of one
kind. It is written without the quotes, one space after the lead. -/
def quotedAfter (lead : List Char) (quote : Char) (ahead : List Char) : Option Hit := do
  let rest ← afterStart? lead ahead
  let blanks := rest.takeWhile isBlank
  let body ← afterStart? [quote] (rest.drop blanks.length)
  let inner := body.takeWhile (· ≠ quote)
  if inner.isEmpty || inner.length = body.length then none
  else some ⟨lead.length + blanks.length + inner.length + 2, lead ++ ' ' :: inner⟩

def dropQuotes (lead : List Char) (quote : Char) (cs : List Char) : List Char :=
  substitute (quotedAfter lead quote) cs

/-- Takes the quotes off annotations: after a colon, then after an arrow, double quotes before
single ones each time. -/
def unquoteTypes (cs : List Char) : List Char :=
  dropQuotes ['-', '>'] '\x27' (dropQuotes ['-', '>'] '\x22'
    (dropQuotes [':'] '\x27' (dropQuotes [':'] '\x22' cs)))

/-- How far from the front the parenthesis stands that closes the last of `depth` open ones. -/
def closing? : Nat → List Char → Option Nat
  | _, [] => none
  | depth, c :: cs =>
    if c = '(' then (closing? (depth + 1) cs).map (· + 1)
    else if c = ')' then
      if depth ≤ 1 then some 0 else (closing? (depth - 1) cs).map (· + 1)
    else (closing? depth cs).map (· + 1)

def matchingParen? (cs : List Char) (start : Nat) : Option Nat :=
  if cs[start]? = some '(' then (closing? 0 (cs.drop start)).map (start + ·) else none

/-- The same with a place that may be counted back from the end. Then the walk goes to the end
and once more through the whole text, and places before the end keep being counted back. -/
def matchingParenAt (cs : List Char) (start : Int) : Except Fault (Option Int) :=
  if 0 ≤ start then .ok ((matchingParen? cs start.toNat).map fun (p : Nat) => (p : Int))
  else if cs.length + start < 0 then .error .noIndex
  else
    let walk := cs.drop (cs.length + start).toNat ++ cs
    .ok (if walk.head? = some '(' then (closing? 0 walk).map fun (p : Nat) => start + p else none)

def maxWidth : Nat := 60

/-- Where the parameter list ends: at the parenthesis closing the first one, else at the last
closing one. -/
def endOfParams (cs : List Char) (opening : Nat) : Except Fault Nat :=
  match matchingParen? cs opening with
  | some p => .ok p
  | none =>
    match cutAtLast? [')'] cs with
    | some (before, _) => .ok before.length
    | none => .error (.badValue "substring not found")

def parenthesize : List (List Char) → List Char
  | [] => ['(', ')']
  | [p] => '(' :: p ++ [')']
  | ps => "(\n    ".toList ++ ",\n    ".toList.intercalate (ps.map strip) ++ "\n)".toList

/-- A signature with each of several parameters on a line of its own. What stands before the first
parenthesis is left out. -/
def breakLines (cs : List Char) : Except Fault (List Char) :=
  match cutAt? ['('] cs with
  | none => .ok cs
  | some (before, _) => do
    let opening := before.length
    let closing ← endOfParams cs opening
    let params := strip ((cs.take closing).drop (opening + 1))
    let after := strip (cs.drop (closing + 1))
    return parenthesize (if params.isEmpty then [] else splitParams params) ++ ' ' :: after

def format (cs : List Char) : Except Fault (List Char) :=
  let plain := unquoteTypes cs
  if plain.length ≤ maxWidth then .ok plain else breakLines plain

/-- Names made of letters, digits, underscores and points, with a letter or digit among them. -/
def isCallableName (cs : List Char) : Bool :=
  isAlphanumericText (cs.filter fun c => c ≠ '_' && c ≠ '.')

def formatNamed (cs : List Char) : Except Fault (List Char) :=
  match cutAt? ['('] cs with
  | some (name, _) =>
    if !name.isEmpty && isCallableName name then do
      let formatted ← format (cs.drop name.length)
      return if startsWith ['('] formatted then name ++ formatted else formatted
    else format cs
  | none => format cs

def formatNamedText (s : String) : Except Fault String :=
  (formatNamed s.toList).map String.ofList

def breakCall (cs : List Char) : List Char :=
  match cutAt? ['('] cs, cutAtLast? [')'] cs with
  | some (name, _), some (before, _) =>
    let arguments := splitArguments ((cs.take before.length).drop (name.length + 1))
    if 1 < arguments.length then
      name ++ "(\n".toList ++ ",\n".toList.intercalate (arguments.map ("    ".toList ++ ·)) ++
        '\n' :: cs.drop before.length
    else cs
  | _, _ => cs

end DocSite.Signature
