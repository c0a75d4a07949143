import DocSite.Text.Basic
import DocSite.Text.Printable

namespace DocSite

/-- Constant values that stand in signatures and classes. A number with a point keeps the text it
is shown by; a mark has nothing but such a text. -/
inductive Literal
  | none
  | bool (b : Bool)
  | int (n : Int)
  | float (text : String)
  | str (s : String)
  | list (items : List Literal)
  | tuple (items : List Literal)
  | dict (entries : List (Literal × Literal))
  | mark (text : String)
  deriving Repr

namespace Literal

instance : Inhabited Literal := ⟨.none⟩

def escapeChar (quote c : Char) : List Char :=
  let n := c.toNat
  if c = quote || c = '\\' then ['\\', c]
  else if c = '\n' then ['\\', 'n']
  else if c = '\r' then ['\\', 'r']
  else if c = '\t' then ['\\', 't']
  else if Text.isPrintable c then [c]
  else if n < 0x100 then '\\' :: 'x' :: Text.hex 2 n
  else if n < 0x10000 then '\\' :: 'u' :: Text.hex 4 n
  else
    match Text.half? c with
    | some u => '\\' :: 'u' :: Text.hex 4 u
    | Option.none => '\\' :: 'U' :: Text.hex 8 n

/-- Single quotes, unless the text holds one of them and no double quote. -/
def quoteFor (cs : List Char) : Char :=
  if cs.contains '\x27' && !cs.contains '\x22' then '\x22' else '\x27'

def quoted (cs : List Char) : List Char :=
  let q := quoteFor cs
  q :: cs.flatMap (escapeChar q) ++ [q]

def quotedText (s : String) : String := String.ofList (quoted s.toList)

mutual

def code : Literal → List Char
  | .none => "None".toList
  | .bool b => if b then "True".toList else "False".toList
  | .int n => (toString n).toList
  | .float text => text.toList
  | .str s => quoted s.toList
  | .list items => '[' :: codeItems items ++ [']']
  | .tuple [x] => '(' :: code x ++ [',', ')']
  | .tuple items => '(' :: codeItems items ++ [')']
  | .dict entries => '\x7b' :: codeEntries entries ++ ['\x7d']
  | .mark text => text.toList

def codeItems : List Literal → List Char
  | [] => []
  | [x] => code x
  | x :: xs => code x ++ ',' :: ' ' :: codeItems xs

def codeEntries : List (Literal × Literal) → List Char
  | [] => []
  | [(k, v)] => code k ++ ':' :: ' ' :: code v
  | (k, v) :: es => code k ++ ':' :: ' ' :: code v ++ ',' :: ' ' :: codeEntries es

end

def codeText (v : Literal) : String := String.ofList v.code

def ofFields (fields : List (String × Literal)) : Literal :=
  .dict (fields.map fun (k, v) => (.str k, v))

/-- What a dictionary has under a key. Keys are the same if they are written alike. -/
def entry? (key : Literal) (entries : List (Literal × Literal)) : Option Literal :=
  (entries.find? fun e => e.1.codeText = key.codeText).map Prod.snd

def shown : Literal → String
  | .str s => s
  | v => v.codeText

def kind : Literal → String
  | .none => "NoneType"
  | .bool _ => "bool"
  | .int _ => "int"
  | .float _ => "float"
  | .str _ => "str"
  | .list _ => "list"
  | .tuple _ => "tuple"
  | .dict _ => "dict"
  | .mark text => text

end Literal

end DocSite
