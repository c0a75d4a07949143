import DocSite.Mdx.Element
import DocSite.Text.Case
import DocSite.Text.Letter

namespace DocSite.Mdx

open Text

def pageSlug (cs : List Char) : List Char := replaceChar '_' '-' (lower cs)

def startsCapital (cs : List Char) : Bool := cs.head?.any isCapital

/-- The page a dotted path points to: a class by its own name, a member by the name before it. A
single name counts only if it is a class's. -/
def target? (path : List Char) : Option (List Char) :=
  let parts := splitChar '.' path
  if !parts.all isIdentifier then none
  else
    match parts.reverse with
    | [] => none
    | [only] => if startsCapital only then some only else none
    | last :: owner :: _ =>
      if startsCapital last then some last
      else if startsCapital owner then some (owner ++ "#method-".toList ++ last)
      else some (owner ++ "#func-".toList ++ last)

def referenceParts? : List Char → Option (List Char × List Char)
  | '[' :: cs => do
    let text := cs.takeWhile (· ≠ ']')
    let rest ← afterStart? "][".toList (cs.drop text.length)
    let path := rest.takeWhile (· ≠ ']')
    if path.length = rest.length then none else some (text, path)
  | _ => none

/-- A reference by dotted path, written as a link to the page; other pairs of brackets stay. -/
def reference (ahead : List Char) : Option Hit := do
  let (text, path) ← referenceParts? ahead
  let taken := text.length + path.length + 4
  match target? path with
  | some page =>
    some ⟨taken, '[' :: text ++ "](./".toList ++ pageSlug page ++ [')']⟩
  | none => some ⟨taken, ahead.take taken⟩

def roleCode (lead ahead : List Char) : Option Hit := do
  let rest ← afterStart? (lead ++ ['\x60']) ahead
  let inner := rest.takeWhile (· ≠ '\x60')
  if inner.isEmpty || inner.length = rest.length then none
  else some ⟨lead.length + inner.length + 2, inlineCode inner⟩

def dataRole : List Char := ":data:".toList

def objectRoles : List (List Char) :=
  ["func", "class", "meth", "attr", "mod"].flatMap fun r =>
    [":".toList ++ r.toList ++ [':'], ":py:".toList ++ r.toList ++ [':']]

/-- Documentation text made fit for a page: role marks taken off code, addresses in angle brackets
and references by dotted path written as links. -/
def escape (cs : List Char) : List Char :=
  let cs := substitute (roleCode dataRole) cs
  let cs := substitute (fun ahead => objectRoles.findSome? fun r => roleCode r ahead) cs
  let cs := substitute (autolink webSchemes) cs
  let cs := substitute (autolink mailSchemes) cs
  substitute reference cs

def escapeText (s : String) : String := onChars escape s

def escapeBrace (c : Char) : List Char :=
  if c = '\x7b' || c = '\x7d' then ['\\', c] else [c]

/-- A short description made fit for a page: braces escaped, addresses in angle brackets written
as links and whatever else stands in them as code. -/
def escapeShort (cs : List Char) : List Char :=
  substitute codeTag (substitute (autolink webSchemes) (cs.flatMap escapeBrace))

def escapeShortText (s : String) : String := onChars escapeShort s

end DocSite.Mdx
