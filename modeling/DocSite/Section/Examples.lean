import DocSite.Api.Docstring
import DocSite.Doctest
import DocSite.Mdx.Prose

namespace DocSite.Section

open Text Api

def isExamplePart (p : DocPart) : Bool :=
  match p.heading with
  | first :: _ => contains "examples".toList (lower first.toList)
  | [] => false

def exampleBlock (formatter : Formatter) (e : Doctest.Example) : Except Halt (List Char) := do
  let prose := if e.description.isEmpty then [] else e.description ++ ['\n']
  if e.code.isEmpty then return prose ++ ['\n']
  let code ← formatter.run e.code
  return prose ++ "\x60\x60\x60python\n".toList ++ code ++ "\n\x60\x60\x60\n\n".toList

def examplesOfParts (formatter : Formatter) (parts : List DocPart) : Except Halt String := do
  if parts.isEmpty then return ""
  let found := parts.flatMap fun p => Doctest.extract ((p.description?.getD "").toList)
  let blocks ← found.mapM (exampleBlock formatter)
  return "**Examples:**\n\n" ++ String.ofList blocks.flatten

def snippetBlock (e : DocExample) : String :=
  (match present? e.description? with
   | some d => Mdx.escapeText d ++ "\n\n"
   | none => "") ++
  (match present? e.snippet? with
   | some s => "\x60\x60\x60python\n" ++ s ++ "\n\x60\x60\x60\n\n"
   | none => "")

def snippets (examples : List DocExample) : String :=
  if examples.isEmpty then "" else "**Examples:**\n\n" ++ String.join (examples.map snippetBlock)

def sameLetter (small c : Char) : Bool :=
  c.toLower = small || (small = 's' && c = '\u017f')

def afterWord? : List Char → List Char → Option (List Char)
  | [], cs => some cs
  | w :: word, c :: cs => if sameLetter w c then afterWord? word cs else none
  | _ :: _, [] => none

def opensExamples (cs : List Char) : Bool :=
  match afterWord? "example".toList cs with
  | some (':' :: _) => true
  | some (c :: ':' :: _) => sameLetter 's' c
  | _ => false

def headsExamples : List Char → Bool
  | [] => false
  | c :: cs => opensExamples (c :: cs) || headsExamples cs

/-- The examples under a heading of their own in a plain text: none without the heading. Such a
part has no inner part to be taken, so a text with the heading is refused. -/
def examplesUnderHeading (cs : List Char) : Except Fault String :=
  if headsExamples cs then .error .noIndex else .ok ""

end DocSite.Section
