import DocSite.Mdx.Braces
import DocSite.Mdx.Element
import DocSite.Text.Lines

namespace DocSite.Mdx

open Text

def fenceMark : List Char := ['\x60', '\x60', '\x60']

def writeBracketed (inner : List Char) : List Char :=
  if isAddress (webSchemes ++ fileSchemes ++ mailSchemes) inner then linkTo inner
  else inlineCode inner

/-- A line that is not indented code, from the state of the scan and with `skip` characters still
to pass over. Gives the line as written and whether a fence is open after it. -/
def angleLineFrom (s : CodeState) : Nat → List Char → List Char × Bool
  | _, [] => ([], s.fence)
  | skip + 1, _ :: cs => angleLineFrom s skip cs
  | 0, c :: cs =>
    if startsWith fenceMark (c :: cs) then
      let (out, fence) := angleLineFrom { s with fence := !s.fence } 2 cs
      (fenceMark ++ out, fence)
    else if !s.fence && c = '\x60' then
      let (out, fence) := angleLineFrom { s with inline := !s.inline } 0 cs
      (c :: out, fence)
    else
      match (if s.isProse then bracketed? (c :: cs) else none) with
      | some inner =>
        let (out, fence) := angleLineFrom s (inner.length + 1) cs
        (writeBracketed inner ++ out, fence)
      | none =>
        let (out, fence) := angleLineFrom s 0 cs
        (c :: out, fence)

def isIndented (line : List Char) : Bool := startsWith "    ".toList line

def escapeAngles (line : List Char) : List Char :=
  line.flatMap fun c => if c = '<' || c = '>' then ['\\', c] else [c]

def angleLine (fence : Bool) (line : List Char) : List Char × Bool :=
  if isIndented line && !fence then (escapeAngles line, fence)
  else angleLineFrom ⟨fence, false⟩ 0 line

def angleLines (fence : Bool) : List (List Char) → List (List Char)
  | [] => []
  | line :: rest =>
    let (out, fence) := angleLine fence line
    out :: angleLines fence rest

/-- Takes angle brackets out of prose, line by line: fences go on across lines, inline code ends
with its line, and lines indented by four spaces outside fences count as code. -/
def escapeTags (cs : List Char) : List Char := unlines (angleLines false (lines cs))

end DocSite.Mdx
