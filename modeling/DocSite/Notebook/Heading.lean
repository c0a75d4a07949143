import DocSite.Text.Case
import DocSite.Text.Lines

namespace DocSite.Notebook

open Text

def headingWords : List (List Char) :=
  ["step", "pattern", "example", "task", "tutorial", "creating", "building", "implementing",
    "using"].map String.toList

def startsNumbered (cs : List Char) : Bool :=
  let number := cs.takeWhile isDigit
  !number.isEmpty && (cs.drop number.length).head? = some '.'

/-- A heading of the second or third level that begins with a telling word or a number. -/
def startsHeading (cs : List Char) : Bool :=
  let marks := cs.takeWhile (· = '#')
  let rest := cs.drop marks.length
  (marks.length = 2 || marks.length = 3) && rest.head?.any isBlank &&
    (startsNumbered (stripLeft rest) ||
      headingWords.any fun w => startsWith w (stripLeft rest))

def hasHeadingFrom (fresh : Bool) : List Char → Bool
  | [] => false
  | c :: cs => (fresh && startsHeading (c :: cs)) || hasHeadingFrom (c = '\n') cs

def opensPattern (cs : List Char) : Bool := hasHeadingFrom true (lower cs)

def isMark (c : Char) : Bool := c = '#'

def heading? (cs : List Char) : Option (List Char) :=
  ((lines cs).find? fun l => l.head?.any isMark).map fun l => strip (stripWhere isMark l)

def headingText (cs : List Char) : List Char :=
  (heading? cs).getD ((lines cs).head?.getD [])

end DocSite.Notebook
