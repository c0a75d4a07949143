import DocSite.Text.Basic
import DocSite.Text.Search

namespace DocSite.Text

def lines (cs : List Char) : List (List Char) := splitChar '\n' cs

def unlines (ls : List (List Char)) : List Char := ['\n'].intercalate ls

def plainNewlines : List Char → List Char
  | [] => []
  | '\r' :: '\n' :: cs => '\n' :: plainNewlines cs
  | c :: cs => (if c = '\r' then '\n' else c) :: plainNewlines cs

def isLineEnd (c : Char) : Bool :=
  let n := c.toNat
  (10 ≤ n && n ≤ 13) || (28 ≤ n && n ≤ 30) || n == 0x85 || n == 0x2028 || n == 0x2029

def fullLinesFrom (line : List Char) : List Char → List (List Char)
  | [] => if line.isEmpty then [] else [line]
  | '\r' :: '\n' :: cs => (line ++ ['\r', '\n']) :: fullLinesFrom [] cs
  | c :: cs =>
    if isLineEnd c then (line ++ [c]) :: fullLinesFrom [] cs
    else fullLinesFrom (line ++ [c]) cs

def fullLines (cs : List Char) : List (List Char) := fullLinesFrom [] cs

def indent (margin cs : List Char) : List Char :=
  (fullLines cs).flatMap fun l => if isBlankLine l then l else margin ++ l

/-- Tabs widened to the next multiple of eight columns; a line end starts again at the first. -/
def expandTabsFrom (column : Nat) : List Char → List Char
  | [] => []
  | c :: cs =>
    if c = '\t' then
      List.replicate (8 - column % 8) ' ' ++ expandTabsFrom (column + (8 - column % 8)) cs
    else if c = '\n' || c = '\r' then c :: expandTabsFrom 0 cs
    else c :: expandTabsFrom (column + 1) cs

def expandTabs (cs : List Char) : List Char := expandTabsFrom 0 cs

def margin? (l : List Char) : Option Nat :=
  if isBlankLine l then none else some (l.takeWhile isBlank).length

def commonMargin? (ls : List (List Char)) : Option Nat := (ls.filterMap margin?).min?

def dropBlankEnds (ls : List (List Char)) : List (List Char) :=
  ((ls.reverse.dropWhile List.isEmpty).reverse).dropWhile List.isEmpty

/-- Documentation text laid flush left: tabs widened, the first line stripped on the left, the
common margin of the other lines taken off, empty lines dropped at both ends. -/
def flushLeft (cs : List Char) : List Char :=
  match lines (expandTabs cs) with
  | [] => []
  | first :: others =>
    let width := (commonMargin? others).getD 0
    unlines (dropBlankEnds (stripLeft first :: others.map (·.drop width)))

def isIndent (c : Char) : Bool := c = ' ' || c = '\t'

def commonStart : List Char → List Char → List Char
  | a :: as, b :: bs => if a = b then a :: commonStart as bs else []
  | _, _ => []

def commonIndent (ls : List (List Char)) : List Char :=
  match (ls.filter fun l => !l.isEmpty).map (·.takeWhile isIndent) with
  | [] => []
  | first :: others => others.foldl commonStart first

/-- Takes off the spaces and tabs that all lines begin with. Lines of nothing else become empty. -/
def dedent (cs : List Char) : List Char :=
  let ls := (lines cs).map fun l => if l.all isIndent then [] else l
  let width := (commonIndent ls).length
  unlines (ls.map (·.drop width))

end DocSite.Text
