import DocSite.Mdx.Element
import DocSite.Notebook.Guard
import DocSite.Path
import DocSite.Pattern.Reader
import DocSite.Text.Lines

namespace DocSite.Notebook

open Text

def frontmatter? (cs : List Char) : Option (List Char × List Char) := do
  cutAt? "\n---\n".toList (← afterStart? "---\n".toList cs)

/-- The title that is written after its mark: the rest of the first line that is not blank. If
there is none, blanks other than line ends make an empty title. -/
def titleAfter? (cs : List Char) : Option (List Char) :=
  let line := (stripLeft cs).takeWhile (· ≠ '\n')
  if !line.isEmpty then some (stripWhere (· = '\x22') (strip line))
  else if cs.any (· ≠ '\n') then some []
  else none

def titleFrom? (fresh : Bool) : List Char → Option (List Char)
  | [] => none
  | c :: cs =>
    let title? := if fresh then (afterStart? "title:".toList (c :: cs)).bind titleAfter? else none
    title?.or (titleFrom? (c = '\n') cs)

def title? (cs : List Char) : Option (List Char) := titleFrom? true cs

/-- The links to the figures of a page. The name of the page is read as a pattern. -/
def figureLink (stem : String) : Except Fault Pattern.Written :=
  Pattern.read ("\\((".toList ++ stem.toList ++ "_files/figure-markdown_strict/[^)]*)\\)".toList)

/-- Makes the links to the figures of a page start at its own directory. A pattern without a group
leaves nothing to link to. -/
def showFigures (stem : String) (cs : List Char) : Except Fault (List Char) := do
  let link ← figureLink stem
  if link.groups = 0 then .error (.badPattern "invalid group reference 1 at position 4")
  else
    return link.pattern.substitute (fun s => "(./".toList ++ (s.group? 1).getD [] ++ [')']) cs

def outputChar (c : Char) : List Char :=
  match c with
  | '&' => "&amp;".toList
  | '<' => "&lt;".toList
  | '>' => "&gt;".toList
  | '\x22' => "&quot;".toList
  | '\x27' => "&#x27;".toList
  | ' ' => "&nbsp;".toList
  | c => if ['\x60', '\x7b', '\x7d', '[', ']'].contains c then ['\\', c] else [c]

def outputText (cs : List Char) : List Char := cs.flatMap outputChar

def outputOpening : List Char :=
  "<pre style=\x7b\x7b 'margin': '-20px 20px 0px 20px', 'padding': '0px', 'background-color': 'transparent', 'color': 'black' \x7d\x7d>".toList

def fence : List Char := List.replicate 3 '\x60'

def outputBlock? (cs : List Char) : Option Hit := do
  let (content, rest) ← cutAt? fence (← afterStart? (fence ++ " text".toList) cs)
  return ⟨cs.length - rest.length, outputOpening ++ outputText content ++ "</pre>".toList⟩

def showOutput (cs : List Char) : List Char := substitute outputBlock? cs

def outputSeam? (cs : List Char) : Option Hit := do
  let rest ← afterStart? "</pre>\n\n<pre".toList cs
  let rest ← afterStart? ">\n".toList (rest.dropWhile (· ≠ '>'))
  return ⟨cs.length - rest.length, []⟩

def joinOutput (cs : List Char) : List Char := substitute outputSeam? cs

def ownLink? (cs : List Char) : Option Hit := do
  let rest ← (afterStart? "(http://docs.pixeltable.com/".toList cs).or
    (afterStart? "(https://docs.pixeltable.com/".toList cs)
  let (target, rest) ← cutAt? [')'] rest
  return ⟨cs.length - rest.length, "(/".toList ++ target ++ [')']⟩

def showOwnLinks (cs : List Char) : List Char := substitute ownLink? cs

def middleCell : List Char := "<td style=\"vertical-align: middle;\">".toList

def alignCells (cs : List Char) : List Char :=
  replace "<td data-quarto-table-cell-role=\"th\">".toList middleCell
    (replace "<td>".toList middleCell cs)

def indentMarkup (cs : List Char) : List Char :=
  replace "dangerouslySetInnerHTML".toList
    "style=\x7b\x7b 'margin': '0px 20px 0px 20px' \x7d\x7d dangerouslySetInnerHTML".toList cs

def publishedBody (stem : String) (cs : List Char) : Except Fault (List Char) := do
  let cs ← showFigures stem cs
  return indentMarkup
    (alignCells (showOwnLinks (unguardTags (showAlerts (joinOutput (showOutput cs))))))

def launchLinks (notebook : String) : List String :=
  let blob := "pixeltable/pixeltable/blob/release/" ++ notebook
  [Mdx.imageLink "openKaggle" ("https://kaggle.com/kernels/welcome?src=https://github.com/" ++ blob)
      "https://kaggle.com/static/images/open-in-kaggle.svg" "Open in Kaggle",
    Mdx.imageLink "openColab" ("https://colab.research.google.com/github/" ++ blob)
      "https://colab.research.google.com/assets/colab-badge.svg" "Open in Colab",
    Mdx.imageLink "downloadNotebook"
      ("https://raw.githubusercontent.com/pixeltable/pixeltable/refs/tags/release/" ++ notebook)
      "https://img.shields.io/badge/%E2%AC%87-Download%20Notebook-blue" "Download Notebook"]

def headLines (title notebook : String) : List String :=
  ["---", "title: \"" ++ title ++ "\"", "icon: \"notebook\"", "---",
    "&nbsp;&nbsp;".intercalate (launchLinks notebook), "",
    "<Tip>This documentation page is also available as an interactive notebook. You can launch the notebook in",
    "Kaggle or Colab, or download it for use with an IDE or local Jupyter installation, by clicking one of the",
    "above links.</Tip>"].map ("        " ++ ·)

/-- The head of a published page. What the indented lines have in common is taken off, so a line
end in the path of the notebook leaves them indented. -/
def publishedHead (title notebook : String) : List Char :=
  strip (dedent ("\n".intercalate (headLines title notebook)).toList) ++ ['\n']

end DocSite.Notebook
