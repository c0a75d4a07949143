import DocSite.Text.Search

namespace DocSite.Mdx

open Text

def label (kind : String) : String :=
  "<span style=\x7b\x7b 'color': 'gray' \x7d\x7d>" ++ kind ++ "</span>&nbsp;"

def image (source alt : String) : String :=
  "<img src=\"" ++ source ++ "\" alt=\"" ++ alt ++
    "\" style=\x7b\x7b display: 'inline', margin: '0px' \x7d\x7d noZoom />"

def imageLink (id address source alt : String) : String :=
  "<a href=\"" ++ address ++ "\" id=\"" ++ id ++
    "\" target=\"_blank\" rel=\"noopener noreferrer\">" ++ image source alt ++ "</a>"

def sourceBadge (address : String) : String :=
  imageLink "viewSource" address
    "https://img.shields.io/badge/View%20Source%20on%20Github-blue?logo=github&labelColor=gray"
    "View Source on GitHub"

def webSchemes : List (List Char) := ["http://".toList, "https://".toList]

def fileSchemes : List (List Char) := ["ftp://".toList]

def mailSchemes : List (List Char) := ["mailto:".toList]

def isAddress (schemes : List (List Char)) (cs : List Char) : Bool :=
  schemes.any fun s => (afterStart? s cs).any (!·.isEmpty)

def linkTo (address : List Char) : List Char :=
  '[' :: address ++ "](".toList ++ address ++ [')']

def inlineCode (cs : List Char) : List Char := '\x60' :: cs ++ ['\x60']

def bracketed? : List Char → Option (List Char)
  | '<' :: cs =>
    let inner := cs.takeWhile (· ≠ '>')
    if inner.length = cs.length then none else some inner
  | _ => none

def autolink (schemes : List (List Char)) (ahead : List Char) : Option Hit := do
  let inner ← bracketed? ahead
  if isAddress schemes inner then some ⟨inner.length + 2, linkTo inner⟩ else none

def codeTag (ahead : List Char) : Option Hit := do
  let inner ← bracketed? ahead
  if inner.isEmpty then none else some ⟨inner.length + 2, inlineCode inner⟩

end DocSite.Mdx
