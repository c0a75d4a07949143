import DocSite.Json.Access
import DocSite.Notebook.Catalog
import DocSite.Notebook.Concept
import DocSite.Notebook.Heading

namespace DocSite.Notebook

open Text

inductive Cell
  | text (source : String)
  | code (source : String) (output? : Option String)
  | other
  deriving DecidableEq, Repr

abbrev Reader := Json → Except Fault (List Cell)

namespace Reader

def needed (key : String) (v : Json) : Except Fault Json := do
  if ← v.has key then v.item key else .error (.noAttribute "NotebookNode" key)

def joinedText : Json → Except Fault String
  | .str s => .ok s
  | .arr pieces => do return String.join (← pieces.mapM fun p => p.text "join")
  | _ => .error (.wrongKind "expected a text")

def firstOutput? : List Json → Except Fault (Option String)
  | [] => .ok none
  | output :: rest => do
    match ← needed "output_type" output with
    | .str "execute_result" =>
      let data ← needed "data" output
      if ← data.has "text/plain" then
        return some (← joinedText (← data.item "text/plain"))
      else firstOutput? rest
    | .str "stream" => return some (← joinedText (← needed "text" output))
    | _ => firstOutput? rest

def readCell (v : Json) : Except Fault Cell := do
  match ← needed "cell_type" v with
  | .str "markdown" => return .text (← joinedText (← needed "source" v))
  | .str "code" =>
    let source ← joinedText (← needed "source" v)
    let outputs ← v.get "outputs" .null
    if outputs.isPresent then return .code source (← firstOutput? (← outputs.each))
    else return .code source none
  | _ => return .other

/-- Reads a notebook of the fourth format as it stands. No other format is brought up to date, and
nothing is checked but that what is needed is there. -/
def plain : Reader := fun v => do
  (← (← needed "cells" v).each).mapM readCell

end Reader

def cellsTitle? : List Cell → Option (List Char)
  | [] => none
  | .text source :: cells => (heading? source.toList).or (cellsTitle? cells)
  | _ :: cells => cellsTitle? cells

def isBadge (line : List Char) : Bool :=
  contains "[![Kaggle]".toList line || contains "[![Colab]".toList line

def proseLines (source : String) : List (List Char) :=
  (lines source.toList).filter fun l =>
    !l.head?.any isMark && !isBadge l && !(strip l).isEmpty

/-- Up to three lines of prose from each text cell, until there are three of them. -/
def leadingProse (found : List (List Char)) : List Cell → List (List Char)
  | [] => found
  | .text source :: cells =>
    let found := found ++ (proseLines source).take 3
    if 3 ≤ found.length then found else leadingProse found cells
  | _ :: cells => leadingProse found cells

def describe (cells : List Cell) : String :=
  " ".intercalate ((leadingProse [] (cells.take 5)).map String.ofList)

structure Draft where
  patterns : List Recipe
  current? : Option Recipe
  lead : List String
  snippets : List Snippet

namespace Draft

def empty : Draft := ⟨[], none, [], []⟩

def lastTwo (texts : List String) : List String := texts.drop (texts.length - 2)

def add (d : Draft) : Cell → Draft
  | .text source =>
    if opensPattern source.toList then
      { d with
        patterns := d.patterns ++ d.current?.toList
        current? := some ⟨String.ofList (headingText source.toList), [], []⟩
        lead := [] }
    else
      match d.current? with
      | some p => { d with current? := some { p with explanation := p.explanation ++ [source] } }
      | none => { d with lead := d.lead ++ [source] }
  | .code code output? =>
    match d.current? with
    | some p =>
      { d with
        current? := some
          { p with blocks := p.blocks ++ [⟨code, output?, "\n".intercalate d.lead⟩] }
        lead := [] }
    | none =>
      { d with
        snippets := d.snippets ++ [⟨code, "\n".intercalate (lastTwo d.lead), output?⟩] }
  | .other => d

def ofCells (cells : List Cell) : Draft := cells.foldl add empty

def allPatterns (d : Draft) : List Recipe := d.patterns ++ d.current?.toList

end Draft

def digest (path : String) (cells : List Cell) : Digest :=
  let draft := Draft.ofCells cells
  let plain : Digest :=
    { path := path
      title := ((cellsTitle? cells).map String.ofList).getD "Untitled"
      description := describe cells
      patterns := draft.allPatterns
      concepts := []
      snippets := draft.snippets }
  { plain with concepts := concepts plain.json }

end DocSite.Notebook
