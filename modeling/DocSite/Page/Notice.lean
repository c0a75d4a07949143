import DocSite.Json.Basic
import DocSite.Text.Search

namespace DocSite.Page

open Text

def quietQuotes (s : String) : String := onChars (replaceChar '\x22' '\x27') s

/-- A title cut to `width` characters; a negative width counts back from the end. -/
def sidebarTitle (title : String) (width : Int) : String :=
  let cs := title.toList
  if (cs.length : Int) ≤ width then title
  else String.ofList (cs.take (if 0 ≤ width then width else cs.length + width).toNat)

def sidebarWidth : Int := 23

def navEntry (page : Json) (children : List Json) (group : Option String) : Json :=
  if children.isEmpty then page
  else
    match group with
    | some name =>
      if name = "" then .arr (page :: children)
      else .obj [("group", .str name), ("pages", .arr (page :: children))]
    | none => .arr (page :: children)

def navGroup (name : String) (pages : List Json) : Json :=
  .obj [("group", .str name), ("pages", .arr pages)]

def warningIcon : String := "triangle-exclamation"

def warning (name message icon : String) : String :=
  "---\ntitle: \"" ++ name ++ "\"\ndescription: \"Documentation unavailable\"\nicon: \"" ++ icon ++
    "\"\n---\n\n## ⚠️ " ++ message ++ "\n\n<Warning>\nDocumentation for `" ++ name ++
    "` is not available.\n</Warning>"

end DocSite.Page
