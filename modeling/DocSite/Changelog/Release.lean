import DocSite.Calendar.Iso
import DocSite.Json.Access
import DocSite.Text.Basic
import DocSite.Text.Search

namespace DocSite.Changelog

open Text

def isUserChar (c : Char) : Bool := c.isAlphanum || c = '-'

def profileLink (user : List Char) : List Char :=
  "[@".toList ++ user ++ "](https://github.com/".toList ++ user ++ [')']

/-- A mention of a user. One that stands right after an opening bracket is left alone, and from
one that stands right before a closing bracket the last character is left off. -/
def mention (before : Option Char) : List Char → Option Hit
  | '@' :: cs =>
    if before = some '[' then none
    else
      let run := cs.takeWhile isUserChar
      let user := if (cs.drop run.length).head? = some ']' then run.dropLast else run
      if user.isEmpty then none else some ⟨user.length + 1, profileLink user⟩
  | _ => none

def linkMentions (cs : List Char) : List Char := substituteAfter mention cs

def pullAddress : List Char := "https://github.com/pixeltable/pixeltable/pull/".toList

def pullLink (ahead : List Char) : Option Hit := do
  let rest ← afterStart? pullAddress ahead
  let number := rest.takeWhile isDigit
  if number.isEmpty then none
  else some ⟨pullAddress.length + number.length,
    "[#".toList ++ number ++ "](".toList ++ pullAddress ++ number ++ [')']⟩

def shortenPulls (cs : List Char) : List Char := substitute pullLink cs

structure Release where
  tag : String
  name : String
  date : String
  author : String
  address : String
  body : String

def dateText (published : Json) : String :=
  if published.isPresent then
    match published with
    | .str s =>
      match Calendar.readDate? (onChars (replace ['Z'] "+00:00".toList) s) with
      | some d => d.long
      | none => s
    | v => v.shown
  else "Unknown date"

def Release.read (unknown : String) (v : Json) : Except Fault Release := do
  let tag ← v.get "tag_name" (.str unknown)
  let name ← v.get "name" tag
  let published ← v.get "published_at" (.str "")
  let author ← (← v.get "author" (.obj [])).get "login" (.str "Unknown")
  let address ← v.get "html_url" (.str "")
  let body ← (← v.get "body" (.str "")).text "strip"
  return ⟨tag.shown, name.shown, dateText published, author.shown, address.shown,
    onChars strip body⟩

def authorLink (author : String) : String :=
  "[@" ++ author ++ "](https://github.com/" ++ author ++ ")"

def Release.page (r : Release) : String :=
  "---\ntitle: \"" ++ r.name ++ "\"\ndescription: \"Released " ++ r.date ++ "\"\n---\n\n# " ++
    r.name ++ "\n\n**Released:** " ++ r.date ++ "\n**Author:** " ++ authorLink r.author ++
    "\n**View on GitHub:** [" ++ r.tag ++ "](" ++ r.address ++ ")\n\n---\n\n" ++ r.body ++ "\n"

def demoteHeadings (cs : List Char) : List Char :=
  let cs := replace "\n## ".toList "\n#### ".toList cs
  match afterStart? "## ".toList cs with
  | some rest => "#### ".toList ++ rest
  | none => cs

def Release.section (r : Release) : String :=
  "### " ++ r.name ++ "\n\n**Released:** " ++ r.date ++ "  \n**Author:** " ++
    authorLink r.author ++ "  \n**View on GitHub:** [" ++ r.tag ++ "](" ++ r.address ++ ")\n\n" ++
    onChars (fun cs => shortenPulls (linkMentions (demoteHeadings cs))) r.body ++ "\n\n---\n\n"

end DocSite.Changelog
