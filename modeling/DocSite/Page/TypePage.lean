import DocSite.Page.ClassPage
import DocSite.Page.Kind
import DocSite.Page.Notice

namespace DocSite.Page

open Api

def typeFailure (name reason : String) : String :=
  "---\ntitle: \"" ++ name ++
    "\"\ndescription: \"Type documentation unavailable\"\nicon: \"triangle-exclamation\"\n---\n\n" ++
    "## ⚠️ Error Loading Type\n\n" ++ failureNote "load type" name reason ++
    "\nThis may be because the type is not properly installed or there was an import error.\n</Warning>\n"

def typeDoc? (world : World) : Entity → Option String
  | .module name => (world.find? name).bind Module.doc?
  | e => e.doc?

def shortLine (cs : List Char) : String :=
  quietQuotes (String.ofList ([' '].intercalate (Text.words (cs.take 200))))

def typeHeading (name path : String) (doc? : Option Docstring) : String :=
  let description : String :=
    match doc?.bind fun d => present? d.short? with
    | some short => shortLine short.toList
    | none => "Pixeltable column type for " ++ lowerText name ++ " data"
  "---\ntitle: \"" ++ path ++ "\"\nsidebarTitle: \"" ++ name ++ "\"\ndescription: \"" ++
    description ++ "\"\nicon: \"circle-t\"\n---\n\n"

def typeText (s : Setting) (path : String) (doc? : Option Docstring) : String :=
  match doc? with
  | none =>
    if s.showErrors then
      "## ⚠️ No Documentation\n\n<Warning>\nDocumentation for type \x60" ++ path ++
        "\x60 is not available.\n</Warning>\n\n"
    else ""
  | some doc =>
    match present? doc.long? with
    | some long => Mdx.escapeText long ++ "\n\n"
    | none => ""

def typePage (s : Setting) (path : String) : Job String := do
  let name := lastPart path
  let page := lowerText name
  match s.world.load (parentPath path) with
  | .error (.noModule reason) => s.publish page (typeFailure name reason)
  | .error fault => Job.fail fault
  | .ok m =>
    match m.get? name with
    | none => s.publish page (typeFailure name ("Type " ++ name ++ " not found"))
    | some e =>
      let doc? := (typeDoc? s.world e).map s.aids.parse
      let link : String :=
        match address? s.repository s.world e with
        | .ok (some a) => Mdx.sourceBadge a ++ "\n\n"
        | _ => ""
      s.publish page
        (typeHeading name path doc? ++ link ++ typeText s path doc? ++ usage name ++
          properties name ++ seeAlso name)

end DocSite.Page
