import DocSite.Api.Docstring
import DocSite.Api.World
import DocSite.Job
import DocSite.Mdx.Element
import DocSite.Text.Case
import DocSite.Text.Search

namespace DocSite.Page

open Api Text

def groupSlug (cs : List Char) : List Char := replaceChar '/' '-' (replaceChar ' ' '-' (lower cs))

def slug (cs : List Char) : List Char := replaceChar '.' '-' (groupSlug cs)

def groupSlugText (s : String) : String := onChars groupSlug s

def slugText (s : String) : String := onChars slug s

def sitePath (version name : String) : String := "sdk/" ++ version ++ "/" ++ slugText name

structure Setting where
  aids : Aids
  world : World
  version : String
  /-- Whether missing documentation is shown on the page. -/
  showErrors : Bool
  repository : String
  output : List String
  hidden : List String
  /-- Whether a module page can have pages made for its classes. -/
  makesClasses : Bool

/-- The work of making pages. It remembers the class pages of the last module that listed any. -/
abbrev PageJob := Keeping (List String)

def Setting.place (s : Setting) (name : String) : List String :=
  s.output ++ [slugText name ++ ".mdx"]

/-- Writes a page and gives its path on the site. All pages lie side by side. -/
def Setting.publish (s : Setting) (name content : String) : Job String := do
  Job.change (·.makeDir s.output)
  Job.writeText (s.place name) content.toList
  return sitePath s.version name

/-- The file of a module in a repository: of the module itself, or of the package it opens. -/
def modulePath (name : String) (file : SourceFile) : String :=
  let path := Text.onChars (Text.replaceChar '.' '/') name
  match file with
  | .at f => if f.endsWith "__init__.py" then path ++ "/__init__.py" else path ++ ".py"
  | _ => path ++ ".py"

def address (repository path : String) (line : Int) : String :=
  "https://github.com/" ++ repository ++ "/blob/main/" ++ path ++ "#L" ++ toString line

def moduleAddress? (repository : String) (m : Module) : Option String :=
  match m.file with
  | .refused => none
  | file => some (address repository (modulePath m.name file) 0)

def sourceOf : Entity → Source
  | .func f => f.source
  | .cls info _ => info.source
  | _ => .absent

/-- Where the source of an object is shown: its file and line must be known, and its module must be
one that can be loaded. -/
def address? (repository : String) (world : World) : Entity → Except Fault (Option String)
  | .broken => .error .unreadable
  | .module name => .ok ((world.find? name).bind (moduleAddress? repository))
  | e =>
    let source := sourceOf e
    .ok <|
      match source.file, source.line?, e.home?.bind world.find? with
      | .at f, some line, some m =>
        if f.isEmpty then none else some (address repository (modulePath m.name (.at f)) line)
      | _, _, _ => none

def frontmatter (title icon : String) (address? : Option String) : String :=
  let link : String :=
    match address? with
    | none => ""
    | some a => Text.onChars (Text.replace ['\x22'] ['\\', '\x22']) (Mdx.sourceBadge a)
  "---\ntitle: \"" ++ title ++ "\"\nicon: \"" ++ icon ++ "\"\ndescription: \"" ++ link ++
    "\"\n---\n"

end DocSite.Page
