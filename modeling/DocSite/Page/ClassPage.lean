import DocSite.Page.Slug
import DocSite.Section.Function
import DocSite.Sorting

namespace DocSite.Page

open Api

def missingNote (showErrors : Bool) (name : String) : String :=
  if showErrors then
    "\n## ⚠️ No Documentation\n\n<Warning>\nDocumentation for \x60" ++ name ++
      "\x60 is not available.\n</Warning>\n\n"
  else ""

def failureNote (subject name reason : String) : String :=
  "<Warning>\nFailed to " ++ subject ++ " \x60" ++ name ++ "\x60:\n\n\x60\x60\x60\n" ++ reason ++
    "\n\x60\x60\x60\n"

def classFailure (name reason : String) : String :=
  "---\ntitle: \"" ++ name ++ "\"\nicon: \"triangle-exclamation\"\n---\n\n" ++
    "## ⚠️ Error Loading Class\n\n" ++ failureNote "load class" name reason ++ "</Warning>\n"

def declaredNames (info : ClassInfo) : List String :=
  match info.style with
  | .plain => []
  | .record => (info.fields.filter fun f => f.default?.isSome).map Field.name
  | .tuple => info.fields.map Field.name ++ ["count", "index", "_fields", "_field_defaults"]
  | .keyed =>
    ["clear", "copy", "fromkeys", "get", "items", "keys", "pop", "popitem", "setdefault", "update",
      "values"]

def listedMethod (path : String) (info : ClassInfo) (layers : List (Layer Entity))
    (name : String) : Job (Option (String × Entity)) := do
  let isSilent :=
    match member? name layers with
    | none => isInherent name || (declaredNames info).contains name
    | some _ => isReadable name layers
  if !isSilent then Job.print ("        ⚠️ Method " ++ name ++ " not found in " ++ path)
  return (member? name layers).bind fun e => if e.isMethod then some (name, e) else none

def specialNames : List String := ["__call__", "__enter__", "__exit__"]

def publicMethods (layers : List (Layer Entity)) : List (String × Entity) :=
  (memberNames layers).filterMap fun n =>
    if n.startsWith "_" && !specialNames.contains n then none
    else (member? n layers).bind fun e => if e.isMethod then some (n, e) else none

def methodSections (s : Setting) (path : String) (info : ClassInfo)
    (layers : List (Layer Entity)) (children : List String) : Job String := do
  let methods ←
    if children.isEmpty then pure (publicMethods layers)
    else List.filterMap id <$> children.mapM (listedMethod path info layers)
  let sections ← (sortByName methods).mapM fun (name, e) =>
    Job.ofHalting (Section.function s.aids .method e name none)
  return String.join sections

structure Attribute where
  name : String
  type : TypeNote
  doc? : Option String

namespace Attribute

def noOrder (kind other : String) : Except Fault Bool :=
  .error (.wrongKind ("'<' not supported between instances of '" ++ kind ++ "' and '" ++ other ++
    "'"))

def typeKind : TypeNote → String
  | .none => "NoneType"
  | .text _ => "str"
  | .type _ => "type"

def docKind (doc? : Option String) : String := if doc?.isSome then "str" else "NoneType"

/-- Attributes go by their names, those of one name by their types and then by their texts. Only
texts have an order. -/
def less (a b : Attribute) : Except Fault Bool :=
  if a.name ≠ b.name then .ok (a.name < b.name)
  else if a.type ≠ b.type then
    match a.type, b.type with
    | .text s, .text t => .ok (s < t)
    | s, t => noOrder (typeKind s) (typeKind t)
  else if a.doc? ≠ b.doc? then
    match a.doc?, b.doc? with
    | some s, some t => .ok (s < t)
    | s?, t? => noOrder (docKind s?) (docKind t?)
  else .ok false

end Attribute

def propertyAttributes (layers : List (Layer Entity)) : List Attribute :=
  (memberNames layers).filterMap fun n =>
    if n.startsWith "_" then none
    else
      match member? n layers with
      | some (.property doc? type?) =>
        some ⟨n, type?.getD (.text "Any"), cleanDoc? doc?⟩
      | _ => none

def documentedAttributes (info : ClassInfo) : List Attribute :=
  if info.style = .keyed then
    (info.documented.filter fun f => !f.name.startsWith "_").map fun f =>
      ⟨f.name, .text ((present? f.type?).getD "Any"), f.doc?⟩
  else []

def attributeSection (showErrors : Bool) (a : Attribute) : String :=
  "## " ++ Mdx.label "attr" ++ " " ++ a.name ++ "\n\n\x60\x60\x60\n" ++ a.name ++ ": " ++
    a.type.shown ++ "\n\x60\x60\x60\n\n" ++
    (match present? a.doc? with
     | some d => Mdx.escapeText d ++ "\n\n"
     | none => if showErrors then "⚠️ **No documentation**\n\n" else "")

def attributeSections (showErrors : Bool) (info : ClassInfo) (layers : List (Layer Entity)) :
    Except Fault String := do
  let found := propertyAttributes layers ++ documentedAttributes info
  let attributes ← Ranking.sort Attribute.less found
  return String.join (attributes.map (attributeSection showErrors))

def findClass (world : World) (path : String) :
    Except Fault (Except String (ClassInfo × List (Layer Entity))) :=
  let name := lastPart path
  let home := parentPath path
  match world.load home with
  | .ok m =>
    .ok <|
      match m.get? name with
      | none => .error ("Class " ++ name ++ " not found in " ++ home)
      | some (.cls info layers) => .ok (info, layers)
      | some _ => .error (name ++ " is not a class")
  | .error (.noModule reason) => .ok (.error reason)
  | .error fault => .error fault

def classPage (s : Setting) (path : String) (children : List String) : Job String := do
  let name := lastPart path
  match ← Job.ofExcept (findClass s.world path) with
  | .error reason => s.publish name (classFailure name reason)
  | .ok (info, layers) =>
    let e := Entity.cls info layers
    let source ← Job.ofExcept (address? s.repository s.world e)
    let text := match e.doc? with
      | some d => "\n" ++ Mdx.escapeText d ++ "\n\n"
      | none => missingNote s.showErrors name
    let methods ← methodSections s path info layers children
    let attributes ← Job.ofExcept (attributeSections s.showErrors info layers)
    s.publish name
      (frontmatter name "square-c" source ++ "# " ++ Mdx.label "class" ++ " " ++ path ++ "\n\n" ++
        text ++ methods ++ attributes)

end DocSite.Page
