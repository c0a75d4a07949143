import DocSite.Json.Basic
import DocSite.Page.ClassPage
import DocSite.Page.Kind

namespace DocSite.Page

open Api

def moduleFailure (name path reason : String) : String :=
  "---\ntitle: \"" ++ name ++ "\"\nicon: \"triangle-exclamation\"\n---\n\n## ⚠️ Import Error\n\n" ++
    failureNote "import module" path reason ++ "</Warning>\n"

def valueText : Entity → String
  | .value v => v.codeText
  | .module name => "<module " ++ Literal.quotedText name ++ ">"
  | .udf u => "<" ++ u.className ++ " object>"
  | .func f => "<function " ++ f.name ++ ">"
  | .cls info _ => "<class '" ++ (info.module?.getD "") ++ "." ++ info.name ++ "'>"
  | _ => "<object>"

/-- Whether an object belongs to a module: it is from there or from below, or it is a column
function and the module one of functions. -/
def belongs (path moduleName home : String) (e : Entity) : Bool :=
  home = moduleName || home.startsWith (moduleName ++ ".") ||
    (Text.contains "functions".toList path.toList &&
      Text.contains "pixeltable".toList home.toList && e.isColumnFunction)

def isFunctionLike (e : Entity) : Bool := e.isFunction || e.isColumnFunction

def foundFunctions (path : String) (m : Module) : List (String × Entity) :=
  m.publicMembers.filter fun (_, e) =>
    match present? e.home? with
    | some home => belongs path m.name home e && isFunctionLike e
    | none => false

def classLinks (s : Setting) (path : String) (classes : List String) : PageJob String := do
  Keeping.keep []
  let links ← (classes.mergeSort fun a b => a ≤ b).mapM fun (name : String) => do
    Job.print ("      📄 Generating class: " ++ name)
    if !s.makesClasses then Job.fail (α := Unit) (.noAttribute "ModulePageGenerator" "class_gen")
    let page ← classPage s (path ++ "." ++ name) []
    Keeping.keep ((← Keeping.kept) ++ [page])
    return "- [" ++ name ++ "](./" ++ lowerText name ++ ")\n"
  return String.join links ++ "\n"

def functionSections (s : Setting) (functions : List (String × Entity)) (udf? : Option Bool) :
    Except Halt String := do
  let sections ← (sortByName functions).mapM fun (name, e) =>
    Section.function s.aids .func e name udf?
  return String.join sections

def membersNamed (m : Module) (names : List String) : List (String × Entity) :=
  names.filterMap fun n => (m.get? n).map fun e => (n, e)

/-- The sections of the listed functions: plain functions first, then column functions. Without a
list of names and of their kinds, those that are found. -/
def moduleFunctions (s : Setting) (path : String) (m : Module) (children : List String)
    (kinds : OrderedMap String) : Except Halt String := do
  if !children.isEmpty && !kinds.isEmpty then
    let isUdfName (n : String) : Bool := kinds.get? n = some "udf"
    let (udfs, functions) := (membersNamed m children).partition fun (n, _) => isUdfName n
    let plain ← functionSections s functions (some false)
    let column ← functionSections s udfs (some true)
    return plain ++ column
  else
    let functions := foundFunctions path m
    if functions.isEmpty then return ""
    return "## UDFs\n\n" ++ (← functionSections s functions none)

def classNames (m : Module) (names : List String) : List String :=
  ((membersNamed m names).filter fun (_, e) => e.isClass).map Prod.fst

def moduleContents (s : Setting) (path : String) (m : Module) (listed children : List String)
    (kinds : OrderedMap String) : PageJob String := do
  let classes := classNames m listed
  let links ← if classes.isEmpty then pure "" else classLinks s path classes
  let functions ← Job.ofHalting (moduleFunctions s path m children kinds)
  return links ++ functions

def modulePage (s : Setting) (path : String) (children? : Option (List String))
    (kinds : OrderedMap String) : PageJob Json := do
  let name := lastPart path
  match s.world.load path with
  | .error (.noModule reason) =>
    return .str (← s.publish name (moduleFailure name path reason))
  | .error fault => Job.fail fault
  | .ok m =>
    let listed := (children?.or m.children?).getD []
    let text := match m.doc? with
      | some d => "\n" ++ Mdx.escapeText d ++ "\n\n"
      | none => missingNote s.showErrors path
    let contents ← moduleContents s path m listed (children?.getD []) kinds
    let page ← s.publish name
      (frontmatter name "square-m" (moduleAddress? s.repository m) ++
        "# " ++ Mdx.label "module" ++ " " ++ path ++ "\n\n" ++ text ++ contents)
    let classes ← Keeping.kept
    return if classes.isEmpty then .str page else .ofTexts (page :: classes)

end DocSite.Page
