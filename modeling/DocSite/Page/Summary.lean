import DocSite.Page.ModulePage

namespace DocSite.Page

open Api

def classLink (path name : String) : String :=
  let parts := Text.splitChar '.' path.toList
  let isFunctions := 2 < parts.length &&
    parts.take 2 = ["pixeltable".toList, "functions".toList]
  (if isFunctions then "../" else "./") ++ lowerText name

def codeBlock (code : String) : String := "\x60\x60\x60python\n" ++ code ++ "\n\x60\x60\x60\n\n"

def shortText (aids : Aids) (doc? : Option String) : String :=
  match (present? doc?).bind fun d => present? (aids.parse d).short? with
  | some short => Mdx.escapeText short ++ "\n\n"
  | none => ""

def constructible (layers : List (Layer Entity)) : Bool :=
  match member? "__init__" layers with
  | some e =>
    match e.prototype with
    | .ok _ => true
    | .error _ => false
  | none => true

def classSummary (aids : Aids) (path name : String) (e : Entity) : Except Fault String := do
  let head ← match e with
    | .cls _ layers =>
      if constructible layers then Signature.formatNamedText name else pure ("class " ++ name)
    | _ => Signature.formatNamedText name
  return "### " ++ name ++ "\n\n" ++ codeBlock head ++ shortText aids e.doc? ++
    "[→ Full documentation](" ++ classLink path name ++ ")\n\n"

def columnCall (name : String) (u : Udf) : String :=
  match u.sig?, u.wrapped? with
  | some sig, _ => name ++ sig
  | none, some f =>
    match f.prototype, Signature.formatNamedText name with
    | .ok _, .ok shown => shown
    | _, _ => name ++ "(...)"
  | none, none => name ++ "(...)"

def functionSummary (aids : Aids) (path name : String) (e : Entity) : Except Fault String := do
  let heading := "### " ++ name ++ "\n\n"
  match e.isColumnFunction, e with
  | true, .udf u => return heading ++ codeBlock (columnCall name u) ++ shortText aids u.doc?
  | _, _ =>
    let full := path ++ "." ++ name
    let head ← match e.prototype with
      | .ok _ => Signature.formatNamedText full
      | .error _ => pure (full ++ "(...)")
    return heading ++ codeBlock head ++ shortText aids e.doc?

def summary (aids : Aids) (path name : String) (e : Entity) : Except Fault String :=
  if e.isClass then classSummary aids path name e
  else if e.isFunction then functionSummary aids path name e
  else .ok ("### \x60" ++ name ++ "\x60\n\n" ++ codeBlock (name ++ " = " ++ valueText e))

def childSections (s : Setting) (path : String) (m : Module) (children : List String) :
    PageJob String := do
  let others ← children.mapM fun name => do
    match m.get? name with
    | none => return "<Warning>Child \x60" ++ name ++ "\x60 not found in module</Warning>\n\n"
    | some e =>
      if e.isClass || isFunctionLike e then return ""
      else Job.ofExcept (summary s.aids path name e)
  let members := membersNamed m children
  let classes := classNames m children
  let functions := members.filter fun (_, e) => !e.isClass && isFunctionLike e
  let links ←
    if classes.isEmpty then pure ""
    else ("## Classes\n\n" ++ ·) <$> classLinks s path classes
  let sections ←
    if functions.isEmpty then pure ""
    else ("## UDFs\n\n" ++ ·) <$> Keeping.ofJob (Job.ofHalting (functionSections s functions none))
  return String.join others ++ links ++ sections

/-- Whether an object of a module counts as its own. What tells of no module does; what is from a
module without a point in its name does not. -/
def isOwn (path : String) (m : Module) (e : Entity) : Bool :=
  match present? e.home? with
  | none => true
  | some home =>
    belongs path m.name home e && !home.startsWith "builtins" && home.toList.contains '.'

def publicSections (s : Setting) (path : String) (m : Module) : PageJob String := do
  let members := m.publicMembers.filter fun (n, e) => !s.hidden.contains n && isOwn path m e
  let classes := (members.filter fun (_, e) => e.isClass).map Prod.fst
  let functions := members.filter fun (_, e) => isFunctionLike e
  let constants := members.filter fun (_, e) => !e.isClass && !e.isModule && !isFunctionLike e
  let links ←
    if classes.isEmpty then pure ""
    else ("## Classes\n\n" ++ ·) <$> classLinks s path classes
  let sections ←
    if functions.isEmpty then pure ""
    else ("## UDFs\n\n" ++ ·) <$> Keeping.ofJob (Job.ofHalting (functionSections s functions none))
  let values := constants.map fun (n, e) =>
    "#### \x60" ++ n ++ "\x60\n\n" ++ codeBlock (n ++ " = " ++ valueText e)
  return links ++ sections ++
    (if constants.isEmpty then "" else "### Constants\n\n" ++ String.join values)

end DocSite.Page
