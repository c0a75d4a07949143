import DocSite.Api.Access
import DocSite.Mdx.Prose
import DocSite.Section.Defaults

namespace DocSite.Section

open Text Api

structure Known where
  types : OrderedMap TypeNote
  defaults : OrderedMap Literal

def Known.nothing : Known := ⟨[], []⟩

def firstOfEach (forms : List Form) : OrderedMap ColumnParam :=
  (forms.flatMap fun f => f.params?.getD []).foldl
    (fun m p => if m.has p.name then m else m.set p.name p) []

def knownOfForms (forms : List Form) : Known :=
  let params := firstOfEach forms
  { types := params.filterMap fun (n, p) => p.type?.map fun t => (n, .text t)
    defaults := params.filterMap fun (n, p) =>
      match p.default? with
      | none | some .none => none
      | some d => some (n, d) }

def typesOfText (sig : List Char) : OrderedMap TypeNote :=
  match cutAt? ['('] sig, cutAt? [')'] sig with
  | some (name, _), some (before, _) =>
    let params := (sig.take before.length).drop (name.length + 1)
    .ofEntries (((splitChar ',' params).map strip).filterMap fun p =>
      (cutAt? [':'] p).map fun (name, type) =>
        (String.ofList (strip name), .text (String.ofList (strip type))))
  | _, _ => []

def knownOfPrototype (proto : Prototype) : Known :=
  { types := proto.params.filterMap fun p => p.note?.map fun a => (p.name, a)
    defaults := proto.params.filterMap fun p => p.default?.map fun d => (p.name, d) }

/-- A column function of one form goes by its signature text, anything else by its prototype. -/
def knownOf (e : Entity) : Known :=
  let byPrototype :=
    match e.prototype with
    | .ok proto => knownOfPrototype proto
    | .error _ => .nothing
  match e with
  | .udf u =>
    match u.isPolymorphic?, u.forms? with
    | some true, some forms => knownOfForms forms
    | _, _ =>
      match present? u.signature? with
      | some sig => ⟨typesOfText sig.toList, []⟩
      | none => byPrototype
  | _ => byPrototype

def shownType? (known : Known) (p : DocParam) : Option String :=
  let a := (known.types.get? p.name).getD (.text ((present? p.type?).getD "Any"))
  if a.isPresent then some (plainClassesText a.shown) else none

def shownDefault? (known : Known) (p : DocParam) : Option Literal :=
  match known.defaults.get? p.name with
  | none | some .none => none
  | some d => some d

def entryText (description : String) : String :=
  onChars (fun cs => strip (indent "    ".toList (Mdx.escape cs))) description

def paramEntry (known : Known) (p : DocParam) : String :=
  "- **\x60" ++ p.name ++ "\x60** " ++
    (match shownType? known p with
     | none => ""
     | some type =>
       "(\x60" ++ type ++ "\x60" ++
         (match shownDefault? known p with
          | some d => ", default: \x60" ++ d.codeText ++ "\x60"
          | none => "") ++ ")") ++
    (match present? p.description? with
     | some d => ": " ++ entryText d
     | none => "") ++ "\n"

def parameters (e : Entity) (doc : Docstring) : String :=
  if doc.params.isEmpty then ""
  else "**Parameters:**\n\n" ++ String.join (doc.params.map (paramEntry (knownOf e))) ++ "\n"

end DocSite.Section
