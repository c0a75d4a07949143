import DocSite.Json.Access
import DocSite.Json.View
import DocSite.Json.Writer
import DocSite.Network
import DocSite.Notebook.Conversion
import DocSite.Shell
import DocSite.Site.Paths

namespace DocSite

/-! What lies outside of the program, read from a description. -/

def describedFiles (v : Json) : List (List String × String) :=
  v.entries.map fun (path, text) => ((Path.ofString path).parts, text.strD "")

def Response.ofJson (v : Json) : Response :=
  match v.field? "error", v.textAt? "raw" with
  | some reason, _ => .failing reason.shown
  | none, some text => .page text (v.textAt "link")
  | none, none => .page (v.field "body").compact (v.textAt "link")

def Network.ofJson (v : Json) : Network :=
  v.entries.map fun (address, answer) => (address, .ofJson answer)

def Notebook.Renderer.ofJson (v : Json) : Notebook.Renderer :=
  let fails := (v.field "quarto_fail").isTrue
  { isInstalled := ((v.field? "has_quarto").map Json.isPresent).getD true
    pages := if fails then [] else describedFiles (v.field "quarto")
    failure? := if fails then some ⟨some 1, "quarto out", "quarto err"⟩ else none }

def Outcome.ofJson (v : Json) : Outcome :=
  ⟨((v.field "returncode").int?).getD 0, v.textAt "stdout", v.textAt "stderr"⟩

def Preview.ofJson (v : Json) : Preview :=
  match v.field? "fail" with
  | some reason => .unable reason.shown
  | none =>
    let out := v.textAt "stdout"
    let err := v.textAt "stderr"
    if (v.field "timeout").isTrue then .timedOut (.text out) (.text err) else .ended out err

namespace Shell

def describedOutcome (v : Json) : List String → Outcome
  | "mintlifier" :: _ => .ofJson (v.field "mintlifier")
  | "git" :: "rev-parse" :: _ => ⟨0, (v.field "sha").strD "0123456789abcdef\n", ""⟩
  | "git" :: "diff" :: _ => ⟨((v.field "diff").int?).getD 1, "", ""⟩
  | "git" :: "log" :: _ => ⟨0, v.textAt "log", ""⟩
  | "git" :: "clone" :: "-b" :: branch :: _ =>
    match (v.field "clones").field? branch with
    | some _ => ⟨0, "", ""⟩
    | none => ⟨128, "", "no branch " ++ branch⟩
  | _ => ⟨0, "", ""⟩

def ofJson (v : Json) : Shell :=
  { outcome := fun c => describedOutcome v c.words
    branch := fun name => describedFiles ((v.field "clones").field name)
    preview := .ofJson (v.field "npx") }

end Shell

def Site.Package.ofJson? (base : Path) (name : String) (modules : Json) : Option Site.Package :=
  (modules.items.find? fun m => m.textAt "name" = name).map fun m =>
    ⟨(m.textAt? "__file__").map (base / ·), m.textAt? "version"⟩

end DocSite
