import DocSite.Navigation.Merge
import DocSite.Navigation.Versions

namespace DocSite.Deploy

structure Label where
  text : String
  /-- Whether the release of that name has been changed since. -/
  isChanged : Bool
  deriving DecidableEq, Repr

namespace Label

def draftBranch : String := "dev"

def ofDraft (version : String) : Label :=
  ⟨Text.onChars (fun cs => 'v' :: Text.replace ['+'] ['.'] cs) version, false⟩

/-- A release is published under its version. Work that follows a release counts towards the next
one, and is published as a change of the release before. -/
def ofRelease (version : String) : Except Fault Label :=
  match Text.splitChar '.' version.toList with
  | [_, _, _] => .ok ⟨"v" ++ version, false⟩
  | major :: minor :: patch :: _ =>
    match Text.readInt? patch with
    | none => .error (.badValue ("invalid number: " ++ Literal.quotedText (String.ofList patch)))
    | some n =>
      if n > 0 then
        .ok ⟨"v" ++ String.ofList major ++ "." ++ String.ofList minor ++ "." ++ toString (n - 1),
          true⟩
      else .error .unmet
  | _ => .error .noIndex

def of (branch version : String) : Except Fault Label :=
  if branch = draftBranch then .ok (ofDraft version) else ofRelease version

end Label

def relabelled (label : String) (version : Json) : Except Fault Json := do
  let moved := "sdk/" ++ label ++ "/"
  let version ← version.put "dropdown" (.str label)
  let groups ← (← version.item "groups").each
  let groups' ← groups.mapM (Navigation.movePages "sdk/latest/".toList moved.toList)
  if groups.isEmpty then return version else version.put "groups" (.arr groups')

def latestOf (versions : Json) : Except Fault Json := do
  if (← versions.size) ≠ 1 then .error .unmet
  else
    match versions with
    | .obj _ => .error (.noKey "0")
    | v =>
      let first := ((← v.each).head?).getD .null
      if (← first.item "dropdown").same (.str "latest") then return first else .error .unmet

/-- A configuration whose reference tab holds the latest version only, with that version under a
label of its own beside it. -/
def addLabelled (label : String) (docs : Json) : Except Fault Json := do
  match ← Navigation.sdkTab? docs with
  | none => .error (.wrongKind "'NoneType' object is not subscriptable")
  | some tab =>
    let latest ← latestOf (← tab.item "dropdowns")
    let copy ← relabelled label latest
    Navigation.setSdkTab (← tab.put "dropdowns" (.arr [latest, copy])) docs

end DocSite.Deploy
