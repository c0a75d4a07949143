import DocSite.Navigation.Versions

namespace DocSite.Navigation

def sdkTab : String := "Pixeltable SDK"

def findTab (name : String) : List Json → Except Fault (Option (List Json × Json × List Json))
  | [] => .ok none
  | tab :: tabs => do
    if (← tab.get "tab" .null).same (.str name) then return some ([], tab, tabs)
    else
      return (← findTab name tabs).map fun (before, found, after) => (tab :: before, found, after)

def tabs? (docs : Json) : Except Fault (Option (List Json)) := do
  if ← docs.has "navigation" then
    let navigation ← docs.item "navigation"
    if ← navigation.has "tabs" then return some (← (← navigation.item "tabs").each)
  return none

def sdkTab? (docs : Json) : Except Fault (Option Json) := do
  match ← tabs? docs with
  | some tabs => return (← findTab sdkTab tabs).map fun (_, tab, _) => tab
  | none => return none

def setSdkTab (tab : Json) (docs : Json) : Except Fault Json := do
  match ← tabs? docs with
  | none => return docs
  | some tabs =>
    match ← findTab sdkTab tabs with
    | none => return docs
    | some (before, _, after) =>
      let navigation ← (← docs.item "navigation").put "tabs" (.arr (before ++ tab :: after))
      docs.put "navigation" navigation

def needTab : Option Json → Except Fault Json
  | some tab => .ok tab
  | none => .error (.noAttribute "NoneType" "get")

/-- Puts an entry under its label, in the place of an earlier one with that label. -/
def putLabelled (label entry : Json) : List (Json × Json) → List (Json × Json)
  | [] => [(label, entry)]
  | (l, e) :: rest =>
    if l.alike label then (l, entry) :: rest else (l, e) :: putLabelled label entry rest

def labelOf (entry : Json) : Except Fault Json := do
  match ← entry.item "dropdown" with
  | .arr _ => .error (.wrongKind "unhashable type: 'list'")
  | .obj _ => .error (.wrongKind "unhashable type: 'dict'")
  | label => return label

def addLabelled (merged : List (Json × Json)) (entries : List Json) :
    Except Fault (List (Json × Json)) :=
  entries.foldlM (fun m e => return putLabelled (← labelOf e) e m) merged

def archive (entry : Json) : Except Fault Json := entry.put "icon" (.str "archive")

/-- Puts the versions of the existing configuration, marked as archived, beside those of the new
one, which win where both have a version. Gives both configurations as they are afterwards. -/
def mergeVersions (existing new : Json) : Except Fault (Json × Json) := do
  let oldTab? ← sdkTab? existing
  let newTab? ← sdkTab? new
  let oldTab ← needTab oldTab?
  let oldEntries ← oldTab.get "dropdowns" (.arr [])
  let newTab ← needTab newTab?
  let newEntries ← newTab.get "dropdowns" (.arr [])
  let archived ← (← oldEntries.each).mapM archive
  let merged ← addLabelled [] archived
  let merged ← addLabelled merged (← newEntries.each)
  let sorted ← sortVersions (merged.map Prod.snd)
  let existing ← match oldEntries with
    | .arr (_ :: _) => setSdkTab (← oldTab.put "dropdowns" (.arr archived)) existing
    | _ => .ok existing
  let new ← setSdkTab (← newTab.put "dropdowns" (.arr sorted)) new
  return (existing, new)

end DocSite.Navigation
