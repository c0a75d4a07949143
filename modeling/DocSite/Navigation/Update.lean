import DocSite.Navigation.Merge

namespace DocSite.Navigation

/-- A configuration that is being changed, and what was said about it. Both stay if a change
fails halfway. -/
structure Draft where
  docs : Json
  lines : List String

abbrev Edit := ExceptT Fault (StateM Draft)

namespace Edit

def docs : Edit Json := do return (← get).docs

def setDocs (docs : Json) : Edit Unit := modify fun d => { d with docs := docs }

def tell (line : String) : Edit Unit := modify fun d => { d with lines := d.lines ++ [line] }

end Edit

def ensureTabs (docs : Json) : Except Fault Json := do
  if !(← docs.has "navigation") then docs.put "navigation" (.obj [("tabs", .arr [])])
  else
    let navigation ← docs.item "navigation"
    if ← navigation.has "tabs" then return docs
    else docs.put "navigation" (← navigation.put "tabs" (.arr []))

def tabsOf (docs : Json) : Except Fault Json := do (← docs.item "navigation").item "tabs"

def setTabs (tabs : List Json) (docs : Json) : Except Fault Json := do
  docs.put "navigation" (← (← docs.item "navigation").put "tabs" (.arr tabs))

def firstOf : Json → Except Fault Json
  | .arr (v :: _) => .ok v
  | .arr [] => .error .noIndex
  | .str s =>
    match s.toList with
    | c :: _ => .ok (.str (String.ofList [c]))
    | [] => .error .noIndex
  | .obj _ => .error (.noKey "0")
  | v => .error (.wrongKind ("'" ++ v.kind ++ "' object is not subscriptable"))

def replaceVersion (version label : Json) (versions : List Json) : Except Fault (List Json) := do
  let others ← versions.filterM fun v => return !((← v.get "dropdown" .null).same label)
  return others ++ [version]

def addVersion (before : List Json) (tab : Json) (after : List Json) (nav : Json) : Edit Unit := do
  let version ← firstOf (← nav.item "dropdowns")
  let label ← version.item "dropdown"
  let old ← tab.item "dropdowns"
  let versions ← replaceVersion version label (← old.each)
  if versions.length ≤ (← old.size) then
    Edit.tell ("📝 Removed existing dropdown: " ++ label.shown)
  Edit.tell ("📝 Added new dropdown: " ++ label.shown)
  let tab ← tab.put "dropdowns" (.arr (← sortVersions versions))
  Edit.setDocs (← setTabs (before ++ tab :: after) (← Edit.docs))
  let tab ← tab.put "tab" (← nav.item "tab")
  Edit.setDocs (← setTabs (before ++ tab :: after) (← Edit.docs))

def bothVersioned (tab nav : Json) : Except Fault Bool := do
  if ← tab.has "dropdowns" then nav.has "dropdowns" else return false

/-- Puts a navigation among the tabs: its version into the tab of the given name if that has
versions, else the whole in the place of that tab, or as a new tab if there is none. -/
def place (name : String) (nav : Json) : Edit Unit := do
  let tabs ← tabsOf (← Edit.docs)
  match ← findTab name (← tabs.each) with
  | some (before, tab, after) =>
    if ← bothVersioned tab nav then addVersion before tab after nav
    else
      let shown ← tab.get "tab" (.str "Unknown")
      Edit.tell ("📝 Replacing tab at index " ++ toString before.length ++ ": " ++ shown.shown)
      Edit.setDocs (← setTabs (before ++ nav :: after) (← Edit.docs))
  | none =>
    Edit.tell ("📝 Adding new tab: " ++ name)
    match tabs with
    | .arr items => Edit.setDocs (← setTabs (items ++ [nav]) (← Edit.docs))
    | v => throw (.noAttribute v.kind "append")

def update (name : String) (nav : Json) : Edit Unit := do
  if !(← Edit.docs).isPresent then
    throw (.notLoaded "docs.json not loaded. Call load() first.")
  Edit.setDocs (← ensureTabs (← Edit.docs))
  place name nav

def Edit.result (edit : Edit α) (docs : Json) : Except Fault α × Draft :=
  (ExceptT.run edit).run ⟨docs, []⟩

end DocSite.Navigation
