import DocSite.Json.Access

namespace DocSite.Navigation

def strayItem (v : Json) : Except Fault (List String) := do
  if ← v.has "pages" then let _ ← v.item "pages"
  if ← v.has "groups" then let _ ← v.item "groups"
  return []

def texts (vs : List Json) : List String :=
  vs.filterMap fun
    | .str s => some s
    | _ => none

mutual

def pagesOfItem : Json → Except Fault (List String)
  | .obj fields => do return (← pagesInFields fields) ++ (← groupsInFields fields)
  | v => strayItem v

def pagesInFields : List (String × Json) → Except Fault (List String)
  | [] => .ok []
  | (k, v) :: rest => if k = "pages" then pagesOfList v else pagesInFields rest

def groupsInFields : List (String × Json) → Except Fault (List String)
  | [] => .ok []
  | (k, v) :: rest => if k = "groups" then pagesOfItems v else groupsInFields rest

def pagesOfList : Json → Except Fault (List String)
  | .arr pages => pagesOfEach pages
  | v => do return texts (← v.each)

def pagesOfEach : List Json → Except Fault (List String)
  | [] => .ok []
  | page :: pages => do
    let here ← pagesOfPage page
    return here ++ (← pagesOfEach pages)

def pagesOfPage : Json → Except Fault (List String)
  | .str s => .ok [s]
  | .obj fields => do
    if OrderedMap.has "pages" fields then
      return (← pagesInFields fields) ++ (← groupsInFields fields)
    else return []
  | _ => .ok []

def pagesOfItems : Json → Except Fault (List String)
  | .arr items => pagesOfEachItem items
  | v => do return (← (← v.each).mapM strayItem).flatten

def pagesOfEachItem : List Json → Except Fault (List String)
  | [] => .ok []
  | item :: items => do
    let here ← pagesOfItem item
    return here ++ (← pagesOfEachItem items)

end

/-- The page paths of a version. Groups directly among its pages are passed over. -/
def pagesOfVersion (version : Json) : Except Fault (List String) := do
  let own ← version.get "pages" .null
  let own ← if own.isPresent then pure (texts (← own.each)) else pure []
  let groups ← version.get "groups" .null
  let below ← if groups.isPresent then pagesOfItems groups else pure []
  return own ++ below

def pagePaths (nav : Json) : Except Fault (List String) := do
  let groups ← nav.get "groups" .null
  if groups.isPresent then pagesOfItems groups
  else
    let versions ← nav.get "dropdowns" .null
    if versions.isPresent then return (← (← versions.each).mapM pagesOfVersion).flatten
    else return []

def repeatsFrom (seen : List String) : List String → List String
  | [] => []
  | p :: ps => if seen.contains p then p :: repeatsFrom seen ps else repeatsFrom (p :: seen) ps

def repeats (paths : List String) : List String := repeatsFrom [] paths

def emptyGroup? (group : Json) : Except Fault (Option String) := do
  let pages ← group.get "pages" .null
  let groups ← group.get "groups" .null
  if pages.isPresent || groups.isPresent then return none
  else return some ("Empty group: " ++ (← group.get "group" (.str "Unknown")).shown)

def check (nav : Json) : Except Fault (List String) := do
  let noTab := if ← nav.has "tab" then [] else ["Missing 'tab' field in navigation structure"]
  let isFilled ← if ← nav.has "groups" then pure true else nav.has "dropdowns"
  let noGroups :=
    if isFilled then [] else ["Missing 'groups' or 'dropdowns' field in navigation structure"]
  let groups ← nav.get "groups" .null
  let empty ← if groups.isPresent then pure ((← (← groups.each).mapM emptyGroup?).filterMap id)
    else pure []
  let paths ← pagePaths nav
  return noTab ++ noGroups ++ empty ++ (repeats paths).map ("Duplicate page path: " ++ ·)

end DocSite.Navigation
