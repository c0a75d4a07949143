import DocSite.Navigation.Versions
import DocSite.Outline.Entry

namespace DocSite.Navigation

open Outline

def entriesOf : Json → List Json
  | .str s => [.str s]
  | .arr items => items
  | .obj fields =>
    let has (key : String) : Bool := OrderedMap.has key fields
    if (has "page" && has "pages") || has "group" then [.obj fields]
    else [(OrderedMap.get? "page" fields).getD (.obj fields)]
  | _ => []

def pageEntries (generated : OrderedMap Json) (pages : List PageItem) : List Json :=
  pages.flatMap fun p =>
    match generated.get? p.path with
    | some result => entriesOf result
    | none => []

mutual

def buildGroup (generated : OrderedMap Json) : Group → Json
  | .node name pages subgroups =>
    .obj [("group", .str name),
      ("pages", .arr (pageEntries generated pages ++ buildGroups generated subgroups))]

def buildGroups (generated : OrderedMap Json) : List Group → List Json
  | [] => []
  | g :: gs => buildGroup generated g :: buildGroups generated gs

end

def build (version : String) (generated : OrderedMap Json) (t : Tab) : Json :=
  let reference := Json.obj
    [("group", .str "SDK Reference"), ("pages", .arr (buildGroups generated t.groups))]
  let entry := Json.obj
    [("dropdown", .str version), ("icon", .str (if version = latest then "rocket" else "archive")),
      ("groups", .arr [reference])]
  .obj [("tab", .str t.name), ("dropdowns", .arr [entry])]

end DocSite.Navigation
