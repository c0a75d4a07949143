import DocSite.Json.Basic
import DocSite.Outline.Entry
import DocSite.Page.Slug

namespace DocSite.Outline

def placeBelow (outer name : String) : String :=
  if outer.isEmpty then Page.groupSlugText name else outer ++ "/" ++ Page.groupSlugText name

mutual

def groupNavigation (base outer : String) : Group → Json
  | .node name pages subgroups =>
    let place := placeBelow outer name
    let shown := pages.map fun p =>
      Json.str (base ++ place ++ "/" ++ String.ofList (Text.afterLast '.' p.path.toList))
    let fields := [("group", Json.str name), ("pages", .arr shown)]
    let inner := groupNavigations base place subgroups
    .obj (if subgroups.isEmpty then fields else fields ++ [("groups", .arr inner)])

def groupNavigations (base outer : String) : List Group → List Json
  | [] => []
  | g :: gs => groupNavigation base outer g :: groupNavigations base outer gs

end

def Tab.navigation (base : String) (t : Tab) : Json :=
  .obj [("tab", .str t.name), ("groups", .arr (groupNavigations base "" t.groups))]

end DocSite.Outline
