import DocSite.Json.Access

namespace DocSite.Navigation

mutual

def countInGroup : Json → Except Fault Nat
  | .obj fields => countInFields fields
  | v => do if ← v.has "pages" then (← v.item "pages").size else return 0

def countInFields : List (String × Json) → Except Fault Nat
  | [] => .ok 0
  | (k, v) :: rest => if k = "pages" then countPageList v else countInFields rest

def countPageList : Json → Except Fault Nat
  | .arr pages => countEach pages
  | v => do return (← v.each).length

def countEach : List Json → Except Fault Nat
  | [] => .ok 0
  | page :: pages => do
    let here ← countPage page
    return here + (← countEach pages)

def countPage : Json → Except Fault Nat
  | .str _ => .ok 1
  | .obj fields => countInFields fields
  | _ => .ok 0

end

def countPages (nav : Json) : Except Fault Nat := do
  if ← nav.has "groups" then
    let counts ← (← (← nav.item "groups").each).mapM countInGroup
    return counts.foldl (· + ·) 0
  else return 0

end DocSite.Navigation
