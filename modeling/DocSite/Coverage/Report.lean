import DocSite.OrderedMap

namespace DocSite.Coverage

structure Item where
  kind : String
  name : String
  deriving DecidableEq, Repr

abbrev Items := OrderedMap (List Item)

structure Report where
  missing : List String
  notInCode : List String
  empty : List String
  deriving DecidableEq, Repr

def entry (path : String) (i : Item) : String := path ++ "." ++ i.name ++ " (" ++ i.kind ++ ")"

def isListed (items : List Item) (i : Item) : Bool := items.any fun j => j.name = i.name

def missing (api outline : Items) : List String :=
  api.flatMap fun (path, items) =>
    match outline.get? path with
    | none => items.map (entry path)
    | some listed => (items.filter (!isListed listed ·)).map (entry path)

def notInCode (api outline : Items) : List String :=
  outline.flatMap fun (path, items) =>
    match api.get? path with
    | some found => (items.filter (!isListed found ·)).map (entry path)
    | none => items.map fun i => entry path i ++ " - module not found"

def emptyModules (api outline : Items) : List String :=
  outline.flatMap fun (path, items) =>
    if items.isEmpty then
      match api.get? path with
      | some found =>
        if found.isEmpty then []
        else [path ++ " (has " ++ toString found.length ++ " items in code)"]
      | none => []
    else []

def compare (api outline : Items) : Report :=
  ⟨missing api outline, notInCode api outline, emptyModules api outline⟩

end DocSite.Coverage
