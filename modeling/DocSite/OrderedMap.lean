namespace DocSite

abbrev OrderedMap (α : Type) := List (String × α)

namespace OrderedMap

variable {α β : Type}

def get? (key : String) : OrderedMap α → Option α
  | [] => none
  | (k, v) :: rest => if k = key then some v else get? key rest

def has (key : String) (m : OrderedMap α) : Bool := (m.get? key).isSome

/-- Puts a value under a key: in the key's place if it is there, else at the end. -/
def set (key : String) (value : α) : OrderedMap α → OrderedMap α
  | [] => [(key, value)]
  | (k, v) :: rest => if k = key then (k, value) :: rest else (k, v) :: set key value rest

def keys (m : OrderedMap α) : List String := m.map Prod.fst

def values (m : OrderedMap α) : List α := m.map Prod.snd

def mapValues (f : α → β) (m : OrderedMap α) : OrderedMap β := m.map fun (k, v) => (k, f v)

def ofEntries (entries : List (String × α)) : OrderedMap α :=
  entries.foldl (fun m (k, v) => m.set k v) []

end OrderedMap

end DocSite
