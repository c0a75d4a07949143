import DocSite.Text.Search

namespace DocSite

structure Path where
  root : String
  parts : List String
  deriving DecidableEq, Repr

namespace Path

/-- Empty parts and single points vanish; exactly two slashes in front are a root of their own. -/
def ofChars (cs : List Char) : Path :=
  let slashes := (cs.takeWhile (· = '/')).length
  let root := if slashes = 0 then "" else if slashes = 2 then "//" else "/"
  let parts := (Text.splitChar '/' cs).filter fun p => !p.isEmpty && p ≠ ['.']
  ⟨root, parts.map String.ofList⟩

def ofString (s : String) : Path := ofChars s.toList

def toString (p : Path) : String :=
  if p.root = "" && p.parts.isEmpty then "." else p.root ++ "/".intercalate p.parts

def join (p q : Path) : Path := if q.root = "" then ⟨p.root, p.parts ++ q.parts⟩ else q

def child (p : Path) (s : String) : Path := p.join (ofString s)

instance : HDiv Path String Path := ⟨child⟩

def parent (p : Path) : Path := ⟨p.root, p.parts.dropLast⟩

def name (p : Path) : String := p.parts.getLast?.getD ""

/-- The name before its last point and from that point on. A point at either end of the name
begins no suffix. -/
def splitName (name : String) : String × String :=
  match Text.cutAtLast? ['.'] name.toList with
  | some (before, after) =>
    if before.isEmpty || after.isEmpty then (name, "")
    else (String.ofList before, String.ofList ('.' :: after))
  | none => (name, "")

def stem (p : Path) : String := (splitName p.name).1

def suffix (p : Path) : String := (splitName p.name).2

def withName (p : Path) (name : String) : Path := ⟨p.root, p.parts.dropLast ++ [name]⟩

def withSuffix (p : Path) (suffix : String) : Path := p.withName (p.stem ++ suffix)

def withStem (p : Path) (stem : String) : Path := p.withName (stem ++ p.suffix)

/-- The place of a path, seen from the top: two points lead one level up. -/
def placeFrom (above : List String) : List String → List String
  | [] => above.reverse
  | ".." :: parts => placeFrom above.tail parts
  | p :: parts => placeFrom (p :: above) parts

def place (p : Path) : List String := placeFrom [] p.parts

end Path

end DocSite
