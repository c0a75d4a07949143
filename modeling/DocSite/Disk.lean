import DocSite.Fault
import DocSite.Path
import DocSite.Sorting
import DocSite.Text.Glob

namespace DocSite

inductive Node
  | dir
  | file (text : String)
  deriving DecidableEq, Repr

structure Listing where
  /-- Whether one name is listed before another in the directory at a place. -/
  before : List String → String → String → Bool
  /-- Whether a search gives all that lies right in a directory before it goes further down. If not,
  it goes down into each directory as it comes to it. -/
  levelFirst : Bool
  before_total : ∀ place a b, (before place a b || before place b a) = true
  before_antisymm : ∀ {place a b}, before place a b = true → before place b a = true → a = b
  before_trans : ∀ place a b c,
    before place a b = true → before place b c = true → before place a c = true

namespace Listing

def sorted : Listing where
  before _ a b := a ≤ b
  levelFirst := false
  before_total _ a b := by simpa using String.le_total a b
  before_antisymm h h' := String.le_antisymm (of_decide_eq_true h) (of_decide_eq_true h')
  before_trans _ _ _ _ h h' :=
    decide_eq_true (String.le_trans (of_decide_eq_true h) (of_decide_eq_true h'))

def inPlace (l : Listing) : Listing := { l with levelFirst := false }

def arrange (l : Listing) (place names : List String) : List String :=
  StableSort.sort (l.before place) names

def heads (entries : List (List String × Node)) : List String :=
  (entries.filterMap (·.1.head?)).eraseDups

def under (name : String) (entries : List (List String × Node)) : List (List String × Node) :=
  entries.filterMap fun (p, n) =>
    match p with
    | a :: b :: rest => if a = name then some (b :: rest, n) else none
    | _ => none

/-- What is found below a place when one goes down a number of levels. -/
def walkTo (l : Listing) : Nat → List String → List (List String × Node) →
    List (List String × Node)
  | 0, _, _ => []
  | depth + 1, place, entries =>
    let names := l.arrange place (heads entries)
    let own (name : String) := entries.filter fun e => e.1 = [name]
    let inside (name : String) := (l.walkTo depth (place ++ [name]) (under name entries)).map
      fun (p, n) => (name :: p, n)
    if l.levelFirst then names.flatMap own ++ names.flatMap inside
    else names.flatMap fun name => own name ++ inside name

def depthOf (entries : List (List String × Node)) : Nat :=
  entries.foldr (fun e depth => max e.1.length depth) 0

def walk (l : Listing) (place : List String) (entries : List (List String × Node)) :
    List (List String × Node) :=
  l.walkTo (depthOf entries) place entries

end Listing

/-- The directories and files of a disk by the parts of their paths. The place above all others is
always a directory, and so is every place above one that is taken. -/
structure Disk where
  nodes : List (List String × Node)
  listing : Listing := .sorted

namespace Disk

def empty : Disk := { nodes := [] }

def lookup (place : List String) : List (List String × Node) → Option Node
  | [] => none
  | (p, n) :: rest => if p = place then some n else lookup place rest

def find? (d : Disk) (place : List String) : Option Node :=
  if place.isEmpty then some .dir else lookup place d.nodes

def exists? (d : Disk) (place : List String) : Bool := (d.find? place).isSome

def isDir (d : Disk) (place : List String) : Bool := d.find? place = some .dir

def replaceNode (place : List String) (node : Node) :
    List (List String × Node) → List (List String × Node)
  | [] => [(place, node)]
  | (p, n) :: rest => if p = place then (p, node) :: rest else (p, n) :: replaceNode place node rest

def put (d : Disk) (place : List String) (node : Node) : Disk :=
  { d with nodes := replaceNode place node d.nodes }

def upTo (place : List String) : List (List String) :=
  (List.range place.length).map fun i => place.take (i + 1)

/-- Makes sure that every place on the way is taken, by a directory if it was free. -/
def fill (d : Disk) (place : List String) : Disk :=
  (upTo place).foldl (fun d p => if d.exists? p then d else d.put p .dir) d

def barred (d : Disk) (place : List String) : Bool :=
  (upTo place.dropLast).any fun p =>
    match d.find? p with
    | some (.file _) => true
    | _ => false

def shownPlace (place : List String) : String := "/" ++ "/".intercalate place

def nameLimit : Nat := 255

def isLong (name : String) : Bool := nameLimit < name.utf8ByteSize

def checkNames (place : List String) : Except Fault Unit :=
  if place.any isLong then .error (.nameTooLong (shownPlace place)) else .ok ()

/-- Whether a name has bytes. Of the halves of characters, only those that stand for one byte
each have them. -/
def isEncodable (name : String) : Bool :=
  name.toList.all fun c => (Text.half? c).all fun u => 0xdc80 ≤ u && u < 0xdd00

/-- Names that a place can have: all have bytes, none has a null character, and none is too
long. -/
def checkPlace (place : List String) : Except Fault Unit := do
  if !place.all isEncodable then
    let (first, last, half) := (Text.firstHalves? 0 (shownPlace place).toList).getD (0, 0, 0)
    .error (.unencodable first last half)
  if place.any (·.toList.contains '\x00') then .error (.badValue "embedded null byte")
  checkNames place

/-- Makes a directory and those above it; one that is there already is kept. -/
def makeDir (d : Disk) (place : List String) : Except Fault Disk := do
  checkPlace place
  if d.barred place then .error (.notDirectory (shownPlace place))
  else
    match d.find? place with
    | some (.file _) => .error (.alreadyThere (shownPlace place))
    | _ => .ok (d.fill place)

def write (d : Disk) (place : List String) (text : String) : Except Fault Disk := do
  checkPlace place
  if d.isDir place then .error (.isDirectory (shownPlace place))
  else if d.barred place then .error (.notDirectory (shownPlace place))
  else if d.isDir place.dropLast then .ok (d.put place (.file text))
  else .error (.noFile (shownPlace place))

def read (d : Disk) (place : List String) : Except Fault String := do
  checkPlace place
  match d.find? place with
  | some (.file text) => .ok text
  | some .dir => .error (.isDirectory (shownPlace place))
  | none =>
    if d.barred place then .error (.notDirectory (shownPlace place))
    else .error (.noFile (shownPlace place))

def addFile (d : Disk) (place : List String) (text : String) : Disk :=
  (d.fill place.dropLast).put place (.file text)

def below (d : Disk) (place : List String) : List (List String × Node) :=
  d.nodes.filterMap fun (p, n) =>
    if place.isPrefixOf p && place.length < p.length then some (p.drop place.length, n) else none

/-- All that lies below a place, a directory before what is in it. -/
def entries (d : Disk) (place : List String) : List (List String × Node) :=
  d.listing.inPlace.walk place (d.below place)

def filesBelow (d : Disk) (place : List String) : List (List String × String) :=
  (d.entries place).filterMap fun (p, n) =>
    match n with
    | .file text => some (p, text)
    | .dir => none

def names (d : Disk) (place : List String) : List String :=
  d.listing.arrange place <| (d.below place).filterMap fun (p, _) =>
    match p with
    | [name] => some name
    | _ => none

def remove (d : Disk) (place : List String) : Disk :=
  { d with nodes := d.nodes.filter fun (p, _) => !place.isPrefixOf p }

def copy (d : Disk) (source target : List String) : Disk :=
  match d.find? source with
  | none => d
  | some (.file text) => d.addFile target text
  | some .dir =>
    (d.below source).foldl
      (fun d (p, n) =>
        match n with
        | .dir => d.fill (target ++ p)
        | .file text => d.addFile (target ++ p) text)
      (d.fill target)

def matching (d : Disk) (place : List String) (pattern : String) : List (List String) :=
  ((d.listing.walk place (d.below place)).map Prod.fst).filter fun parts =>
    Text.fits pattern.toList (parts.getLast?.getD "").toList

/-- What lies below a directory under a name that fits a pattern. A pattern that stands for one
name only must be one that a place can have. -/
def search (d : Disk) (place : List String) (pattern : String) :
    Except Fault (List (List String)) := do
  let isWide := pattern.toList.any fun c => c = '*' || c = '?' || c = '['
  if !isWide && d.isDir place then checkNames (place ++ [pattern])
  return d.matching place pattern

end Disk

end DocSite
