import DocSite.Json.Access
import DocSite.Sorting
import DocSite.Text.Search

namespace DocSite.Navigation

open Text

/-- Where a version stands in the order: the latest above all, else its numbers from the left. -/
inductive VersionKey
  | latest
  | numbers (parts : List Int)
  deriving DecidableEq, Repr

def numbersLt : List Int → List Int → Bool
  | _, [] => false
  | [], _ :: _ => true
  | a :: as, b :: bs => if a = b then numbersLt as bs else a < b

def VersionKey.lt : VersionKey → VersionKey → Bool
  | .latest, _ => false
  | .numbers _, .latest => true
  | .numbers as, .numbers bs => numbersLt as bs

def latest : String := "latest"

/-- The numbers of a label such as `v0.4`; a label that has none counts as version 0. -/
def labelKey (label : String) : VersionKey :=
  if label = latest then .latest
  else
    let cs := label.toList
    let body := (afterStart? ['v'] cs).getD cs
    match (splitChar '.' body).mapM readInt? with
    | some parts => .numbers parts
    | none => .numbers [0]

def entryKey (entry : Json) : Except Fault VersionKey := do
  return labelKey (← (← entry.get "dropdown" (.str "")).text "startswith")

/-- The newest version first; entries of equal version keep their order. -/
def sortVersions (entries : List Json) : Except Fault (List Json) := do
  let keyed ← entries.mapM fun e => return (← entryKey e, e)
  return (StableSort.sort (fun a b => !(a.1.lt b.1)) keyed).map Prod.snd

mutual

def movePages (old new : List Char) : Json → Except Fault Json
  | .obj fields => do return .obj (← moveInFields old new fields)
  | v => v.item "pages"

def moveInFields (old new : List Char) :
    List (String × Json) → Except Fault (List (String × Json))
  | [] => .error (.noKey "pages")
  | (k, v) :: rest => do
    if k = "pages" then return (k, ← movePageList old new v) :: rest
    else return (k, v) :: (← moveInFields old new rest)

def movePageList (old new : List Char) : Json → Except Fault Json
  | .arr pages => do return .arr (← moveEach old new pages)
  | .str s =>
    if s = "" then .ok (.str s)
    else .error (.wrongKind "'str' object does not support item assignment")
  | .obj fields => if fields.isEmpty then .ok (.obj fields) else .error (.noKey "0")
  | v => do
    let _ ← v.size
    return v

def moveEach (old new : List Char) : List Json → Except Fault (List Json)
  | [] => .ok []
  | page :: pages => do
    let moved ← movePage old new page
    return moved :: (← moveEach old new pages)

def movePage (old new : List Char) : Json → Except Fault Json
  | .obj fields => do return .obj (← moveInFields old new fields)
  | .str s => .ok (.str (onChars (replace old new) s))
  | _ => .error .unmet

end

end DocSite.Navigation
