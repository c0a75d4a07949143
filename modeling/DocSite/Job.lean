import DocSite.Disk
import DocSite.Text.Lines

namespace DocSite

structure Command where
  words : List String
  directory? : Option String
  deriving DecidableEq, Repr

/-- What a job works on and leaves behind, even if it fails: the disk, the two streams of messages
and the commands given. -/
structure Desk where
  disk : Disk
  out : String
  err : String
  commands : List Command

def Desk.on (disk : Disk) : Desk := ⟨disk, "", "", []⟩

abbrev Job := ExceptT Halt (StateM Desk)

namespace Job

variable {α : Type}

def fail (fault : Fault) : Job α := throw (.failed fault)

def exit (code : Int) : Job α := throw (.exited code)

def ofExcept (r : Except Fault α) : Job α :=
  match r with
  | .ok a => pure a
  | .error fault => fail fault

def ofHalting (r : Except Halt α) : Job α :=
  match r with
  | .ok a => pure a
  | .error halt => throw halt

def desk : Job Desk := get

def disk : Job Disk := do return (← get).disk

def setDisk (d : Disk) : Job Unit := modify fun k => { k with disk := d }

def change (f : Disk → Except Fault Disk) : Job Unit := do
  setDisk (← ofExcept (f (← disk)))

def readText (place : List String) : Job (List Char) := do
  return Text.plainNewlines (← ofExcept ((← disk).read place)).toList

/-- Writes a text file. Where the text has no bytes an empty file is left. -/
def writeText (place : List String) (cs : List Char) : Job Unit := do
  match Text.firstHalves? 0 cs with
  | none => change (·.write place (String.ofList cs))
  | some (first, last, half) =>
    change (·.write place "")
    fail (.unencodable first last half)

def write (text : String) : Job Unit := modify fun k => { k with out := k.out ++ text }

def print (line : String) : Job Unit := write (line ++ "\n")

def complain (line : String) : Job Unit := modify fun k => { k with err := k.err ++ line ++ "\n" }

def record (command : Command) : Job Unit :=
  modify fun k => { k with commands := k.commands ++ [command] }

/-- Goes on with `handle` where a job fails; an exit or an interruption passes. -/
def rescue (job : Job α) (handle : Fault → Job α) : Job α :=
  tryCatch job fun
    | .failed fault => handle fault
    | halt => throw halt

def result (job : Job α) (k : Desk) : Except Halt α × Desk := (ExceptT.run job).run k

end Job

abbrev Keeping (σ : Type) := ExceptT Halt (StateT σ (StateM Desk))

namespace Keeping

variable {σ α : Type}

def ofJob (job : Job α) : Keeping σ α :=
  ExceptT.mk fun kept k =>
    let (r, k') := job.result k
    ((r, kept), k')

instance : MonadLift Job (Keeping σ) := ⟨ofJob⟩

def kept : Keeping σ σ := ExceptT.mk fun kept k => ((.ok kept, kept), k)

def keep (kept : σ) : Keeping σ Unit := ExceptT.mk fun _ k => ((.ok (), kept), k)

def result (job : Keeping σ α) (kept : σ) (k : Desk) : (Except Halt α × σ) × Desk :=
  (ExceptT.run job kept).run k

def startingWith (kept : σ) (job : Keeping σ α) : Job α :=
  ExceptT.mk fun k =>
    let ((r, _), k') := job.result kept k
    (r, k')

end Keeping

end DocSite
