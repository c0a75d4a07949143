import DocSite.Rehearsal

/-! The command line. It is given the name of a program and the program's arguments, reads a
description of the disk and of all that lies outside from standard input, and writes how the
program ends and what it leaves behind. -/

namespace DocSite

partial def readAll (input : IO.FS.Stream) (read : String) : IO String := do
  let line ← input.getLine
  if line.isEmpty then return read else readAll input (read ++ line)

def usage : String :=
  "usage: docsite PROGRAM [ARGUMENT ...] < DESCRIPTION\nprograms: " ++
    ", ".intercalate (Program.byName.map Prod.fst)

def rehearseText (name : String) (p : Program) (args : List String) (text : String) :
    Except Fault String := do
  let told ← p.rehearse name (← Json.parse text) args
  return told.fileText

end DocSite

open DocSite in
def main (args : List String) : IO UInt32 := do
  match args with
  | [] =>
    IO.eprintln usage
    return 2
  | name :: args =>
    match Program.named? name with
    | none =>
      IO.eprintln usage
      return 2
    | some p =>
      match rehearseText name p args (← readAll (← IO.getStdin) "") with
      | .ok told =>
        IO.println told
        return 0
      | .error fault =>
        IO.eprintln fault.message
        return 1
