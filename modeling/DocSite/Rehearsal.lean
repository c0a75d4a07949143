import DocSite.Api.Description
import DocSite.Program

namespace DocSite

/-! A program run on surroundings and a disk that are described, so that nothing outside is
touched. -/

def Moment.ofJson (v : Json) : Moment :=
  let part (i : Nat) : Nat := ((v.items[i]?).bind Json.int?).elim 0 Int.toNat
  ⟨part 0, part 1, part 2, part 3, part 4, part 5⟩

def pathAt (key : String) (v : Json) : Path := .ofString ((v.field key).strD "/")

def Surroundings.ofJson (program : String) (v : Json) : Except Fault Surroundings := do
  let formatter := ((v.textAt? "formatter").map Api.Formatter.leaves).getD .absent
  let fresh := (v.field "fresh").strings.map fun p => (Path.ofString p).place
  return { program := program
           aids := .ofJson formatter v
           world := ← Api.World.ofJson (v.field "world")
           package? := Site.Package.ofJson? ⟨"/", []⟩ "pixeltable" (v.field "world")
           shell := .ofJson v
           network := .ofJson (v.field "responses")
           renderer := .ofJson v
           isFresh := fun place => fresh.contains place
           now := .ofJson (v.field "now")
           cwd := pathAt "cwd" v
           home := pathAt "home" v
           scratch := pathAt "scratch" v
           isReaderFound := (v.field "on_path").isTrue }

def Disk.ofJson (v : Json) : Disk :=
  (describedFiles (v.field "files")).foldl (fun d (parts, text) => d.addFile parts text)
    (["cwd", "home", "scratch"].foldl (fun d key => d.fill (pathAt key v).place) .empty)

def Halt.json : Halt → Json
  | .failed fault => .obj [("failed", .str fault.message)]
  | .exited code => .obj [("exited", .int code)]
  | .interrupted => .str "interrupted"
  | .endless => .str "endless"

def Command.json (c : Command) : Json :=
  .obj [("words", .ofTexts c.words), ("directory", (c.directory?.map Json.str).getD .null)]

def Desk.json (k : Desk) : List (String × Json) :=
  [("out", .str k.out), ("err", .str k.err), ("commands", .arr (k.commands.map Command.json)),
    ("files", .obj ((k.disk.filesBelow []).map fun (parts, text) =>
      ("/".intercalate parts, .str text)))]

def Program.rehearse (name : String) (description : Json) (args : List String) (p : Program) :
    Except Fault Json := do
  let s ← Surroundings.ofJson name description
  let (r, desk) := (p.run s args).result (Desk.on (.ofJson description))
  let ending := match r with
    | .ok _ => Json.str "done"
    | .error halt => halt.json
  return .obj (("end", ending) :: desk.json)

end DocSite
