import DocSite.Job
import DocSite.Options

namespace DocSite

structure Manual where
  about : String
  options : List OptionSpec

def helpOption : OptionSpec := ⟨["-h", "--help"], .help, false, "show this help message and exit"⟩

namespace OptionSpec

def slot (s : OptionSpec) : String :=
  let letters :=
    (s.title.toList.dropWhile (· = '-')).map fun c => if c = '-' then '_' else c.toUpper
  match s.kind with
  | .value => " " ++ String.ofList letters
  | _ => ""

def usage (s : OptionSpec) : String :=
  if s.isRequired then s.title ++ s.slot else "[" ++ s.title ++ s.slot ++ "]"

def heading (s : OptionSpec) : String := "  " ++ ", ".intercalate (s.names.map (· ++ s.slot))

end OptionSpec

namespace Manual

def usage (m : Manual) (program : String) : String :=
  " ".intercalate (("usage: " ++ program) :: m.options.map OptionSpec.usage)

def lineWidth : Nat := 78

/-- Puts words into lines of at most the given width, as long as a line has more than one word. -/
def fillLines (width : Nat) (line : String) : List String → List String
  | [] => [line]
  | word :: words =>
    if line.isEmpty then fillLines width word words
    else if line.length + 1 + word.length ≤ width then
      fillLines width (line ++ " " ++ word) words
    else line :: fillLines width word words

def spaces (n : Nat) : String := String.ofList (List.replicate n ' ')

def entry (column : Nat) (s : OptionSpec) : List String :=
  match fillLines (lineWidth - column) "" (s.note.splitOn " ") with
  | [] => [s.heading]
  | first :: more =>
    (s.heading ++ spaces (column - s.heading.length) ++ first) :: more.map (spaces column ++ ·)

def help (m : Manual) (program : String) : List String :=
  let longest := (m.options.map fun s => s.heading.length).foldl max 0
  [m.usage program, "", m.about, "", "options:"] ++ m.options.flatMap (entry (longest + 2))

/-- The options that a program is called with. Asking for help ends the program, and so does a
command line that cannot be understood. -/
def read (m : Manual) (program : String) (args : List String) : Job Options.Given := do
  match Options.parse m.options args with
  | .ok given => return given
  | .error .help =>
    (m.help program).forM Job.print
    Job.exit 0
  | .error (.refused why) =>
    Job.complain (m.usage program)
    Job.complain (program ++ ": error: " ++ why.message)
    Job.exit 2

end Manual

end DocSite
