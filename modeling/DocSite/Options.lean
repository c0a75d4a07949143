import DocSite.Literal
import DocSite.Text.Search

namespace DocSite

open Text

inductive OptionKind
  | help
  | flag
  | value
  deriving DecidableEq, Repr

structure OptionSpec where
  names : List String
  kind : OptionKind
  isRequired : Bool
  note : String
  deriving DecidableEq, Repr

namespace OptionSpec

def title (s : OptionSpec) : String := s.names.headD ""

def allNames (s : OptionSpec) : String := "/".intercalate s.names

end OptionSpec

namespace Options

inductive Refusal
  | ambiguous (arg : String) (names : List String)
  | needsValue (spec : OptionSpec)
  | unwanted (spec : OptionSpec) (value : String)
  | missing (specs : List OptionSpec)
  | leftOver (args : List String)
  deriving DecidableEq, Repr

def Refusal.message : Refusal → String
  | .ambiguous arg names =>
    "ambiguous option: " ++ arg ++ " could match " ++ ", ".intercalate names
  | .needsValue spec => "argument " ++ spec.allNames ++ ": expected one argument"
  | .unwanted spec value =>
    "argument " ++ spec.allNames ++ ": ignored explicit argument " ++ Literal.quotedText value
  | .missing specs =>
    "the following arguments are required: " ++ ", ".intercalate (specs.map OptionSpec.allNames)
  | .leftOver args => "unrecognized arguments: " ++ " ".intercalate args

inductive Argument
  | plain
  /-- An option by the name that was used, with the value in the same argument. -/
  | known (spec : OptionSpec) (name : List Char) (value? : Option (List Char))
  | unknown
  | divider
  deriving DecidableEq, Repr

def isNegativeNumber (cs : List Char) : Bool :=
  match cs with
  | '-' :: rest =>
    let body := if rest.getLast? = some '\n' then rest.dropLast else rest
    match splitChar '.' body with
    | [ds] => !ds.isEmpty && ds.all isDigit
    | [a, b] => a.all isDigit && !b.isEmpty && b.all isDigit
    | _ => false
  | _ => false

abbrev Use := OptionSpec × List Char × Option (List Char)

def named (specs : List OptionSpec) : List (List Char × OptionSpec) :=
  specs.flatMap fun s => s.names.map fun n => (n.toList, s)

/-- The options that an argument may stand for by a beginning of their names. A single letter after
a single hyphen may have its value right behind it. -/
def candidates (specs : List OptionSpec) (cs : List Char) : List Use :=
  match cs with
  | '-' :: '-' :: _ =>
    let (start, value?) := match cutAt? ['='] cs with
      | some (start, value) => (start, some value)
      | none => (cs, none)
    ((named specs).filter fun (n, _) => startsWith start n).map fun (n, s) => (s, n, value?)
  | _ =>
    (named specs).filterMap fun (n, s) =>
      if n = cs.take 2 then some (s, n, some (cs.drop 2))
      else if startsWith cs n then some (s, n, none)
      else none

def classify (specs : List OptionSpec) (arg : String) : Except Refusal Argument :=
  let cs := arg.toList
  let find (name : List Char) : Option OptionSpec := (named specs).lookup name
  if cs.head? ≠ some '-' || cs.length = 1 then .ok .plain
  else
    match find cs, (cutAt? ['='] cs).bind fun (n, v) => (find n).map fun s => (s, n, v) with
    | some s, _ => .ok (.known s cs none)
    | none, some (s, n, v) => .ok (.known s n (some v))
    | none, none =>
      match candidates specs cs with
      | [(s, n, value?)] => .ok (.known s n value?)
      | [] => .ok (if isNegativeNumber cs || cs.contains ' ' then .plain else .unknown)
      | uses => .error (.ambiguous arg (uses.map fun (_, n, _) => String.ofList n))

def classifyAll (specs : List OptionSpec) :
    List String → Except Refusal (List (String × Argument))
  | [] => .ok []
  | arg :: rest =>
    if arg = "--" then .ok ((arg, .divider) :: rest.map fun a => (a, .plain))
    else do
      let kind ← classify specs arg
      return (arg, kind) :: (← classifyAll specs rest)

inductive Value
  | set
  | text (s : String)
  /-- The divider in the place of a value, which leaves nothing. -/
  | nothing
  deriving DecidableEq, Repr

def Value.ofText (s : String) : Value := if s = "--" then .nothing else .text s

def Value.shown : Value → String
  | .set => "True"
  | .text s => s
  | .nothing => "[]"

abbrev Given := List (String × Value)

/-- Single letters that stand together behind one hyphen: the flags among them, and the last
option with what is left as its value. -/
def spread (specs : List OptionSpec) (s : OptionSpec) (name : List Char) :
    List Char → Except Refusal (List OptionSpec × OptionSpec × Option (List Char))
  | [] => if s.kind = .value then .ok ([], s, some []) else .error (.unwanted s "")
  | c :: cs =>
    if s.kind = .value then .ok ([], s, some (c :: cs))
    else if name[1]? = some '-' then .error (.unwanted s (String.ofList (c :: cs)))
    else
      match (named specs).lookup ['-', c] with
      | none => .error (.unwanted s (String.ofList (c :: cs)))
      | some next =>
        if cs.isEmpty then .ok ([s], next, none)
        else (spread specs next ['-', c] cs).map fun (flags, last, v) => (s :: flags, last, v)

inductive Ending
  | help
  | refused (why : Refusal)
  deriving DecidableEq, Repr

def note (options : List (OptionSpec × Value)) (given : Given) : Except Ending Given :=
  if options.any fun o => o.1.kind = .help then .error .help
  else .ok (given ++ options.map fun (s, v) => (s.title, v))

def take (specs : List OptionSpec) :
    List (String × Argument) → Given → List String → Except Ending (Given × List String)
  | [], given, left => .ok (given, left)
  | (_, .known s name value?) :: rest, given, left => do
    let (flags, last, value?) ← match value? with
      | none => pure ([], s, none)
      | some v => (spread specs s name v).mapError .refused
    let flags := flags.map fun s => (s, Value.set)
    match decide (last.kind = .value), value?, rest with
    | false, _, rest => take specs rest (← note (flags ++ [(last, .set)]) given) left
    | true, some v, rest =>
      take specs rest (← note (flags ++ [(last, .ofText (String.ofList v))]) given) left
    | true, none, (v, .plain) :: rest =>
      take specs rest (← note (flags ++ [(last, .ofText v)]) given) left
    | true, none, _ => .error (.refused (.needsValue last))
  | (arg, _) :: rest, given, left => take specs rest given (left ++ [arg])

def isGiven (given : Given) (title : String) : Bool := given.any (·.1 = title)

def value? (given : Given) (title : String) : Option Value :=
  (given.reverse.find? (·.1 = title)).map Prod.snd

/-- The options on a command line. What is required must be there, and nothing may be left over. -/
def parse (specs : List OptionSpec) (args : List String) : Except Ending Given := do
  let sorted ← (classifyAll specs args).mapError .refused
  let (given, left) ← take specs sorted [] []
  let missing := specs.filter fun s => s.isRequired && !isGiven given s.title
  if !missing.isEmpty then throw (.refused (.missing missing))
  if !left.isEmpty then throw (.refused (.leftOver left))
  return given

end Options

end DocSite
