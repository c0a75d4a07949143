import DocSite.Text.Search

namespace DocSite.Text

inductive GlobPart
  | any
  | one (test : Char → Bool)

def globRanges : List Char → List (Char × Char)
  | a :: '-' :: b :: cs => (a, b) :: globRanges cs
  | a :: cs => (a, a) :: globRanges cs
  | [] => []

def inRanges (ranges : List (Char × Char)) (c : Char) : Bool :=
  ranges.any fun (a, b) => a ≤ c && c ≤ b

/-- The characters of a set. A range that runs downwards is left out; if an exclamation mark comes
first then, the set is the one of all others. -/
def globTest (negated : Bool) (ranges : List (Char × Char)) (c : Char) : Bool :=
  let kept := ranges.filter fun (a, b) => a ≤ b
  match negated || kept.length = ranges.length, kept with
  | false, ('!', '!') :: rest => !inRanges rest c
  | false, ('!', b) :: rest => !inRanges (('-', '-') :: (b, b) :: rest) c
  | _, _ => inRanges kept c != negated

/-- The set that a bracket opens, and what follows its end. A closing bracket that comes first
belongs to the set. -/
def globSet? (cs : List Char) : Option ((Char → Bool) × List Char) :=
  let (negated, body) := match cs with
    | '!' :: rest => (true, rest)
    | _ => (false, cs)
  let (start, tail) := match body with
    | ']' :: rest => ([']'], rest)
    | _ => ([], body)
  let members := tail.takeWhile (· ≠ ']')
  match tail.drop members.length with
  | [] => none
  | _ :: rest => some (globTest negated (globRanges (start ++ members)), rest)

def readGlob : Nat → List Char → List GlobPart
  | 0, _ => []
  | _, [] => []
  | fuel + 1, '*' :: cs => .any :: readGlob fuel cs
  | fuel + 1, '?' :: cs => .one (fun _ => true) :: readGlob fuel cs
  | fuel + 1, '[' :: cs =>
    match globSet? cs with
    | some (test, rest) => .one test :: readGlob fuel rest
    | none => .one (· = '[') :: readGlob fuel cs
  | fuel + 1, c :: cs => .one (· = c) :: readGlob fuel cs

def anyTail (test : List Char → Bool) : List Char → Bool
  | [] => test []
  | c :: cs => test (c :: cs) || anyTail test cs

def matchesGlob : List GlobPart → List Char → Bool
  | [], cs => cs.isEmpty
  | .any :: ps, cs => anyTail (matchesGlob ps) cs
  | .one test :: ps, c :: cs => test c && matchesGlob ps cs
  | .one _ :: _, [] => false

def fits (pattern name : List Char) : Bool := matchesGlob (readGlob pattern.length pattern) name

end DocSite.Text
