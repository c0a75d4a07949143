namespace DocSite.Text

def afterStart? : List Char → List Char → Option (List Char)
  | [], cs => some cs
  | _ :: _, [] => none
  | p :: ps, c :: cs => if p = c then afterStart? ps cs else none

def startsWith (start cs : List Char) : Bool := (afterStart? start cs).isSome

def endsWith (tail cs : List Char) : Bool := startsWith tail.reverse cs.reverse

def cutAt? (needle : List Char) : List Char → Option (List Char × List Char)
  | [] => if needle.isEmpty then some ([], []) else none
  | c :: cs =>
    match afterStart? needle (c :: cs) with
    | some rest => some ([], rest)
    | none => (cutAt? needle cs).map fun (before, after) => (c :: before, after)

def cutAtLast? (needle cs : List Char) : Option (List Char × List Char) :=
  (cutAt? needle.reverse cs.reverse).map fun (after, before) => (before.reverse, after.reverse)

def contains (needle cs : List Char) : Bool := (cutAt? needle cs).isSome

def consPiece (c : Char) : List (List Char) → List (List Char)
  | [] => [[c]]
  | piece :: pieces => (c :: piece) :: pieces

def splitChar (sep : Char) : List Char → List (List Char)
  | [] => [[]]
  | c :: cs => if c = sep then [] :: splitChar sep cs else consPiece c (splitChar sep cs)

/-- The pieces between the places where `needle` stands, after `skip` characters of one. -/
def splitFrom (needle : List Char) : Nat → List Char → List (List Char)
  | _, [] => [[]]
  | skip + 1, _ :: cs => splitFrom needle skip cs
  | 0, c :: cs =>
    if startsWith needle (c :: cs) then [] :: splitFrom needle (needle.length - 1) cs
    else consPiece c (splitFrom needle 0 cs)

def splitOn (needle cs : List Char) : List (List Char) := splitFrom needle 0 cs

def afterLast (sep : Char) (cs : List Char) : List Char :=
  ((splitChar sep cs).getLast?).getD []

/-- What a recogniser finds at the front of a text: how many characters it takes, and what is
written for them. -/
structure Hit where
  taken : Nat
  written : List Char

/-- Reads left to right, writing for each hit what the recogniser gives and every other character
as it is. `skip` characters of a hit are still to be passed over; `before` is the character last
read. A hit that takes nothing counts as none. -/
def substituteFrom (find : Option Char → List Char → Option Hit) :
    Nat → Option Char → List Char → List Char
  | _, _, [] => []
  | skip + 1, _, c :: cs => substituteFrom find skip (some c) cs
  | 0, before, c :: cs =>
    match find before (c :: cs) with
    | some ⟨taken + 1, written⟩ => written ++ substituteFrom find taken (some c) cs
    | _ => c :: substituteFrom find 0 (some c) cs

def substituteAfter (find : Option Char → List Char → Option Hit) (cs : List Char) : List Char :=
  substituteFrom find 0 none cs

def substitute (find : List Char → Option Hit) (cs : List Char) : List Char :=
  substituteAfter (fun _ ahead => find ahead) cs

/-- Writes `new` for each `old`, left to right. An empty `old` stands before every character and
at the end. -/
def replace (old new cs : List Char) : List Char :=
  if old.isEmpty then new ++ cs.flatMap (fun c => c :: new)
  else substitute (fun ahead => if startsWith old ahead then some ⟨old.length, new⟩ else none) cs

def replaceChar (old new : Char) (cs : List Char) : List Char :=
  cs.map fun c => if c = old then new else c

def onChars (f : List Char → List Char) (s : String) : String := String.ofList (f s.toList)

end DocSite.Text
