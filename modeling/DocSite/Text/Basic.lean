namespace DocSite.Text

/-- White space of any script, the four separator controls and the next-line control included. -/
def isBlank (c : Char) : Bool :=
  let n := c.toNat
  (9 ≤ n && n ≤ 13) || (28 ≤ n && n ≤ 32) || n == 0x85 || n == 0xa0 || n == 0x1680 ||
    (0x2000 ≤ n && n ≤ 0x200a) || n == 0x2028 || n == 0x2029 || n == 0x202f || n == 0x205f ||
    n == 0x3000

def dropTail (p : Char → Bool) (cs : List Char) : List Char :=
  (cs.reverse.dropWhile p).reverse

def stripLeft (cs : List Char) : List Char := cs.dropWhile isBlank

def stripRight (cs : List Char) : List Char := dropTail isBlank cs

def strip (cs : List Char) : List Char := stripRight (stripLeft cs)

def stripWhere (p : Char → Bool) (cs : List Char) : List Char :=
  dropTail p (cs.dropWhile p)

def isBlankLine (cs : List Char) : Bool := cs.all isBlank

def wordsFrom (word : List Char) : List Char → List (List Char)
  | [] => if word.isEmpty then [] else [word]
  | c :: cs =>
    if isBlank c then
      if word.isEmpty then wordsFrom [] cs else word :: wordsFrom [] cs
    else wordsFrom (word ++ [c]) cs

def words (cs : List Char) : List (List Char) := wordsFrom [] cs

def inBands (bands : List (Nat × Nat)) (n : Nat) : Bool :=
  bands.any fun b => b.1 ≤ n && n ≤ b.2

/-- A band of code points taken every `stride` steps, all moved by `shift`. -/
structure Shift where
  first : Nat
  last : Nat
  stride : Nat
  shift : Int

def Shift.covers (s : Shift) (n : Nat) : Bool :=
  s.first ≤ n && n ≤ s.last && (n - s.first) % s.stride == 0

def Shift.move (s : Shift) (n : Nat) : Nat := (n + s.shift).toNat

def zeros : List Nat := [
  48, 1632, 1776, 1984, 2406, 2534, 2662, 2790, 2918, 3046, 3174, 3302, 3430, 3558, 3664, 3792,
  3872, 4160, 4240, 6112, 6160, 6470, 6608, 6784, 6800, 6992, 7088, 7232, 7248, 42528, 43216,
  43264, 43472, 43504, 43600, 44016, 65296, 66720, 68912, 69734, 69872, 69942, 70096, 70384, 70736,
  70864, 71248, 71360, 71472, 71904, 72016, 72784, 73040, 73120, 92768, 92864, 93008, 120782,
  120792, 120802, 120812, 120822, 123200, 123632, 125264, 130032]

def digitValue? (c : Char) : Option Nat :=
  (zeros.find? fun z => z ≤ c.toNat && c.toNat < z + 10).map (c.toNat - ·)

def isDigit (c : Char) : Bool := (digitValue? c).isSome

def numeralDigits? : List Char → Option (List Nat)
  | [] => none
  | [c] => (digitValue? c).map ([·])
  | c :: '_' :: cs => do return (← digitValue? c) :: (← numeralDigits? cs)
  | c :: cs => do return (← digitValue? c) :: (← numeralDigits? cs)

def ofDigits (ds : List Nat) : Nat := ds.foldl (fun n d => 10 * n + d) 0

def maxNumeral : Nat := 4300

def readNat? (cs : List Char) : Option Nat := do
  let ds ← numeralDigits? cs
  if ds.length ≤ maxNumeral then some (ofDigits ds) else none

def isNumeralBlank (c : Char) : Bool := isBlank c && !(28 ≤ c.toNat && c.toNat ≤ 31)

/-- A whole number: white space around it, a sign, decimal digits of any script, and single
underscores between digits. -/
def readInt? (cs : List Char) : Option Int :=
  match stripWhere isNumeralBlank cs with
  | '-' :: ds => (readNat? ds).map fun n => -(n : Int)
  | '+' :: ds => (readNat? ds).map fun n => (n : Int)
  | ds => (readNat? ds).map fun n => (n : Int)

def hexDigit (n : Nat) : Char :=
  if n < 10 then Char.ofNat (48 + n) else Char.ofNat (87 + n)

def hex : Nat → Nat → List Char
  | 0, _ => []
  | width + 1, n => hex width (n / 16) ++ [hexDigit (n % 16)]

def isHalf (u : Nat) : Bool := 0xd800 ≤ u && u < 0xe000

def firstHeld : Nat := 0x10f800

/-- A half that stands alone is no character. It is held by one of the last characters there are,
which are given to no other use: where those are meant, their two halves stand for them. -/
def heldHalf (u : Nat) : Char := Char.ofNat (firstHeld + (u - 0xd800))

def half? (c : Char) : Option Nat :=
  if firstHeld ≤ c.toNat then some (0xd800 + (c.toNat - firstHeld)) else none

def joined? (hi lo : Nat) : Option Char :=
  let n := 0x10000 + (hi - 0xd800) * 0x400 + (lo - 0xdc00)
  if 0xd800 ≤ hi && hi < 0xdc00 && 0xdc00 ≤ lo && lo < 0xe000 && n < firstHeld then
    some (Char.ofNat n)
  else none

/-- The first stretch of halves in a text: the place of its first and of its last half, with the
first half itself. -/
def firstHalves? : Nat → List Char → Option (Nat × Nat × Nat)
  | _, [] => none
  | place, c :: cs =>
    match half? c with
    | some u => some (place, place + (cs.takeWhile fun d => (half? d).isSome).length, u)
    | none => firstHalves? (place + 1) cs

end DocSite.Text
