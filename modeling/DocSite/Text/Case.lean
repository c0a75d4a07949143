import DocSite.Text.CaseTable

namespace DocSite.Text

def isCased (c : Char) : Bool :=
  if c.toNat < 128 then c.isAlpha else inBands wideCased c.toNat

def isUncounted (c : Char) : Bool :=
  if c.toNat < 128 then c == '\x27' || c == '.' || c == ':' || c == '^' || c == '\x60'
  else inBands wideUncounted c.toNat

def isCapital (c : Char) : Bool :=
  if c.toNat < 128 then c.isUpper else upperBands.any (·.covers c.toNat)

def shiftChar (table : List Shift) (c : Char) : Char :=
  match table.find? (·.covers c.toNat) with
  | some s => Char.ofNat (s.move c.toNat)
  | none => c

/-- A capital sigma is written as a final one when a letter stands before it and none after it. -/
def isFinalSigma (before after : List Char) : Bool :=
  (before.dropWhile isUncounted).head?.any isCased &&
    !(after.dropWhile isUncounted).head?.any isCased

def lowerChar (before : List Char) (c : Char) (after : List Char) : List Char :=
  if c.toNat < 128 then [c.toLower]
  else if c.toNat == 0x130 then ['i', Char.ofNat 0x307]
  else if c.toNat == 0x3a3 then [Char.ofNat (if isFinalSigma before after then 0x3c2 else 0x3c3)]
  else [shiftChar lowerShifts c]

def lowerFrom (before : List Char) : List Char → List Char
  | [] => []
  | c :: cs => lowerChar before c cs ++ lowerFrom (c :: before) cs

def lower (cs : List Char) : List Char := lowerFrom [] cs

def titleChar (c : Char) : List Char :=
  if c.toNat < 128 then [c.toUpper]
  else
    match titleExpansions.find? (·.1 == c.toNat) with
    | some (_, ns) => ns.map Char.ofNat
    | none => [shiftChar titleShifts c]

def titleFrom (before : List Char) : List Char → List Char
  | [] => []
  | c :: cs =>
    (if before.head?.any isCased then lowerChar before c cs else titleChar c) ++
      titleFrom (c :: before) cs

def title (cs : List Char) : List Char := titleFrom [] cs

def foldCode (n : Nat) : Nat :=
  if n < 128 then (if 65 ≤ n && n ≤ 90 then n + 32 else n)
  else if n == 0x130 then 0x69
  else
    match lowerShifts.find? (·.covers n) with
    | some s => s.move n
    | none => n

def foldAscii (n : Nat) : Nat := if 65 ≤ n && n ≤ 90 then n + 32 else n

def unfoldAscii (n : Nat) : List Nat := if 97 ≤ n && n ≤ 122 then [n, n - 32] else [n]

def unfoldCode (n : Nat) : List Nat :=
  let moved := lowerShifts.filterMap fun s =>
    let m := ((n : Int) - s.shift).toNat
    if s.covers m && s.move m == n then some m else none
  (if foldCode n == n then unfoldAscii n else []) ++ (if n == 0x69 then [0x130] else []) ++ moved

/-- Small letters that count as one letter though none is the other's small form. -/
def letterKin : List (List Nat) :=
  [[105, 305], [115, 383], [181, 956], [837, 953, 8126], [912, 8147], [944, 8163], [946, 976],
    [949, 1013], [952, 977], [954, 1008], [960, 982], [961, 1009], [962, 963], [966, 981],
    [1074, 7296], [1076, 7297], [1086, 7298], [1089, 7299], [1090, 7300, 7301], [1098, 7302],
    [1123, 7303], [7304, 42571], [7777, 7835], [64261, 64262]]

def kinOf (n : Nat) : List Nat := (letterKin.find? (·.contains n)).getD [n]

end DocSite.Text
