namespace DocSite

/-- Numbers of double precision: `finite negative m e` stands for `m · 2^e` with its sign, where
`m < 2^53` and `-1074 ≤ e ≤ 971`. -/
inductive Double
  | finite (negative : Bool) (mantissa : Nat) (exponent : Int)
  | infinite (negative : Bool)
  | undefined
  deriving DecidableEq, Repr

namespace Double

/-- The quotient rounded to the nearest whole number, a half to the even one. -/
def roundDiv (num den : Nat) : Nat :=
  let q := num / den
  let r := num % den
  if 2 * r < den then q
  else if den < 2 * r then q + 1
  else if q % 2 = 0 then q else q + 1

def inUnits (num den : Nat) (e : Int) : Nat × Nat :=
  if 0 ≤ e then (num, den * Nat.pow 2 e.toNat) else (num * Nat.pow 2 (-e).toNat, den)

def exponentFor (num den : Nat) : Int :=
  let guess : Int := (Nat.log2 num : Int) - (Nat.log2 den : Int) - 53
  let fits (e : Int) : Bool :=
    let (n, d) := inUnits num den e
    n / d < Nat.pow 2 53
  let e := if fits guess then guess else if fits (guess + 1) then guess + 1 else guess + 2
  if e < -1074 then -1074 else e

/-- The number nearest to `num / den`, a tie to the even mantissa. -/
def ofRatio (negative : Bool) (num den : Nat) : Double :=
  if num = 0 then .finite negative 0 (-1074)
  else
    let e := exponentFor num den
    let (n, d) := inUnits num den e
    let m := roundDiv n d
    let (m, e) := if m = Nat.pow 2 53 then (Nat.pow 2 52, e + 1) else (m, e)
    if 971 < e then .infinite negative else .finite negative m e

/-- The number nearest to `digits · 10^scale`. Beyond the scales below the result is the same for
all digits but zero. -/
def ofDecimal (negative : Bool) (digits : Nat) (scale : Int) : Double :=
  if digits = 0 || scale < -(Nat.log2 digits + 331 : Nat) then .finite negative 0 (-1074)
  else if 310 < scale then .infinite negative
  else if 0 ≤ scale then ofRatio negative (digits * Nat.pow 10 scale.toNat) 1
  else ofRatio negative digits (Nat.pow 10 (-scale).toNat)

def ratio (mantissa : Nat) (exponent : Int) : Nat × Nat :=
  if 0 ≤ exponent then (mantissa * Nat.pow 2 exponent.toNat, 1)
  else (mantissa, Nat.pow 2 (-exponent).toNat)

/-- The position of the decimal point: the least `k` with `num / den < 10^k`, searched upwards. -/
def pointFrom (num den : Nat) : Nat → Int → Int
  | 0, k => k
  | fuel + 1, k =>
    let below := if 0 ≤ k then num < den * Nat.pow 10 k.toNat else num * Nat.pow 10 (-k).toNat < den
    if below then k else pointFrom num den fuel (k + 1)

/-- The decimal point found from the binary size: 1233/4096 is just above the logarithm of two. -/
def point (num den : Nat) : Int :=
  let bits : Int := (Nat.log2 num : Int) - (Nat.log2 den : Int)
  pointFrom num den 8 ((bits - 1) * 1233 / 4096 - 2)

def decimalOf? (mantissa : Nat) (exponent : Int) (count : Nat) : Option (Nat × Int) :=
  let (num, den) := ratio mantissa exponent
  let scale : Int := point num den - count
  let (n, d) :=
    if 0 ≤ scale then (num, den * Nat.pow 10 scale.toNat)
    else (num * Nat.pow 10 (-scale).toNat, den)
  let down := n / d
  let readsBack (digits : Nat) : Bool :=
    ofDecimal false digits scale == .finite false mantissa exponent
  match readsBack down, readsBack (down + 1) with
  | true, true => some (roundDiv n d, scale)
  | true, false => some (down, scale)
  | false, true => some (down + 1, scale)
  | false, false => none

def shortest (mantissa : Nat) (exponent : Int) : Nat × Int :=
  if mantissa = 0 then (0, 0)
  else ((List.range 17).findSome? fun i => decimalOf? mantissa exponent (i + 1)).getD (0, 0)

def trimZeros : Nat → Nat → Int → Nat × Int
  | 0, digits, scale => (digits, scale)
  | fuel + 1, digits, scale =>
    if digits ≠ 0 ∧ digits % 10 = 0 then trimZeros fuel (digits / 10) (scale + 1)
    else (digits, scale)

/-- Positional up to sixteen digits before the point and three zeros after it, else with an
exponent of at least two digits. -/
def layOut (digits : Nat) (scale : Int) : String :=
  let (digits, scale) := trimZeros 20 digits scale
  let text := toString digits
  let point : Int := text.length + scale
  if digits = 0 then "0.0"
  else if -4 < point ∧ point ≤ 16 then
    if point ≤ 0 then "0." ++ String.ofList (List.replicate (-point).toNat '0') ++ text
    else if 0 ≤ scale then text ++ String.ofList (List.replicate scale.toNat '0') ++ ".0"
    else
      String.ofList (text.toList.take point.toNat) ++ "." ++
        String.ofList (text.toList.drop point.toNat)
  else
    let power := point - 1
    let size := toString power.natAbs
    let head := String.ofList (text.toList.take 1)
    let tail := text.toList.drop 1
    head ++ (if tail.isEmpty then "" else "." ++ String.ofList tail) ++
      (if power < 0 then "e-" else "e+") ++ (if size.length < 2 then "0" ++ size else size)

def text : Double → String
  | .finite negative m e =>
    let (digits, scale) := shortest m e
    (if negative then "-" else "") ++ layOut digits scale
  | .infinite negative => if negative then "-inf" else "inf"
  | .undefined => "nan"

def ratio? : Double → Option (Int × Nat)
  | .finite negative m e =>
    let (num, den) := ratio m e
    some (if negative then -(num : Int) else num, den)
  | _ => none

end Double

end DocSite
