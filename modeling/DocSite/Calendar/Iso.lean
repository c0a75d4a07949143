import DocSite.Calendar.Date

namespace DocSite.Calendar

/-!
Dates with an optional time of day and offset. The text is read as bytes; any one character may
part date and time.
-/

abbrev Bytes := List Nat

def isDigit (b : Nat) : Bool := 48 ≤ b && b ≤ 57

def digits? (count : Nat) (bs : Bytes) : Option (Nat × Bytes) :=
  let ds := bs.take count
  if ds.length = count && ds.all isDigit then
    some (ds.foldl (fun n d => 10 * n + (d - 48)) 0, bs.drop count)
  else none

def hyphen : Nat := 45

def weekMark : Nat := 87

/-- Where the date ends. In `YYYYWww` an odd count of digits before the first other character
tells a weekday. -/
def dateEnd? (bs : Bytes) : Option Nat :=
  let len := bs.length
  let char (i : Nat) : Nat := bs.getD i 0
  if len = 7 then some 7
  else if char 4 = hyphen then
    if char 5 = weekMark then
      if len < 8 then none
      else if 8 < len && char 8 = hyphen then
        if len = 9 then none
        else if 10 < len && isDigit (char 10) then some 8
        else some 10
      else some 8
    else some 10
  else if char 4 = weekMark then
    let stop := 7 + ((bs.drop 7).takeWhile isDigit).length
    if stop < 9 then some stop else if stop % 2 = 0 then some 7 else some 8
  else some 8

def weekDate? (year : Nat) (parted : Bool) (len : Nat) (bs : Bytes) : Option Date := do
  let (week, rest) ← digits? 2 bs
  let used := 4 + (if parted then 1 else 0) + 1 + 2
  if used < len then
    match parted, rest with
    | true, b :: rest =>
      if b = hyphen then
        let (day, _) ← digits? 1 rest
        Date.ofWeek? year week day
      else none
    | true, [] => none
    | false, _ =>
      let (day, _) ← digits? 1 rest
      Date.ofWeek? year week day
  else Date.ofWeek? year week 1

def date? (len : Nat) (bs : Bytes) : Option Date := do
  let (year, rest) ← digits? 4 bs
  let parted := rest.head? = some hyphen
  let rest := if parted then rest.drop 1 else rest
  if rest.head? = some weekMark then weekDate? year parted len (rest.drop 1)
  else
    let (month, rest) ← digits? 2 rest
    let rest ← if parted then (if rest.head? = some hyphen then some (rest.drop 1) else none)
      else some rest
    let (day, rest) ← digits? 2 rest
    if bs.length - rest.length = len then some ⟨year, month, day⟩ else none

/-- How the fields of a clock time end: with nothing more to read, and whether something stands
after them, or with a fraction. -/
inductive ClockEnd
  | done (more : Bool)
  | fraction (rest : Bytes)

/-- Up to three fields of two digits. `more` says that something follows the given bytes; `colons`
says whether colons part the fields, once the first one is read. -/
def clockFields (more : Bool) : Nat → Option Bool → Bytes → Option (List Nat × ClockEnd)
  | 0, _, bs => some ([], .fraction bs)
  | n + 1, colons, bs => do
    let (v, rest) ← digits? 2 bs
    match rest with
    | [] => some ([v], .done more)
    | c :: rest =>
      let parted := colons.getD (c = 58)
      if rest.isEmpty then some ([v], .done true)
      else if parted && c = 58 then
        (clockFields more n (some parted) rest).map fun (vs, e) => (v :: vs, e)
      else if c = 46 || c = 44 then some ([v], .fraction rest)
      else if !parted then
        (clockFields more n (some parted) (c :: rest)).map fun (vs, e) => (v :: vs, e)
      else none

def clock? (more : Bool) (bs : Bytes) : Option (List Nat × Bool) := do
  let (fields, e) ← clockFields more 3 none bs
  match e with
  | .done trailing => some (fields, trailing)
  | .fraction rest =>
    let (_, rest) ← digits? (min 6 rest.length) rest
    some (fields, !(rest.dropWhile isDigit).isEmpty || more)

def isOffsetMark (b : Nat) : Bool := b = 43 || b = hyphen || b = 90

def seconds (fields : List Nat) : Nat :=
  fields.getD 0 0 * 3600 + fields.getD 1 0 * 60 + fields.getD 2 0

def isClock (fields : List Nat) : Bool :=
  fields.getD 0 0 < 24 && fields.getD 1 0 < 60 && fields.getD 2 0 < 60

/-- A time of day and its offset, which must be shorter than a day. Before an offset, one stray
character at the end of the time is let through. -/
def isTime (bs : Bytes) : Bool :=
  let time := bs.takeWhile (!isOffsetMark ·)
  match bs.drop time.length with
  | [] => (clock? false time).any fun (fields, more) => !more && isClock fields
  | mark :: offset =>
    (clock? true time).any fun (fields, _) =>
      isClock fields &&
        (if mark = 90 then offset.isEmpty
         else (clock? false offset).any fun (fields, more) => !more && seconds fields < 86400)

def charWidth (b : Nat) : Nat :=
  if b < 128 then 1 else if b / 16 = 14 then 3 else if b / 16 = 15 then 4 else 2

def readDate? (s : String) : Option Date := do
  let bs : Bytes := s.toUTF8.toList.map (·.toNat)
  if bs.length < 7 then none
  else
    let len ← dateEnd? bs
    let d ← date? len bs
    let rest := bs.drop len
    let timeOk :=
      match rest with
      | [] => true
      | b :: _ => isTime (rest.drop (charWidth b))
    if timeOk && d.isValid then some d else none

end DocSite.Calendar
