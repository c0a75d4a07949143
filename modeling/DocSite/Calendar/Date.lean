namespace DocSite

structure Date where
  year : Nat
  month : Nat
  day : Nat
  deriving DecidableEq, Repr

namespace Date

def isLeap (year : Nat) : Bool := year % 4 = 0 && (year % 100 ≠ 0 || year % 400 = 0)

def monthLengths (year : Nat) : List Nat :=
  [31, if isLeap year then 29 else 28, 31, 30, 31, 30, 31, 31, 30, 31, 30, 31]

def isValid (d : Date) : Bool :=
  1 ≤ d.year && d.year ≤ 9999 && 1 ≤ d.month && 1 ≤ d.day &&
    ((monthLengths d.year)[d.month - 1]?).any (d.day ≤ ·)

/-- The number of days before the first of January, the first one of year 1 being day 1. -/
def daysBefore (year : Nat) : Nat :=
  let y := year - 1
  y * 365 + y / 4 - y / 100 + y / 400

def firstWeekday (year : Nat) : Nat := daysBefore year % 7

/-- The Monday of the week that holds the first Thursday, as a number of days. -/
def firstMonday (year : Nat) : Nat :=
  let first := daysBefore year + 1
  let w := firstWeekday year
  if 3 < w then first + 7 - w else first - w

def inMonths (month n : Nat) : List Nat → Nat × Nat
  | [] => (month, n + 1)
  | l :: ls => if n < l then (month, n + 1) else inMonths (month + 1) (n - l) ls

def ofDayNear (year day : Nat) : Date :=
  let y :=
    if day ≤ daysBefore year then year - 1
    else if daysBefore (year + 1) < day then year + 1
    else year
  let (m, d) := inMonths 1 (day - daysBefore y - 1) (monthLengths y)
  ⟨y, m, d⟩

/-- A day given by week and weekday. A year has a week 53 if it starts on a Thursday, or on a
Wednesday in a leap year. -/
def ofWeek? (year week weekday : Nat) : Option Date :=
  let w := firstWeekday year
  let weeks := if w = 3 || (w = 2 && isLeap year) then 53 else 52
  if 1 ≤ year && 1 ≤ week && week ≤ weeks && 1 ≤ weekday && weekday ≤ 7 then
    some (ofDayNear year (firstMonday year + (week - 1) * 7 + weekday - 1))
  else none

def monthNames : List String :=
  ["January", "February", "March", "April", "May", "June", "July", "August", "September",
    "October", "November", "December"]

def long (d : Date) : String :=
  let day := toString d.day
  monthNames.getD (d.month - 1) "" ++ " " ++ (if d.day < 10 then "0" ++ day else day) ++ ", " ++
    toString d.year

end Date

structure Moment where
  year : Nat
  month : Nat
  day : Nat
  hour : Nat
  minute : Nat
  second : Nat
  deriving DecidableEq, Repr

def padded (width n : Nat) : String :=
  let ds := Nat.toDigits 10 n
  String.ofList (List.replicate (width - ds.length) '0' ++ ds)

namespace Moment

def iso (t : Moment) : String :=
  padded 4 t.year ++ "-" ++ padded 2 t.month ++ "-" ++ padded 2 t.day ++ "T" ++
    padded 2 t.hour ++ ":" ++ padded 2 t.minute ++ ":" ++ padded 2 t.second

def plain (t : Moment) : String :=
  padded 4 t.year ++ "-" ++ padded 2 t.month ++ "-" ++ padded 2 t.day ++ " " ++
    padded 2 t.hour ++ ":" ++ padded 2 t.minute ++ ":" ++ padded 2 t.second

def stamp (t : Moment) : String :=
  padded 4 t.year ++ padded 2 t.month ++ padded 2 t.day ++ "_" ++
    padded 2 t.hour ++ padded 2 t.minute ++ padded 2 t.second

end Moment

end DocSite
