import DocSite.Text.Basic
import DocSite.Text.Letter
import DocSite.Text.Search

namespace DocSite

/-- How often a repetition is taken: as often as it can be, as seldom as it can be, or as often as
it can be without ever giving back. -/
inductive Manner
  | greedy
  | lazy
  | possessive
  deriving DecidableEq, Repr

inductive Pattern
  | empty
  | one (test : Char → Bool)
  /-- Characters that pass a test, one after the other. -/
  | span (manner : Manner) (least : Nat) (most? : Option Nat) (test : Char → Bool)
  /-- A place, told by the character before it and the text after it. -/
  | place (test : Option Char → List Char → Bool)
  | seq (first second : Pattern)
  | either (first second : Pattern)
  | many (manner : Manner) (least : Nat) (most? : Option Nat) (p : Pattern)
  | group (index : Nat) (p : Pattern)
  /-- What the group has matched, once more, up to what `fold` makes equal. -/
  | again (fold : Nat → Nat) (index : Nat)
  /-- One of two patterns, by whether the group has matched. -/
  | given (index : Nat) (yes no : Pattern)
  /-- A place where the pattern matches, or does not, what comes. -/
  | ahead (wanted : Bool) (p : Pattern)
  /-- A place where the pattern matches, or does not, the given number of characters before it. -/
  | behind (wanted : Bool) (width : Nat) (p : Pattern)
  /-- The first way in which the pattern matches, and no other. -/
  | once (p : Pattern)

namespace Pattern

/-- A place in a text: the characters before it, nearest first, with their number, and those after
it. A group is noted with the place where it was last opened, and with the place where it was last
closed and what it had matched. -/
structure Cursor where
  before : List Char
  offset : Nat
  after : List Char
  opened : List (Nat × Nat)
  closed : List (Nat × Nat × List Char)

namespace Cursor

def start (cs : List Char) : Cursor := ⟨[], 0, cs, [], []⟩

/-- What a group has matched. One that was opened behind its last end has not. -/
def group? (s : Cursor) (index : Nat) : Option (List Char) :=
  match s.opened.lookup index, s.closed.lookup index with
  | some first, some (last, taken) => if first ≤ last then some taken else none
  | _, _ => none

def step (s : Cursor) (c : Char) (cs : List Char) : Cursor :=
  { s with before := c :: s.before, offset := s.offset + 1, after := cs }

def back? : Nat → Cursor → Option Cursor
  | 0, s => some s
  | n + 1, s =>
    match s.before with
    | [] => none
    | c :: cs => back? n { s with before := cs, offset := s.offset - 1, after := c :: s.after }

def follow? (fold : Nat → Nat) : List Char → Cursor → Option Cursor
  | [], s => some s
  | t :: ts, s =>
    match s.after with
    | c :: cs => if fold c.toNat == fold t.toNat then follow? fold ts (s.step c cs) else none
    | [] => none

/-- The places that are reached over characters that pass a test, at most `limit` of them, the
farthest first. -/
def reach (test : Char → Bool) : Nat → Cursor → List Cursor → List Cursor
  | 0, s, found => s :: found
  | limit + 1, s, found =>
    match s.after with
    | c :: cs => if test c then reach test limit (s.step c cs) (s :: found) else s :: found
    | [] => s :: found

end Cursor

/-- Repeats a step at most `fuel` times and as often as it can, then goes on. A round that begins
where the last one did is not taken. -/
def often (step : (Cursor → Option Cursor) → Cursor → Option Cursor)
    (go : Cursor → Option Cursor) : Nat → Option Nat → Cursor → Option Cursor
  | 0, _, s => go s
  | fuel + 1, last?, s =>
    if last? = some s.offset then go s
    else (step (often step go fuel (some s.offset)) s).or (go s)

def seldom (step : (Cursor → Option Cursor) → Cursor → Option Cursor)
    (go : Cursor → Option Cursor) : Nat → Option Nat → Cursor → Option Cursor
  | 0, _, s => go s
  | fuel + 1, last?, s =>
    (go s).or
      (if last? = some s.offset then none
      else step (seldom step go fuel (some s.offset)) s)

def times (step : (Cursor → Option Cursor) → Cursor → Option Cursor)
    (go : Cursor → Option Cursor) : Nat → Cursor → Option Cursor
  | 0, s => go s
  | n + 1, s => step (times step go n) s

def timesOnce (step : Cursor → Option Cursor) : Nat → Cursor → Option Cursor
  | 0, s => some s
  | n + 1, s => (step s).bind (timesOnce step n)

def oftenOnce (step : Cursor → Option Cursor) : Nat → Option Nat → Cursor → Cursor
  | 0, _, s => s
  | fuel + 1, last?, s =>
    if last? = some s.offset then s
    else
      match step s with
      | some t => oftenOnce step fuel (some s.offset) t
      | none => s

/-- How many rounds of a repetition can make a difference beyond the least number. -/
def rounds (least : Nat) (most? : Option Nat) (s : Cursor) : Nat :=
  match most? with
  | some most => min (most - least) (s.after.length + 1)
  | none => s.after.length + 1

def spanEnds (manner : Manner) (least : Nat) (most? : Option Nat) (test : Char → Bool)
    (s : Cursor) : List Cursor :=
  let limit := most?.elim s.after.length (min s.after.length)
  let ends := (s.reach test limit []).filter fun t => s.offset + least ≤ t.offset
  match manner with
  | .greedy => ends
  | .lazy => ends.reverse
  | .possessive => ends.take 1

/-- Matches a pattern at a place in such a way that `go` accepts what follows, the ways being
tried in their order. -/
def run : Pattern → (Cursor → Option Cursor) → Cursor → Option Cursor
  | .empty, go, s => go s
  | .one test, go, s =>
    match s.after with
    | c :: cs => if test c then go (s.step c cs) else none
    | [] => none
  | .span manner least most? test, go, s => (spanEnds manner least most? test s).findSome? go
  | .place test, go, s => if test s.before.head? s.after then go s else none
  | .seq p q, go, s => p.run (q.run go) s
  | .either p q, go, s => (p.run go s).or (q.run go s)
  | .many manner least most? p, go, s =>
    match manner with
    | .greedy => times p.run (fun t => often p.run go (rounds least most? t) none t) least s
    | .lazy => times p.run (fun t => seldom p.run go (rounds least most? t) none t) least s
    | .possessive =>
      (timesOnce (p.run some) least s).bind fun t =>
        go (oftenOnce (p.run some) (rounds least most? t) none t)
  | .group index p, go, s =>
    p.run (fun t =>
        let taken := (t.before.take (t.offset - s.offset)).reverse
        go { t with closed := (index, t.offset, taken) :: t.closed })
      { s with opened := (index, s.offset) :: s.opened }
  | .again fold index, go, s => (s.group? index).bind fun taken => (s.follow? fold taken).bind go
  | .given index p q, go, s => if (s.group? index).isSome then p.run go s else q.run go s
  | .ahead wanted p, go, s =>
    match p.run some s, wanted with
    | some t, true => go { s with opened := t.opened, closed := t.closed }
    | none, false => go s
    | _, _ => none
  | .behind wanted width p, go, s =>
    match (s.back? width).bind (p.run some), wanted with
    | some t, true => go { s with opened := t.opened, closed := t.closed }
    | none, false => go s
    | _, _ => none
  | .once p, go, s => (p.run some s).bind go

def searchFrom (p : Pattern) : List Char → Cursor → Option Cursor
  | [], s => p.run some s
  | c :: cs, s => (p.run some s).or (p.searchFrom cs (s.step c cs))

def search (p : Pattern) (cs : List Char) : Option Cursor := p.searchFrom cs (.start cs)

def all : List Pattern → Pattern
  | [] => .empty
  | [p] => p
  | p :: ps => .seq p (all ps)

def anyChar : Pattern := .one fun _ => true

def this (c : Char) : Pattern := .one (· = c)

def text (cs : List Char) : Pattern := all (cs.map this)

def blanks : Pattern := .span .greedy 0 none Text.isBlank

def word : Pattern := .span .greedy 1 none Text.isWordChar

def textStart : Pattern := .place fun before? _ => before?.isNone

def textEnd : Pattern := .place fun _ after => after.isEmpty

def lastEnd : Pattern := .place fun _ after => after.isEmpty || after = ['\n']

def lineStart : Pattern := .place fun before? _ => before?.isNone || before? = some '\n'

def lineEnd : Pattern := .place fun _ after => after.isEmpty || after.head? = some '\n'

/-- A place where a word begins or ends, or one where none does. An empty text has neither. -/
def wordEdge (isWord : Char → Bool) (wanted : Bool) : Pattern :=
  .place fun before? after =>
    (before?.isSome || !after.isEmpty) &&
      (before?.any isWord != after.head?.any isWord) == wanted

def advanceAt (p : Pattern) (s : Cursor) : Option Cursor :=
  p.run (fun t => if s.offset < t.offset then some t else none) s

/-- Reads left to right, writing for each match what `write` gives and every other character as it
is. `skip` characters of a match are still to be passed over. A match that takes nothing may be
followed at its place by one that takes something. -/
def substituteFrom (p : Pattern) (write : Cursor → List Char) :
    Nat → List Char → List Char → Nat → List Char
  | 0, [], before, offset => ((p.run some ⟨before, offset, [], [], []⟩).map write).getD []
  | _ + 1, [], _, _ => []
  | skip + 1, c :: cs, before, offset =>
    p.substituteFrom write skip cs (c :: before) (offset + 1)
  | 0, c :: cs, before, offset =>
    let s : Cursor := ⟨before, offset, c :: cs, [], []⟩
    let found := p.run some s
    let idle := found.filter fun t => t.offset = offset
    let taking := if idle.isSome then p.advanceAt s else found
    (idle.map write).getD [] ++
      match taking with
      | some t =>
        write t ++ p.substituteFrom write (t.offset - offset - 1) cs (c :: before) (offset + 1)
      | none => c :: p.substituteFrom write 0 cs (c :: before) (offset + 1)

def substitute (p : Pattern) (write : Cursor → List Char) (cs : List Char) : List Char :=
  p.substituteFrom write 0 cs [] 0

end Pattern

end DocSite
