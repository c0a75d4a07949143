import DocSite.Fault
import DocSite.Pattern.Basic
import DocSite.Text.Case

namespace DocSite.Pattern

/-! What a pattern is written in, and the pattern that it stands for. -/

structure Flags where
  ignoreCase : Bool
  multiline : Bool
  dotAll : Bool
  /-- Kinds of characters have members among the first 128 characters only. -/
  ascii : Bool
  deriving DecidableEq, Repr

def Flags.none : Flags := ⟨false, false, false, false⟩

def Flags.set (on : Bool) (f : Flags) : Char → Flags
  | 'i' => { f with ignoreCase := on }
  | 'm' => { f with multiline := on }
  | 's' => { f with dotAll := on }
  | 'a' => { f with ascii := on }
  | 'u' => { f with ascii := !on }
  | _ => f

def Flags.change (f : Flags) (added removed : List Char) : Flags :=
  removed.foldl (Flags.set false) (added.foldl (Flags.set true) f)

inductive Kind
  | digit
  | blank
  | word
  deriving DecidableEq, Repr

def Kind.holds (ascii : Bool) (k : Kind) (c : Char) : Bool :=
  match k, ascii with
  | .digit, true => c.isDigit
  | .digit, false => Text.isDigit c
  | .blank, true => c = ' ' || (9 ≤ c.toNat && c.toNat ≤ 13)
  | .blank, false => Text.isBlank c
  | .word, true => c.isAlphanum || c = '_'
  | .word, false => Text.isWordChar c

inductive Member
  | code (n : Nat)
  | range (first last : Nat)
  | kind (k : Kind) (negated : Bool)
  deriving DecidableEq, Repr

def Flags.fold (f : Flags) (n : Nat) : Nat :=
  if !f.ignoreCase then n else if f.ascii then Text.foldAscii n else Text.foldCode n

def Member.holds (f : Flags) (n : Nat) : Member → Bool
  | .code m =>
    if f.ignoreCase && !f.ascii then (Text.kinOf (f.fold m)).contains n else f.fold m == n
  | .range first last =>
    let within (m : Nat) : Bool := first ≤ m && m ≤ last
    if !f.ignoreCase then within n
    else if f.ascii then (Text.unfoldAscii n).any within
    else (Text.kinOf n).any fun m => (Text.unfoldCode m).any within
  | .kind k negated => k.holds f.ascii (Char.ofNat n) != negated

inductive Anchor
  | textStart
  | textEnd
  | start
  | finish
  | edge (wanted : Bool)
  deriving DecidableEq, Repr

def Anchor.build (f : Flags) : Anchor → Pattern
  | .textStart => Pattern.textStart
  | .textEnd => Pattern.textEnd
  | .start => if f.multiline then lineStart else Pattern.textStart
  | .finish => if f.multiline then lineEnd else lastEnd
  | .edge wanted => wordEdge (Kind.word.holds f.ascii) wanted

structure Width where
  least : Nat
  most : Nat
  deriving DecidableEq, Repr

def Width.limit : Nat := 18446744073709551616

def Width.clamp (w : Width) : Width := ⟨min w.least limit, min w.most limit⟩

def Width.add (v w : Width) : Width := ⟨v.least + w.least, v.most + w.most⟩

def Width.join (v w : Width) : Width := ⟨min v.least w.least, max v.most w.most⟩

def Width.times (w : Width) (least : Nat) (most? : Option Nat) : Width :=
  ⟨w.least * least,
    match most? with
    | some most => w.most * most
    | none => if w.most = 0 then 0 else limit⟩

inductive Item
  | set (negated : Bool) (members : List Member)
  | any
  | anchor (a : Anchor)
  | branch (branches : List (List Item))
  | repeats (manner : Manner) (least : Nat) (most? : Option Nat) (body : List Item)
  /-- A parenthesis, with its number if it captures, and the flags that hold in it besides. -/
  | group (index? : Option Nat) (added removed : List Char) (body : List Item)
  | atomic (body : List Item)
  | look (isBehind wanted : Bool) (body : List Item)
  | again (index : Nat) (width : Width)
  | given (index : Nat) (yes no : List Item)

def Item.literal (n : Nat) : Item := .set false [.code n]

mutual

def Item.width : Item → Width
  | .set _ _ | .any => ⟨1, 1⟩
  | .anchor _ | .look _ _ _ => ⟨0, 0⟩
  | .branch branches => branchesWidth branches
  | .repeats _ least most? body => (itemsWidth body).times least most?
  | .group _ _ _ body | .atomic body => itemsWidth body
  | .again _ width => width
  | .given _ yes no => (itemsWidth yes).join (itemsWidth no)

def itemsWidth : List Item → Width
  | [] => ⟨0, 0⟩
  | item :: items => (item.width.add (itemsWidth items)).clamp

def branchesWidth : List (List Item) → Width
  | [] => ⟨Width.limit, 0⟩
  | branch :: branches => (itemsWidth branch).join (branchesWidth branches)

end

def farthest : Nat := 4294967295

/-- What is behind can only be told if it is always as long. -/
def behindWidth (body : List Item) : Except Fault Nat :=
  let w := itemsWidth body
  if farthest < w.least then .error (.badPattern "looks too much behind")
  else if w.least ≠ w.most then
    .error (.badPattern "look-behind requires fixed-width pattern")
  else .ok w.least

def repeated (manner : Manner) (least : Nat) (most? : Option Nat) : Pattern → Pattern
  | .one test => .span manner least most? test
  | p => .many manner least most? p

mutual

def Item.build (f : Flags) : Item → Except Fault Pattern
  | .set negated members =>
    .ok (.one fun c => members.any (Member.holds f (f.fold c.toNat)) != negated)
  | .any => .ok (.one fun c => f.dotAll || c ≠ '\n')
  | .anchor a => .ok (a.build f)
  | .branch branches => buildAny f branches
  | .repeats manner least most? body => do
    return repeated manner least most? (← buildAll f body)
  | .group index? added removed body => do
    let p ← buildAll (f.change added removed) body
    return index?.elim p fun index => .group index p
  | .atomic body => do return .once (← buildAll f body)
  | .look false wanted body => do return .ahead wanted (← buildAll f body)
  | .look true wanted body => do
    let width ← behindWidth body
    return .behind wanted width (← buildAll f body)
  | .again index _ => .ok (.again f.fold index)
  | .given index yes no => do return .given index (← buildAll f yes) (← buildAll f no)

def buildAll (f : Flags) : List Item → Except Fault Pattern
  | [] => .ok .empty
  | [item] => item.build f
  | item :: items => do
    let p ← item.build f
    return .seq p (← buildAll f items)

def buildAny (f : Flags) : List (List Item) → Except Fault Pattern
  | [] => .ok .empty
  | [branch] => buildAll f branch
  | branch :: branches => do
    let p ← buildAll f branch
    return .either p (← buildAny f branches)

end

end DocSite.Pattern
