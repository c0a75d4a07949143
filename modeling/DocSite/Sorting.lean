import DocSite.Fault

namespace DocSite.StableSort

variable {α : Type} (le : α → α → Bool)

def insert (x : α) : List α → List α
  | [] => [x]
  | y :: ys => if le x y then x :: y :: ys else y :: insert x ys

/-- The values in order. Those that may stand either way keep the order they are in. -/
def sort (xs : List α) : List α := xs.foldr (insert le) []

end DocSite.StableSort

namespace DocSite.Ranking

/-! Sorting by a comparison that may fail and need not be an order. The first run is taken as it
stands, and every further value is put into its place by halving. -/

variable {α : Type} (less : α → α → Except Fault Bool)

/-- The values that go on a run behind `last`, in which each is less than the one before it or
none is. -/
def takeRun (falling : Bool) (last : α) : List α → Except Fault (List α × List α)
  | [] => .ok ([], [])
  | x :: xs => do
    if (← less x last) == falling then
      let (run, rest) ← takeRun falling x xs
      return (x :: run, rest)
    else return ([], x :: xs)

def firstRun : List α → Except Fault (List α × List α)
  | x :: y :: rest => do
    let falling ← less y x
    let (run, rest) ← takeRun less falling y rest
    let run := x :: y :: run
    return (if falling then run.reverse else run, rest)
  | xs => .ok (xs, [])

def insert (x : α) : Nat → List α → Except Fault (List α)
  | 0, xs => .ok (x :: xs)
  | fuel + 1, xs =>
    let middle := xs.length / 2
    match xs.drop middle with
    | [] => .ok [x]
    | y :: after => do
      if ← less x y then return (← insert x fuel (xs.take middle)) ++ y :: after
      else return xs.take middle ++ y :: (← insert x fuel after)

def sort (xs : List α) : Except Fault (List α) := do
  let (run, rest) ← firstRun less xs
  rest.foldlM (fun sorted x => insert less x sorted.length sorted) run

def sortDown (xs : List α) : Except Fault (List α) := do
  return (← sort less xs.reverse).reverse

end DocSite.Ranking
