/-
How one list becomes another: a script of items that are kept, removed and added. The lists are
split where a shortest script, searched from both ends at once, passes through the middle, and each
part is treated alike.
-/

namespace RefPages.Diff

/-- Neighbouring items to which the same happens. -/
inductive Run (α : Type) where
  | kept (items : List α)
  | removed (items : List α)
  | added (items : List α)
  deriving Repr

section

variable {α : Type} [DecidableEq α]

/-! ## Common ends -/

/-- How many items two lists begin with that are the same. -/
def commonStart : List α → List α → Nat
  | a :: as, b :: bs => if a = b then commonStart as bs + 1 else 0
  | _, _ => 0

/-! ## The middle of a script -/

/-- How far along the first list a search has come on each diagonal. Diagonals are counted from
`offset` on. -/
structure Reach where
  offset : Nat
  values : Array Nat

namespace Reach

/-- No progress on any diagonal up to some distance. -/
def empty (offset : Nat) : Reach := ⟨offset, Array.replicate (2 * offset + 3) 0⟩

/-- The index of a diagonal. -/
def index (reach : Reach) (diagonal : Int) : Nat := (diagonal + reach.offset + 1).toNat

/-- How far the search has come on a diagonal. -/
def get (reach : Reach) (diagonal : Int) : Nat := reach.values.getD (reach.index diagonal) 0

/-- The search after progress on a diagonal. -/
def set (reach : Reach) (diagonal : Int) (value : Nat) : Reach :=
  { reach with values := reach.values.setIfInBounds (reach.index diagonal) value }

/-- Where a path with `cost` changes enters a diagonal: after one more change on a neighbouring
diagonal, whichever is further along. -/
def entry (reach : Reach) (cost diagonal : Int) : Nat :=
  let above := reach.get (diagonal + 1)
  let below := reach.get (diagonal - 1)
  if diagonal = -cost ∨ (diagonal ≠ cost ∧ below < above) then above else below + 1

end Reach

/-- The position in the second list that belongs to one in the first list on a diagonal. -/
def across (position : Nat) (diagonal : Int) : Nat := ((position : Int) - diagonal).toNat

/-- The diagonals of a search after `cost` changes, from the last to the first. -/
def diagonals (cost : Nat) : List Int :=
  (List.range (cost + 1)).map fun step : Nat => (cost : Int) - 2 * (step : Int)

/-- Two lists to be compared, also from their ends. -/
structure Pair (α : Type) where
  first : List α
  second : List α
  firstBack : List α
  secondBack : List α

/-- Two lists. -/
def Pair.of (first second : List α) : Pair α := ⟨first, second, first.reverse, second.reverse⟩

namespace Pair

variable (pair : Pair α)

/-- By how much the first list is longer. -/
def excess : Int := (pair.first.length : Int) - pair.second.length

/-- Whether an end of one search meets the other one. -/
def meets (position other : Nat) : Bool := position + other ≥ pair.first.length

/-- The search from the beginnings after one more change: the two searches with all diagonals
taken, or the place at which they meet. -/
def forward (cost : Nat) (ahead back : Reach) : List Int → Reach × Option (Nat × Nat)
  | [] => (ahead, none)
  | diagonal :: more =>
    let x := ahead.entry cost diagonal
    let y := across x diagonal
    let reached := x + commonStart (pair.first.drop x) (pair.second.drop y)
    let opposite := diagonal - pair.excess
    if pair.excess % 2 ≠ 0 && opposite.natAbs < cost && pair.meets reached (back.get (-opposite)) then
      (ahead, some (x, y))
    else forward cost (ahead.set diagonal reached) back more

/-- The search from the ends after one more change. -/
def backward (cost : Nat) (ahead back : Reach) : List Int → Reach × Option (Nat × Nat)
  | [] => (back, none)
  | diagonal :: more =>
    let x := back.entry cost diagonal
    let y := across x diagonal
    let common := commonStart (pair.firstBack.drop x) (pair.secondBack.drop y)
    let opposite := diagonal - pair.excess
    if pair.excess % 2 = 0 && opposite.natAbs ≤ cost &&
        pair.meets (x + common) (ahead.get (-opposite)) then
      (back, some (pair.first.length - (x + common), pair.second.length - (y + common)))
    else backward cost ahead (back.set diagonal (x + common)) more

/-- The place at which the two searches meet after at most `limit` changes each, of which `cost`
are made already. -/
def middleFrom (ahead back : Reach) (cost : Nat) : Nat → Option (Nat × Nat)
  | 0 => none
  | limit + 1 =>
    match pair.forward cost ahead back (diagonals cost) with
    | (_, some place) => some place
    | (ahead, none) =>
      match pair.backward cost ahead back (diagonals cost) with
      | (_, some place) => some place
      | (back, none) => middleFrom ahead back (cost + 1) limit

/-- The place in both lists through which a shortest script passes. -/
def middle : Option (Nat × Nat) :=
  let limit := (pair.first.length + pair.second.length + 1) / 2 + 1
  pair.middleFrom (.empty limit) (.empty limit) 0 limit

end Pair

/-! ## Scripts -/

/-- Items to which the same happens, if there are any. -/
def runOf (make : List α → Run α) (items : List α) : List (Run α) :=
  if items.isEmpty then [] else [make items]

/-- The script between two lists, which are split at most `depth` times in a row. -/
def scriptFrom : Nat → List α → List α → List (Run α)
  | 0, first, second => runOf .removed first ++ runOf .added second
  | depth + 1, first, second =>
    let start := commonStart first second
    let firstRest := first.drop start
    let secondRest := second.drop start
    let stop := commonStart firstRest.reverse secondRest.reverse
    let firstCore := firstRest.take (firstRest.length - stop)
    let secondCore := secondRest.take (secondRest.length - stop)
    let core :=
      if firstCore.isEmpty || secondCore.isEmpty then
        runOf .removed firstCore ++ runOf .added secondCore
      else
        match (Pair.of firstCore secondCore).middle with
        | some (x, y) =>
          scriptFrom depth (firstCore.take x) (secondCore.take y) ++
            scriptFrom depth (firstCore.drop x) (secondCore.drop y)
        | none => runOf .removed firstCore ++ runOf .added secondCore
    runOf .kept (first.take start) ++ core ++
      runOf .kept (firstRest.drop (firstRest.length - stop))

/-- The script that turns the first list into the second one. -/
def script (first second : List α) : List (Run α) :=
  scriptFrom (first.length + second.length + 1) first second

end

end RefPages.Diff
