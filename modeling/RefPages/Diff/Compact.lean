/-
Scripts made easier to read: runs of removed or added items are moved past kept ones that look the
same, so that they meet others of their kind and become one.
-/
import RefPages.Diff.Script

namespace RefPages.Diff

variable {α : Type} [DecidableEq α]

/-! ## Added items -/

/-- Added items moved up past kept ones, both from their ends: the kept items that are left, the
added items, and the kept items that they have moved past, in order. -/
def slideUp : List α → List α → List α → List α × List α × List α
  | [], added, passed => ([], added, passed)
  | item :: kept, added, passed =>
    match added with
    | [] => (item :: kept, [], passed)
    | last :: others =>
      if last = item then slideUp kept (others ++ [last]) (item :: passed)
      else (item :: kept, last :: others, passed)

/-- Added items moved down past kept ones: the kept items that are left, the added items, and the
kept items that they have moved past, in order. -/
def slideDown : List α → List α → List α → List α × List α × List α
  | [], added, passed => ([], added, passed)
  | item :: kept, added, passed =>
    match added with
    | [] => (item :: kept, [], passed)
    | first :: others =>
      if first = item then slideDown kept (others ++ [first]) (passed ++ [item])
      else (item :: kept, first :: others, passed)

/-- Kept items before the runs that follow. -/
def keepBefore (items : List α) (runs : List (Run α)) : List (Run α) :=
  if items.isEmpty then runs
  else
    match runs with
    | .kept more :: runs => .kept (items ++ more) :: runs
    | runs => .kept items :: runs

/-- Kept items after the runs before, the nearest of which comes first. -/
def keepAfter (items : List α) (runs : List (Run α)) : List (Run α) :=
  if items.isEmpty then runs
  else
    match runs with
    | .kept more :: runs => .kept (more ++ items) :: runs
    | runs => .kept items :: runs

/-- Added items moved up as far as possible: what is before them, the nearest first, the items
themselves, and what is after them. -/
def addedUp (added : List α) (after : List (Run α)) :
    List (Run α) → List (Run α) × List α × List (Run α)
  | [] => ([], added, after)
  | .removed items :: before => addedUp added (.removed items :: after) before
  | .added items :: before => addedUp (items ++ added) after before
  | .kept items :: before =>
    match slideUp items.reverse added.reverse [] with
    | ([], moved, passed) => addedUp moved.reverse (keepBefore passed after) before
    | (left, moved, passed) =>
      (.kept left.reverse :: before, moved.reverse, keepBefore passed after)

/-- Added items moved down as far as possible. -/
def addedDown (before : List (Run α)) (added : List α) :
    List (Run α) → List (Run α) × List α × List (Run α)
  | [] => (before, added, [])
  | .removed items :: after => addedDown (.removed items :: before) added after
  | .added items :: after => addedDown before (added ++ items) after
  | .kept items :: after =>
    match slideDown items added [] with
    | ([], moved, passed) => addedDown (keepAfter passed before) moved after
    | (left, moved, passed) => (keepAfter passed before, moved, .kept left :: after)

/-! ## Removed items -/

/-- Removed items moved up past added ones. -/
def removedUp (removed : List α) (after : List (Run α)) :
    List (Run α) → List (Run α) × List α × List (Run α)
  | .added items :: before => removedUp removed (.added items :: after) before
  | .removed items :: before => removedUp (items ++ removed) after before
  | before => (before, removed, after)

/-- Removed items moved down past added ones. -/
def removedDown (before : List (Run α)) (removed : List α) :
    List (Run α) → List (Run α) × List α × List (Run α)
  | .added items :: after => removedDown (.added items :: before) removed after
  | .removed items :: after => removedDown before (removed ++ items) after
  | after => (before, removed, after)

/-! ## Whole scripts -/

/-- A script with its removed items moved, the runs before the first that has still to be moved
being given, the nearest first. At most `count` runs are looked at. -/
def compactRemoved : Nat → List (Run α) → List (Run α) → List (Run α)
  | 0, before, after => before.reverse ++ after
  | _ + 1, before, [] => before.reverse
  | count + 1, before, .removed items :: after =>
    let (before, items, after) := removedUp items after before
    let (before, items, after) := removedDown before items after
    compactRemoved count (.removed items :: before) after
  | count + 1, before, run :: after => compactRemoved count (run :: before) after

/-- A script with its added items moved. -/
def compactAdded : Nat → List (Run α) → List (Run α) → List (Run α)
  | 0, before, after => before.reverse ++ after
  | _ + 1, before, [] => before.reverse
  | count + 1, before, .added items :: after =>
    let (before, items, after) := addedUp items after before
    let (before, items, after) := addedDown before items after
    compactAdded count (.added items :: before) after
  | count + 1, before, run :: after => compactAdded count (run :: before) after

/-- A script with its runs moved, first those of removed items and then those of added ones. -/
def compact (runs : List (Run α)) : List (Run α) :=
  let removedMoved := compactRemoved (runs.length + 1) [] runs
  compactAdded ((removedMoved.length + 1) * (removedMoved.length + 1)) [] removedMoved

end RefPages.Diff
