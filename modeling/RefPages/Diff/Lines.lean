/-
The difference between two texts, line by line: what is removed comes before what is added.
-/
import RefPages.Diff.Compact

namespace RefPages.Diff

/-- What happens to a line. -/
inductive Change where
  | kept
  | removed
  | added
  deriving DecidableEq, Repr

/-! ## Lines -/

/-- The lines of a text, with the characters that end them. -/
def linesOf : List Char → List (List Char)
  | [] => []
  | '\r' :: '\n' :: cs => ['\r', '\n'] :: linesOf cs
  | c :: cs =>
    if c = '\n' ∨ c = '\r' then [c] :: linesOf cs
    else
      match linesOf cs with
      | line :: lines => (c :: line) :: lines
      | [] => [[c]]

/-- A line with a line feed if nothing ends it. -/
def endedLine (line : List Char) : List Char :=
  if line.getLast? = some '\n' ∨ line.getLast? = some '\r' then line else line ++ ['\n']

/-! ## Changes -/

/-- Changes in order, with what was removed and what was added since the last line that was
kept. -/
def changesFrom {α : Type} (removed added : List α) : List (Run α) → List (Change × α)
  | [] => removed.map (.removed, ·) ++ added.map (.added, ·)
  | .removed items :: runs => changesFrom (removed ++ items) added runs
  | .added items :: runs => changesFrom removed (added ++ items) runs
  | .kept items :: runs =>
    removed.map (.removed, ·) ++ added.map (.added, ·) ++ items.map (.kept, ·) ++
      changesFrom [] [] runs

/-- What happens to the lines of two texts when the first becomes the second. -/
def lineChanges (first second : String) : List (Change × String) :=
  let runs := compact (script (linesOf first.toList) (linesOf second.toList))
  (changesFrom [] [] runs).map fun (change, line) => (change, String.ofList (endedLine line))

end RefPages.Diff
