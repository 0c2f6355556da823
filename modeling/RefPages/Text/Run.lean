/-
Sets of code points given as runs, the form in which the tables of character properties are kept.
-/

namespace RefPages.Text

/-- The code points `first`, `first + step`, … up to `last`. -/
structure Run where
  first : Nat
  last : Nat
  step : Nat
  deriving DecidableEq, Repr

/-- Whether a code point lies in the run. -/
def Run.has (r : Run) (n : Nat) : Bool :=
  r.first ≤ n && n ≤ r.last && (n - r.first) % r.step = 0

/-- Whether a character lies in one of the runs. -/
def inRuns (runs : List Run) (c : Char) : Bool := runs.any (·.has c.toNat)

end RefPages.Text
