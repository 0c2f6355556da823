/-
Natural numbers written in decimal, and read as machine numbers are: a plus sign may precede
the digits, and what does not fit into 64 bits is refused.
-/
import RefPages.Text.Quoted

namespace RefPages.Text

/-- The first number that does not fit into 64 bits. -/
def wordLimit : Nat := 0x10000000000000000

/-- The machine number that a text writes. -/
def machineNat? (cs : List Char) : Option Nat :=
  match digitsValue? 10 ((after? ['+'] cs).getD cs) with
  | some n => if n < wordLimit then some n else none
  | none => none

end RefPages.Text
