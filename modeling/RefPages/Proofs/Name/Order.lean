/-
Orders of names and texts. Each compares keys, lists of characters, in the order of a dictionary, so
that each is a total order of the keys, and sorting by it sorts.
-/
import RefPages.Name.Order
import Mathlib.Tactic

namespace RefPages.Name

/-- Comparing by a key compares as the keys do. -/
theorem transCmp_on {α β : Type} (cmp : β → β → Ordering) [Std.TransCmp cmp] (key : α → β) :
    Std.TransCmp fun a b => cmp (key a) (key b) where
  eq_swap := Std.OrientedCmp.eq_swap
  isLE_trans := Std.TransCmp.isLE_trans

theorem compareChars_eq_compareLex :
    compareChars = List.compareLex fun a b : Char => compare a.toNat b.toNat := by
  funext as bs
  induction as generalizing bs with
  | nil => cases bs <;> rfl
  | cons a as ih =>
    cases bs with
    | nil => rfl
    | cons b bs =>
      rw [compareChars, List.compareLex]
      cases compare a.toNat b.toNat <;> simp [ih]

instance : Std.TransCmp compareChars := by
  have hchar : Std.TransCmp fun a b : Char => compare a.toNat b.toNat := transCmp_on compare Char.toNat
  rw [compareChars_eq_compareLex]
  infer_instance

instance : Std.TransCmp compareText := transCmp_on compareChars String.toList

instance : Std.TransCmp compareNames := transCmp_on compareChars sortKey

/-- Sorting by an order sorts. -/
theorem pairwise_mergeSort {α : Type} (cmp : α → α → Ordering) [Std.TransCmp cmp] (as : List α) :
    (as.mergeSort fun a b => (cmp a b).isLE).Pairwise fun a b => (cmp a b).isLE = true := by
  refine List.pairwise_mergeSort (fun a b c => Std.TransCmp.isLE_trans) (fun a b => ?_) as
  have hswap : cmp b a = (cmp a b).swap := Std.OrientedCmp.eq_swap
  rw [hswap]
  cases cmp a b <;> rfl

end RefPages.Name
