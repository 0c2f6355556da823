/-
The order of member names: neither case nor accents count, and a run of leading dollar signs
counts as one.
-/
import RefPages.Text.Accent
import RefPages.Text.LetterCase

namespace RefPages.Name

open RefPages.Text

/-- A leading run of dollar signs shortened to one. -/
def oneDollar (cs : List Char) : List Char :=
  if cs.head? = some '$' then '$' :: cs.dropWhile (· = '$') else cs

/-- The text that names are ordered by. -/
def sortKey (name : String) : List Char := lower (unaccented (oneDollar name.toList))

/-- Lists of characters in the order of a dictionary over code points. -/
def compareChars : List Char → List Char → Ordering
  | [], [] => .eq
  | [], _ :: _ => .lt
  | _ :: _, [] => .gt
  | a :: as, b :: bs =>
    match compare a.toNat b.toNat with
    | .eq => compareChars as bs
    | order => order

/-- The order of member names. -/
def compareNames (first second : String) : Ordering :=
  compareChars (sortKey first) (sortKey second)

/-- The order of texts by code points. -/
def compareText (first second : String) : Ordering :=
  compareChars first.toList second.toList

end RefPages.Name
