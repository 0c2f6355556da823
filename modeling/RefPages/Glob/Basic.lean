/-
Patterns for paths and what they match. A pattern is a list of parts, and matching follows all
ways through them at once: each part takes the rests of the path that are still unread to those
that are left after it. Paths are read byte by byte.
-/

namespace RefPages

/-- A part of a pattern. -/
inductive GlobPart where
  | char (c : Char)
  /-- Any one byte. -/
  | any
  /-- Any bytes. -/
  | many
  /-- Any folders at the beginning, or none. -/
  | leading
  /-- A slash and all that follows. -/
  | trailing
  /-- A slash, or any folders between two slashes. -/
  | between
  /-- One byte in the ranges or, when negated, outside of them. -/
  | oneOf (negated : Bool) (ranges : List (Char × Char))
  /-- One of several patterns. -/
  | group (branches : List (List GlobPart))
  deriving Repr

/-- A pattern for paths. -/
structure Glob where
  parts : List GlobPart

namespace Glob

/-- The byte of a slash. -/
def slash : UInt8 := 0x2F

/-- The bytes of a character in UTF-8. -/
def bytesOf (c : Char) : List UInt8 := (String.singleton c).toUTF8.toList

/-! ## Single parts -/

/-- All ends of a list, beginning with the list itself. -/
def ends {α : Type} : List α → List (List α)
  | [] => [[]]
  | a :: as => (a :: as) :: ends as

/-- The ends up to the first slash. -/
def endsInFolder : List UInt8 → List (List UInt8)
  | [] => [[]]
  | b :: bs => (b :: bs) :: if b = slash then [] else endsInFolder bs

/-- The ends after a slash. -/
def endsAfterSlash : List UInt8 → List (List UInt8)
  | [] => []
  | b :: bs => if b = slash then bs :: endsAfterSlash bs else endsAfterSlash bs

/-- What is left after certain bytes at the beginning. -/
def afterBytes : List UInt8 → List UInt8 → List (List UInt8)
  | [], bs => [bs]
  | _ :: _, [] => []
  | a :: as, b :: bs => if a = b then afterBytes as bs else []

/-- The bytes that a range of characters stands for. The ends of the range count byte by byte, so
that only the last byte of the first character and the first of the last one span a range. -/
def byteRanges (range : Char × Char) : List (UInt8 × UInt8) :=
  if range.1 = range.2 then (bytesOf range.1).map fun b => (b, b)
  else
    let first := bytesOf range.1
    let last := bytesOf range.2
    match first.getLast?, last.head? with
    | some low, some high =>
      first.dropLast.map (fun b => (b, b)) ++ (low, high) :: last.tail.map fun b => (b, b)
    | _, _ => []

/-- Whether a byte lies in one of the ranges. -/
def inRanges (ranges : List (Char × Char)) (b : UInt8) : Bool :=
  (ranges.flatMap byteRanges).any fun (low, high) => low ≤ b && b ≤ high

/-! ## Empty patterns -/

mutual

/-- Whether a part is a group without a pattern that says anything. -/
def saysNothing : GlobPart → Bool
  | .group branches => allSayNothing branches
  | _ => false

/-- Whether no part of a pattern says anything. -/
def partsSayNothing : List GlobPart → Bool
  | [] => true
  | part :: parts => saysNothing part && partsSayNothing parts

/-- Whether no branch of a group says anything. -/
def allSayNothing : List (List GlobPart) → Bool
  | [] => true
  | branch :: branches => partsSayNothing branch && allSayNothing branches

end

/-! ## Matching -/

section

/- Whether a slash is matched by a slash only. -/
variable (strict : Bool)

mutual

/-- What is left of a path after a part. A group matches one of those of its branches that say
anything. -/
def restsAfter : GlobPart → List UInt8 → List (List UInt8)
  | .char c, bs => afterBytes (bytesOf c) bs
  | .any, bs =>
    match bs with
    | [] => []
    | b :: bs => if strict && b = slash then [] else [bs]
  | .many, bs => if strict then endsInFolder bs else ends bs
  | .leading, bs => bs :: endsAfterSlash bs
  | .trailing, bs => (afterBytes [slash] bs).flatMap ends
  | .between, bs => (afterBytes [slash] bs).flatMap fun bs => bs :: endsAfterSlash bs
  | .oneOf negated ranges, bs =>
    match bs with
    | [] => []
    | b :: bs => if inRanges ranges b = negated then [] else [bs]
  | .group branches, bs =>
    if allSayNothing branches then [bs] else restsAfterBranches branches bs

/-- What is left of a path after one of several patterns. -/
def restsAfterBranches : List (List GlobPart) → List UInt8 → List (List UInt8)
  | [], _ => []
  | branch :: branches, bs =>
    (if partsSayNothing branch then [] else restsAfterParts branch [bs]) ++
      restsAfterBranches branches bs

/-- What is left of paths after a pattern. -/
def restsAfterParts : List GlobPart → List (List UInt8) → List (List UInt8)
  | [], rests => rests
  | part :: parts, rests =>
    restsAfterParts parts (rests.flatMap fun bs => restsAfter part bs).eraseDups

end

/-- Whether the pattern matches a path. Two stars alone match all paths. -/
def accepts (glob : Glob) (path : List Char) : Bool :=
  match glob.parts with
  | [.leading] => true
  | parts => (restsAfterParts strict parts [path.flatMap bytesOf]).contains []

end

/-! ## Ranges -/

mutual

/-- Whether all ranges of bytes in a part have their ends in order. -/
def hasOrderedRanges : GlobPart → Bool
  | .oneOf _ ranges => (ranges.flatMap byteRanges).all fun (low, high) => low ≤ high
  | .group branches => branchesHaveOrderedRanges branches
  | _ => true

/-- Whether all ranges of bytes in a pattern have their ends in order. -/
def partsHaveOrderedRanges : List GlobPart → Bool
  | [] => true
  | part :: parts => hasOrderedRanges part && partsHaveOrderedRanges parts

/-- Whether all ranges of bytes in several patterns have their ends in order. -/
def branchesHaveOrderedRanges : List (List GlobPart) → Bool
  | [] => true
  | branch :: branches => partsHaveOrderedRanges branch && branchesHaveOrderedRanges branches

end

/-- Whether the pattern can be matched: all ranges of bytes have their ends in order. -/
def isOrdered (glob : Glob) : Bool := partsHaveOrderedRanges glob.parts

end Glob

end RefPages
