/-
Paths as they are written, and the steps that they consist of. Two paths that are written in
different ways can have the same steps.
-/
import RefPages.Name.Order
import RefPages.Text.Chars

namespace RefPages

open Text

/-- A path as it is written. -/
structure Path where
  chars : List Char
  deriving DecidableEq, Repr

namespace Path

/-- One step of a path. -/
inductive Step where
  /-- To the root of all folders. -/
  | root
  /-- Nowhere, at the beginning of a path. -/
  | here
  /-- To the folder around. -/
  | up
  /-- To what a folder has under this name. -/
  | name (chars : List Char)
  deriving DecidableEq, Repr

/-- The path written in this way. -/
def ofString (text : String) : Path := ⟨text.toList⟩

/-- How the path is written. -/
def text (path : Path) : String := String.ofList path.chars

/-- Whether the path begins at the root. -/
def isAbsolute (path : Path) : Bool := path.chars.head? = some '/'

/-- The path from one place on: an absolute path stands for itself, and another one follows after
a slash. -/
def join (path next : Path) : Path :=
  if next.isAbsolute then next
  else if path.chars = [] ∨ path.chars.getLast? = some '/' then ⟨path.chars ++ next.chars⟩
  else ⟨path.chars ++ '/' :: next.chars⟩

/-! ## Steps -/

/-- The step that a part between slashes stands for; an empty part and a dot stand for none. -/
def stepOf? (part : List Char) : Option Step :=
  if part = [] ∨ part = ['.'] then none
  else if part = ['.', '.'] then some .up
  else some (.name part)

/-- The step before the first part: to the root, or nowhere if the path begins with a dot. -/
def firstStep (path : Path) : List Step :=
  if path.isAbsolute then [.root]
  else if (path.chars.splitOn '/').head? = some ['.'] then [.here]
  else []

/-- The steps of a path. -/
def steps (path : Path) : List Step :=
  path.firstStep ++ (path.chars.splitOn '/').filterMap stepOf?

/-- Whether two paths have the same steps. -/
def sameSteps (path other : Path) : Bool := path.steps = other.steps

/-- The parts after those that take these steps. Parts that stand for no step may come
between. -/
def partsAfter? : List Step → List (List Char) → Option (List (List Char))
  | [], parts => some parts
  | _ :: _, [] => none
  | step :: steps, part :: parts =>
    match stepOf? part with
    | none => partsAfter? (step :: steps) parts
    | some taken => if step = taken then partsAfter? steps parts else none

/-- Parts without those at either end that stand for no step. -/
def trimParts (parts : List (List Char)) : List (List Char) :=
  let idle := fun part => (stepOf? part).isNone
  ((parts.dropWhile idle).reverse.dropWhile idle).reverse

/-- The path as seen from a folder above it, as it is written; a path that does not begin in the
folder stays as it is. -/
def relativeTo (folder path : Path) : Path :=
  let below? :=
    if folder.firstStep = path.firstStep then
      partsAfter? ((folder.chars.splitOn '/').filterMap stepOf?) (path.chars.splitOn '/')
    else none
  match below? with
  | some parts => ⟨['/'].intercalate (trimParts parts)⟩
  | none => path

/-! ## Names of files -/

/-- Names in the order of their characters, step by step. -/
def compareNames : List (List Char) → List (List Char) → Ordering
  | [], [] => .eq
  | [], _ :: _ => .lt
  | _ :: _, [] => .gt
  | a :: as, b :: bs => (Name.compareChars a b).then (compareNames as bs)

/-- The name of a file before and after its last dot; a dot at the beginning does not count. -/
def splitExtension (name : List Char) : List Char × Option (List Char) :=
  match (name.splitOn '.').reverse with
  | extension :: stem :: more =>
    let stem := ['.'].intercalate (stem :: more).reverse
    if stem = [] then (name, none) else (stem, some extension)
  | _ => (name, none)

end Path

end RefPages
