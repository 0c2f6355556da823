/-
Beginnings, ends and replacing in lists of characters. Every function recurses on the list itself,
so no positions occur; the lemmas say what is before and after a part that is taken off.
-/

namespace RefPages.Text

/-! ## Leading and trailing parts -/

/-- What follows `start` in `cs`, when `cs` begins with it. -/
def after? : List Char → List Char → Option (List Char)
  | [], cs => some cs
  | _ :: _, [] => none
  | s :: start, c :: cs => if s = c then after? start cs else none

/-- What precedes `stop` in `cs`, when `cs` ends with it. -/
def before? (stop cs : List Char) : Option (List Char) :=
  (after? stop.reverse cs.reverse).map List.reverse

/-- Whether `cs` begins with `start`. -/
def startsWith (start cs : List Char) : Bool := (after? start cs).isSome

/-- Whether `cs` ends with `stop`. -/
def endsWith (stop cs : List Char) : Bool := (before? stop cs).isSome

theorem after?_eq_some_iff {start cs rest : List Char} :
    after? start cs = some rest ↔ cs = start ++ rest := by
  induction start generalizing cs with
  | nil => simp [after?, eq_comm]
  | cons s start ih =>
    cases cs with
    | nil => simp [after?]
    | cons c cs =>
      by_cases h : s = c
      · simp [after?, h, ih]
      · simp [after?, h, Ne.symm h]

theorem before?_eq_some_iff {stop cs rest : List Char} :
    before? stop cs = some rest ↔ cs = rest ++ stop := by
  simp only [before?, Option.map_eq_some_iff, after?_eq_some_iff]
  constructor
  · rintro ⟨a, h, rfl⟩
    simpa using congrArg List.reverse h
  · rintro rfl
    exact ⟨rest.reverse, by simp, by simp⟩

/-! ## Splitting -/

/-- What stands before and after the first `sep`. -/
def splitOnce? (sep : List Char) : List Char → Option (List Char × List Char)
  | [] => if sep = [] then some ([], []) else none
  | c :: cs =>
    match after? sep (c :: cs) with
    | some rest => some ([], rest)
    | none => (splitOnce? sep cs).map fun (before, rest) => (c :: before, rest)

/-! ## Replacing -/

/-- Every leftmost occurrence of `old`, which is not empty, replaced by `new`; `skip` characters
of an occurrence already replaced are still to be passed over. -/
def replaceFrom (old new : List Char) : Nat → List Char → List Char
  | _, [] => []
  | skip + 1, _ :: cs => replaceFrom old new skip cs
  | 0, c :: cs =>
    if startsWith old (c :: cs) then new ++ replaceFrom old new (old.length - 1) cs
    else c :: replaceFrom old new 0 cs

/-- Every leftmost occurrence of `old` replaced by `new`. -/
def replaceAll (old new cs : List Char) : List Char := replaceFrom old new 0 cs

/-- Whether `part` occurs in `cs`. -/
def contains (part : List Char) : List Char → Bool
  | [] => part.isEmpty
  | c :: cs => startsWith part (c :: cs) || contains part cs

/-! ## Sizes -/

/-- The number of bytes that `cs` takes in UTF-8. -/
def byteCount : List Char → Nat
  | [] => 0
  | c :: cs => c.utf8Size + byteCount cs

/-- `n` blanks. -/
def spaces (n : Nat) : List Char := List.replicate n ' '

/-! ## Texts and their characters -/

/-- The characters of a text that goes on with others. -/
theorem toList_append_ofList {text : String} {cs : List Char} (h : text.toList = cs) (more : List Char) :
    (text ++ String.ofList more).toList = cs ++ more := by
  rw [String.toList_append, h, String.toList_ofList]

end RefPages.Text
