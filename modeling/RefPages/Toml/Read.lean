/-
The lines of a TOML text: entries with a key and a value, and the headings of tables. Each reader
returns what is left of the text. `depth` bounds how far the readers of values call one another,
which the length of the text does as well.
-/
import RefPages.Toml.Value

namespace RefPages.Toml

open Text

/-- A key with its parts, which dots separate. -/
abbrev Key := List (List Char)

/-! ## Blanks -/

/-- What follows blanks within a line. -/
def skipSpaces (cs : List Char) : List Char := cs.dropWhile fun c => c = ' ' || c = '\t'

/-- What follows blanks and a comment within a line; none when the comment has a character that it
may not have. -/
def skipComment? (cs : List Char) : Option (List Char) :=
  match skipSpaces cs with
  | '#' :: cs =>
    let rest := cs.dropWhile isShown
    if rest.isEmpty || startsWith ['\n'] rest || startsWith ['\r', '\n'] rest then some rest
    else none
  | cs => some cs

/-- What follows the end of a line, or of the text; none when something else comes first. -/
def lineEnd? (cs : List Char) : Option (List Char) := do
  match ← skipComment? cs with
  | [] => return []
  | '\n' :: rest => return rest
  | '\r' :: '\n' :: rest => return rest
  | _ => none

/-- What follows blanks, comments and line breaks; at most `lines` lines are left out. -/
def skipLines? : Nat → List Char → Option (List Char)
  | 0, cs => some cs
  | lines + 1, cs => do
    match ← skipComment? cs with
    | '\n' :: rest => skipLines? lines rest
    | '\r' :: '\n' :: rest => skipLines? lines rest
    | rest => return rest

/-- What follows blanks, comments and line breaks. -/
def skipBlanks? (cs : List Char) : Option (List Char) := skipLines? (cs.length + 1) cs

/-! ## Keys -/

/-- Whether a character may stand in a part of a key without quotes. -/
def isKeyChar (c : Char) : Bool := c.isAlphanum || c = '_' || c = '-'

/-- A part of a key and what follows it. -/
def keyPart? (cs : List Char) : Option (List Char × List Char) :=
  if cs.head? = some '"' ∨ cs.head? = some '\'' then shortString? cs
  else
    let part := cs.takeWhile isKeyChar
    if part.isEmpty then none else some (part, cs.drop part.length)

/-- A key and what follows it and the blanks after it; it has at most `parts` parts. -/
def keyFrom? : Nat → List Char → Option (Key × List Char)
  | 0, _ => none
  | parts + 1, cs => do
    let (part, rest) ← keyPart? (skipSpaces cs)
    match skipSpaces rest with
    | '.' :: rest =>
      let (key, rest) ← keyFrom? parts rest
      return (part :: key, rest)
    | rest => return ([part], rest)

/-- A key and what follows it and the blanks after it. -/
def key? (cs : List Char) : Option (Key × List Char) := keyFrom? (cs.length + 1) cs

/-! ## Tables under construction -/

/-- How a table came about. -/
inductive Origin where
  /-- By the heading of a table in it. -/
  | implied
  /-- By its own heading. -/
  | heading
  /-- By the key of an entry in it. -/
  | key
  deriving DecidableEq

/-- What a table has under one part of a key, while it is being built. -/
inductive Slot where
  | value (value : TomlValue)
  | table (origin : Origin) (slots : List (List Char × Slot))
  /-- Tables with the same heading, the last first. -/
  | tables (elements : List (List (List Char × Slot)))

/-- The slots of a table. -/
abbrev Slots := List (List Char × Slot)

/-- The slots with another value under a part of a key, at the place of the old one if there is
one. -/
def Slots.set (slots : Slots) (part : List Char) (slot : Slot) : Slots :=
  if slots.any (·.1 = part) then
    slots.map fun old => if old.1 = part then (part, slot) else old
  else slots ++ [(part, slot)]

/-- The slots after an entry. A table with a heading of its own takes no entries by longer keys,
and a table that came about by keys takes no others. -/
def Slots.assign (value : TomlValue) : Key → Slots → Option Slots
  | [], _ => none
  | [part], slots =>
    if (slots.lookup part).isSome then none else some (slots.set part (.value value))
  | part :: key, slots =>
    let isLast := key.length = 1
    match slots.lookup part with
    | none => do return slots.set part (.table .key (← Slots.assign value key []))
    | some (.table found inner) =>
      if found = .heading || (isLast && found ≠ .key) then none
      else do return slots.set part (.table found (← Slots.assign value key inner))
    | some (.tables (last :: others)) =>
      if isLast then none
      else do return slots.set part (.tables ((← Slots.assign value key last) :: others))
    | _ => none

/-- The slots with a change to those of the table under a key. The last of several tables with the
same heading counts. -/
def Slots.inTable (change : Slots → Option Slots) : Key → Slots → Option Slots
  | [], slots => change slots
  | part :: key, slots =>
    match slots.lookup part with
    | none => do return slots.set part (.table .implied (← Slots.inTable change key []))
    | some (.table origin inner) => do
      return slots.set part (.table origin (← Slots.inTable change key inner))
    | some (.tables (last :: others)) => do
      return slots.set part (.tables ((← Slots.inTable change key last) :: others))
    | _ => none

/-- The slots with a table under its own heading. -/
def Slots.openTable (part : List Char) (slots : Slots) : Option Slots :=
  match slots.lookup part with
  | none => some (slots.set part (.table .heading []))
  | some (.table .implied inner) => some (slots.set part (.table .heading inner))
  | _ => none

/-- The slots with one more of several tables with the same heading. -/
def Slots.addTable (part : List Char) (slots : Slots) : Option Slots :=
  match slots.lookup part with
  | none => some (slots.set part (.tables [[]]))
  | some (.tables elements) => some (slots.set part (.tables ([] :: elements)))
  | _ => none

mutual

/-- The finished value of a slot. -/
def Slot.finish : Slot → TomlValue
  | .value value => value
  | .table _ slots => .table (finishSlots slots)
  | .tables elements => .array (finishTables elements).reverse

/-- The finished entries of a table. -/
def finishSlots : List (List Char × Slot) → List (List Char × TomlValue)
  | [] => []
  | (part, slot) :: slots => (part, slot.finish) :: finishSlots slots

/-- Finished tables. -/
def finishTables : List (List (List Char × Slot)) → List TomlValue
  | [] => []
  | slots :: elements => .table (finishSlots slots) :: finishTables elements

end

/-! ## Values -/

/-- Whether a character may stand in a number, a date or a truth value. -/
def isPlainChar (c : Char) : Bool := isKeyChar c || c = '+' || c = '.' || c = ':'

/-- A number, a date or a truth value and what follows it. A blank may stand between a day and a
time. -/
def plain? (cs : List Char) : Option (TomlValue × List Char) :=
  let first := cs.takeWhile isPlainChar
  let rest := cs.drop first.length
  let (text, rest) :=
    match rest with
    | ' ' :: c :: more =>
      if isDay first && c.isDigit then
        let time := (c :: more).takeWhile isPlainChar
        (first ++ ' ' :: time, (c :: more).drop time.length)
      else (first, rest)
    | _ => (first, rest)
  (plainValue? text).map (·, rest)

mutual

/-- A value and what follows it. -/
def value? (depth : Nat) (cs : List Char) : Option (TomlValue × List Char) :=
  match depth with
  | 0 => none
  | depth + 1 =>
    match cs with
    | '"' :: _ | '\'' :: _ => (string? cs).map fun (text, rest) => (.string text, rest)
    | '[' :: rest => do
      let (values, rest) ← values? depth rest
      return (.array values, rest)
    | '\x7b' :: rest => do
      let (slots, rest) ← entries? depth [] rest
      return (.table (finishSlots slots), rest)
    | _ => plain? cs

/-- The values up to the end of an array and what follows it. -/
def values? (depth : Nat) (cs : List Char) : Option (List TomlValue × List Char) :=
  match depth with
  | 0 => none
  | depth + 1 => do
    match ← skipBlanks? cs with
    | ']' :: rest => return ([], rest)
    | cs =>
      let (value, rest) ← value? depth cs
      match ← skipBlanks? rest with
      | ',' :: rest =>
        let (values, rest) ← values? depth rest
        return (value :: values, rest)
      | ']' :: rest => return ([value], rest)
      | _ => none

/-- The entries up to the end of a table in braces, after those read already, and what follows
it. -/
def entries? (depth : Nat) (slots : Slots) (cs : List Char) : Option (Slots × List Char) :=
  match depth with
  | 0 => none
  | depth + 1 => do
    match ← skipBlanks? cs with
    | '\x7d' :: rest => return (slots, rest)
    | cs =>
      let (key, rest) ← key? cs
      match rest with
      | '=' :: rest =>
        let (value, rest) ← value? depth (skipSpaces rest)
        let slots ← slots.assign value key
        match ← skipBlanks? rest with
        | ',' :: rest => entries? depth slots rest
        | '\x7d' :: rest => return (slots, rest)
        | _ => none
      | _ => none

end

/-! ## Texts -/

/-- A text of which a part is read. -/
structure Draft where
  slots : Slots
  /-- The key of the table that entries belong to. -/
  current : Key

/-- The draft after the heading of a table, or of one of several. -/
def Draft.heading (draft : Draft) (isOneOfMany : Bool) (key : Key) : Option Draft :=
  match key.getLast? with
  | none => none
  | some part => do
    let change := if isOneOfMany then Slots.addTable part else Slots.openTable part
    return ⟨← draft.slots.inTable change key.dropLast, key⟩

/-- The draft after the line that a text begins with, and what follows the line. -/
def Draft.line (draft : Draft) (cs : List Char) : Option (Draft × List Char) :=
  match cs with
  | '[' :: '[' :: rest => do
    let (key, rest) ← key? rest
    match rest with
    | ']' :: ']' :: rest => return (← draft.heading true key, ← lineEnd? rest)
    | _ => none
  | '[' :: rest => do
    let (key, rest) ← key? rest
    match rest with
    | ']' :: rest => return (← draft.heading false key, ← lineEnd? rest)
    | _ => none
  | _ => do
    let (key, rest) ← key? cs
    match rest with
    | '=' :: rest =>
      let (value, rest) ← value? (2 * rest.length + 2) (skipSpaces rest)
      let slots ← draft.slots.inTable (Slots.assign value key) draft.current
      return ({ draft with slots }, ← lineEnd? rest)
    | _ => none

/-- The draft after a text of at most `lines` lines. -/
def Draft.finish : Nat → Draft → List Char → Option Draft
  | 0, _, _ => none
  | lines + 1, draft, cs => do
    match ← skipBlanks? cs with
    | [] => return draft
    | cs =>
      let (draft, rest) ← draft.line cs
      Draft.finish lines draft rest

/-- The entries of a TOML text; none when the text is wrong. -/
def read? (text : List Char) : Option (List (List Char × TomlValue)) := do
  let cs := (after? ['\ufeff'] text).getD text
  let draft ← Draft.finish (cs.length + 1) ⟨[], []⟩ cs
  return finishSlots draft.slots

end RefPages.Toml
