/-
Texts in quotes, as a shell reads them: nothing is special between single quotes, and between
double quotes a backslash begins an escape. Quotes may open and close anywhere in the text.
-/
import RefPages.Text.Chars

namespace RefPages.Text

/-- Where in a quoted text a character stands. -/
inductive Quoting where
  | outside
  | single
  | double
  /-- After a backslash between double quotes. -/
  | escape
  /-- After the letter of a code point escape. -/
  | openingBrace
  /-- Between the braces of a code point escape, after these digits. -/
  | codePoint (digits : List Char)
  deriving DecidableEq, Repr

/-- The character that a letter after a backslash stands for. -/
def escapedChar? : Char → Option Char
  | 'a' => some '\x07'
  | 'b' => some '\x08'
  | 'v' => some '\x0b'
  | 'f' => some '\x0c'
  | 'n' => some '\n'
  | 'r' => some '\r'
  | 't' => some '\t'
  | 'e' | 'E' => some '\x1b'
  | '\\' => some '\\'
  | '\'' => some '\''
  | '"' => some '"'
  | '$' => some '$'
  | '\x60' => some '\x60'
  | ' ' => some ' '
  | _ => none

/-- The value of a hexadecimal digit. -/
def hexDigit? (c : Char) : Option Nat :=
  if '0' ≤ c ∧ c ≤ '9' then some (c.toNat - 48)
  else if 'a' ≤ c ∧ c ≤ 'f' then some (c.toNat - 87)
  else if 'A' ≤ c ∧ c ≤ 'F' then some (c.toNat - 55)
  else none

/-- The number that digits in a base below 17 write; there must be at least one. -/
def digitsValue? (base : Nat) (digits : List Char) : Option Nat :=
  if digits = [] then none
  else
    digits.foldlM
      (fun value c => (hexDigit? c).bind fun d => if d < base then some (value * base + d) else none)
      0

/-- The character with the code point that the digits write; a plus sign may precede them. -/
def codePointChar? (digits : List Char) : Option Char :=
  match digitsValue? 16 ((after? ['+'] digits).getD digits) with
  | some n => if n.isValidChar then some (Char.ofNat n) else none
  | none => none

/-- The text without its quotes and escapes, read on from the given place; none when an escape
means nothing. -/
def unquoteFrom : Quoting → List Char → Option (List Char)
  | .outside, [] | .single, [] | .double, [] => some []
  | .escape, [] | .openingBrace, [] => none
  | .codePoint digits, [] => (codePointChar? digits).map ([·])
  | .outside, c :: cs =>
    if c = '\'' then unquoteFrom .single cs
    else if c = '"' then unquoteFrom .double cs
    else (unquoteFrom .outside cs).map (c :: ·)
  | .single, c :: cs =>
    if c = '\'' then unquoteFrom .outside cs else (unquoteFrom .single cs).map (c :: ·)
  | .double, c :: cs =>
    if c = '"' then unquoteFrom .outside cs
    else if c = '\\' then unquoteFrom .escape cs
    else (unquoteFrom .double cs).map (c :: ·)
  | .escape, c :: cs =>
    if c = 'u' then unquoteFrom .openingBrace cs
    else
      match escapedChar? c with
      | some d => (unquoteFrom .double cs).map (d :: ·)
      | none => none
  | .openingBrace, c :: cs => if c = '{' then unquoteFrom (.codePoint []) cs else none
  | .codePoint digits, c :: cs =>
    if c = '}' then
      match codePointChar? digits with
      | some d => (unquoteFrom .double cs).map (d :: ·)
      | none => none
    else unquoteFrom (.codePoint (digits ++ [c])) cs

/-- The text without its quotes and escapes; none when an escape means nothing. -/
def unquote? (cs : List Char) : Option (List Char) := unquoteFrom .outside cs

end RefPages.Text
