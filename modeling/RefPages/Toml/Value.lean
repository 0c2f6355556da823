/-
TOML values, and the strings, numbers and dates among them as they are written.
-/
import RefPages.Text.Quoted

namespace RefPages

/-- A TOML value. -/
inductive TomlValue where
  | string (text : List Char)
  | integer (value : Int)
  | boolean (value : Bool)
  /-- A number that may have a fraction, as it is written. -/
  | float (text : List Char)
  /-- A date, a time of day, or both, as it is written. -/
  | date (text : List Char)
  | array (values : List TomlValue)
  | table (entries : List (List Char × TomlValue))
  deriving Repr

namespace Toml

open Text

/-! ## Strings -/

/-- Whether a character may stand in a comment or a string: no control character but the tab. -/
def isShown (c : Char) : Bool := c = '\t' || (0x20 ≤ c.val && c.val ≠ 0x7F)

/-- The character that a letter after a backslash stands for. -/
def escapedChar? : Char → Option Char
  | 'b' => some '\x08'
  | 't' => some '\t'
  | 'n' => some '\n'
  | 'f' => some '\x0c'
  | 'r' => some '\r'
  | 'e' => some '\x1b'
  | '"' => some '"'
  | '\\' => some '\\'
  | _ => none

/-- How many digits follow a letter after a backslash. -/
def escapeDigits? : Char → Option Nat
  | 'x' => some 2
  | 'u' => some 4
  | 'U' => some 8
  | _ => none

/-- Where in a string between double quotes a character stands. -/
inductive StringPosition where
  | inText
  /-- After a backslash. -/
  | escape
  /-- Before the last digits of the number of a character. -/
  | number (missing value : Nat)
  /-- After a backslash at the end of a line, and whether the line has ended. -/
  | lineEnd (isOver : Bool)

/-- At most two more quotes, and what follows them. -/
def extraQuotes (quote : Char) : List Char → List Char × List Char
  | a :: b :: cs =>
    if a = quote then if b = quote then ([a, b], cs) else ([a], b :: cs) else ([], a :: b :: cs)
  | [a] => if a = quote then ([a], []) else ([], [a])
  | [] => ([], [])

/-- Whether two more quotes follow. -/
def closesLines (quote : Char) (cs : List Char) : Bool := startsWith [quote, quote] cs

/-- The string between double quotes, or between triples of them, that goes on with the given
characters after `text`, and what follows it. -/
def basicFrom (isLong : Bool) (text : List Char) :
    StringPosition → List Char → Option (List Char × List Char)
  | _, [] => none
  | .inText, c :: cs =>
    if c = '"' then
      if !isLong then some (text, cs)
      else if closesLines '"' cs then
        let (more, rest) := extraQuotes '"' (cs.drop 2)
        some (text ++ more, rest)
      else basicFrom isLong (text ++ [c]) .inText cs
    else if c = '\\' then basicFrom isLong text .escape cs
    else if c = '\n' && isLong then basicFrom isLong (text ++ [c]) .inText cs
    else if c = '\r' && isLong && cs.head? = some '\n' then basicFrom isLong text .inText cs
    else if isShown c then basicFrom isLong (text ++ [c]) .inText cs
    else none
  | .escape, c :: cs =>
    match escapedChar? c, escapeDigits? c with
    | some escaped, _ => basicFrom isLong (text ++ [escaped]) .inText cs
    | none, some digits => basicFrom isLong text (.number digits 0) cs
    | none, none =>
      if !isLong then none
      else if c = '\n' then basicFrom isLong text (.lineEnd true) cs
      else if c = ' ' || c = '\t' || (c = '\r' && cs.head? = some '\n') then
        basicFrom isLong text (.lineEnd false) cs
      else none
  | .lineEnd isOver, c :: cs =>
    if c = '\n' then basicFrom isLong text (.lineEnd true) cs
    else if c = ' ' || c = '\t' || (c = '\r' && cs.head? = some '\n') then
      basicFrom isLong text (.lineEnd isOver) cs
    else if !isOver then none
    else if c = '"' then
      if closesLines '"' cs then
        let (more, rest) := extraQuotes '"' (cs.drop 2)
        some (text ++ more, rest)
      else basicFrom isLong (text ++ [c]) .inText cs
    else if c = '\\' then basicFrom isLong text .escape cs
    else if isShown c then basicFrom isLong (text ++ [c]) .inText cs
    else none
  | .number missing value, c :: cs =>
    match hexDigit? c with
    | none => none
    | some digit =>
      let value := value * 16 + digit
      if missing ≤ 1 then
        if value.isValidChar then basicFrom isLong (text ++ [Char.ofNat value]) .inText cs else none
      else basicFrom isLong text (.number (missing - 1) value) cs

/-- The string between single quotes, or between triples of them, that goes on with the given
characters after `text`, and what follows it. -/
def literalFrom (isLong : Bool) (text : List Char) : List Char → Option (List Char × List Char)
  | [] => none
  | c :: cs =>
    if c = '\'' then
      if !isLong then some (text, cs)
      else if closesLines '\'' cs then
        let (more, rest) := extraQuotes '\'' (cs.drop 2)
        some (text ++ more, rest)
      else literalFrom isLong (text ++ [c]) cs
    else if c = '\n' && isLong then literalFrom isLong (text ++ [c]) cs
    else if c = '\r' && isLong && cs.head? = some '\n' then literalFrom isLong text cs
    else if isShown c then literalFrom isLong (text ++ [c]) cs
    else none

/-- What follows a line break at the beginning, if there is one. -/
def skipBreak (cs : List Char) : List Char :=
  ((after? ['\n'] cs).orElse fun _ => after? ['\r', '\n'] cs).getD cs

/-- The string on one line that begins with these characters, and what follows it. -/
def shortString? (cs : List Char) : Option (List Char × List Char) :=
  match cs with
  | '"' :: cs => basicFrom false [] .inText cs
  | '\'' :: cs => literalFrom false [] cs
  | _ => none

/-- The string that begins with these characters, and what follows it. -/
def string? (cs : List Char) : Option (List Char × List Char) :=
  match cs with
  | '"' :: '"' :: '"' :: cs => basicFrom true [] .inText (skipBreak cs)
  | '\'' :: '\'' :: '\'' :: cs => literalFrom true [] (skipBreak cs)
  | _ => shortString? cs

/-! ## Numbers -/

/-- Digits with single underscores between them, without the underscores; none when there are
others or none. -/
def digitsOf? (isDigit : Char → Bool) (cs : List Char) : Option (List Char) :=
  let groups := cs.splitOn '_'
  if groups.all fun group => !group.isEmpty && group.all isDigit then some groups.flatten else none

/-- A number in decimal without superfluous zeros. -/
def decimal? (cs : List Char) : Option Nat := do
  let digits ← digitsOf? Char.isDigit cs
  if digits.length > 1 ∧ digits.head? = some '0' then none else digitsValue? 10 digits

/-- The sign before a number and what follows it. -/
def sign (cs : List Char) : Int × List Char :=
  match cs with
  | '-' :: cs => (-1, cs)
  | '+' :: cs => (1, cs)
  | cs => (1, cs)

/-- The number that digits in a base write. -/
def inBase? (base : Nat) (cs : List Char) : Option Nat := do
  digitsValue? base (← digitsOf? (fun c => (hexDigit? c).any (· < base)) cs)

/-- The integer that characters write. -/
def integer? (cs : List Char) : Option Int :=
  match cs with
  | '0' :: 'x' :: cs => (inBase? 16 cs).map Int.ofNat
  | '0' :: 'o' :: cs => (inBase? 8 cs).map Int.ofNat
  | '0' :: 'b' :: cs => (inBase? 2 cs).map Int.ofNat
  | _ => (decimal? (sign cs).2).map fun n => (sign cs).1 * n

/-- Whether characters write the exponent of a number. -/
def isExponent (cs : List Char) : Bool := (digitsOf? Char.isDigit (sign cs).2).isSome

/-- Whether characters write a number with a fraction, an exponent, or both. -/
def isFloat (cs : List Char) : Bool :=
  let unsigned := (sign cs).2
  let isE := fun c => c = 'e' || c = 'E'
  let mantissa := unsigned.takeWhile (!isE ·)
  let exponent := unsigned.dropWhile (!isE ·)
  let exponentIsRight := exponent.isEmpty || isExponent exponent.tail
  unsigned = "inf".toList || unsigned = "nan".toList ||
    match mantissa.splitOn '.' with
    | [whole] => !exponent.isEmpty && (decimal? whole).isSome && exponentIsRight
    | [whole, fraction] =>
      (decimal? whole).isSome && (digitsOf? Char.isDigit fraction).isSome && exponentIsRight
    | _ => false

/-! ## Dates -/

/-- The number that exactly `count` digits write. -/
def fixedDigits? (count : Nat) (cs : List Char) : Option Nat :=
  if cs.length = count ∧ cs.all Char.isDigit then digitsValue? 10 cs else none

/-- The number of days in a month. -/
def daysIn (year month : Nat) : Nat :=
  if month = 2 then
    if year % 4 = 0 ∧ (year % 100 ≠ 0 ∨ year % 400 = 0) then 29 else 28
  else if [4, 6, 9, 11].contains month then 30
  else 31

/-- Whether characters write a day: year, month and day with hyphens between them. -/
def isDay (cs : List Char) : Bool :=
  match (cs.splitOn '-') with
  | [year, month, day] =>
    match fixedDigits? 4 year, fixedDigits? 2 month, fixedDigits? 2 day with
    | some year, some month, some day =>
      1 ≤ month && month ≤ 12 && 1 ≤ day && day ≤ daysIn year month
    | _, _, _ => false
  | _ => false

/-- Whether characters write seconds, with a fraction or without. -/
def isSeconds (cs : List Char) : Bool :=
  match cs.splitOn '.' with
  | [seconds] => (fixedDigits? 2 seconds).any (· ≤ 60)
  | [seconds, fraction] =>
    (fixedDigits? 2 seconds).any (· ≤ 60) && !fraction.isEmpty && fraction.all Char.isDigit
  | _ => false

/-- Whether characters write hours and minutes with a colon between them. -/
def isHour (hour minute : List Char) : Bool :=
  (fixedDigits? 2 hour).any (· ≤ 23) && (fixedDigits? 2 minute).any (· ≤ 59)

/-- Whether characters write a time of day; seconds may be left out. -/
def isTime (cs : List Char) : Bool :=
  match cs.splitOn ':' with
  | [hour, minute] => isHour hour minute
  | [hour, minute, seconds] => isHour hour minute && isSeconds seconds
  | _ => false

/-- Whether characters write a time of day and perhaps its distance from universal time. -/
def isZonedTime (cs : List Char) : Bool :=
  let isSign := fun c => c = '+' || c = '-'
  let zone := cs.dropWhile (!isSign ·)
  if cs.getLast? = some 'Z' ∨ cs.getLast? = some 'z' then isTime cs.dropLast
  else if zone.isEmpty then isTime cs
  else
    isTime (cs.takeWhile (!isSign ·)) &&
      match zone.tail.splitOn ':' with
      | [hour, minute] => isHour hour minute
      | _ => false

/-- Whether characters write a date, a time of day, or both. -/
def isDate (cs : List Char) : Bool :=
  let day := cs.take 10
  isDay cs || isTime cs ||
    (isDay day &&
      match cs.drop 10 with
      | c :: time => (c = 'T' || c = 't' || c = ' ') && isZonedTime time
      | [] => false)

/-! ## Values without parts -/

/-- Whether an integer fits into 128 bits, with a sign or without. -/
def isInteger (n : Int) : Bool :=
  -0x80000000000000000000000000000000 ≤ n && n < 0x100000000000000000000000000000000

/-- The number, date or truth value that characters write. -/
def plainValue? (cs : List Char) : Option TomlValue :=
  if cs = "true".toList then some (.boolean true)
  else if cs = "false".toList then some (.boolean false)
  else
    match integer? cs with
    | some n => if isInteger n then some (.integer n) else none
    | none => if isFloat cs then some (.float cs) else if isDate cs then some (.date cs) else none

end Toml

end RefPages
