/-
JSON values and their text: one element or field on each line, indented by two blanks for each
level.
-/

namespace RefPages

/-- A JSON value without fractions. Fields keep their order. -/
inductive JsonValue where
  | bool (value : Bool)
  | number (value : Nat)
  | string (value : String)
  | array (values : List JsonValue)
  | object (fields : List (String × JsonValue))
  deriving Repr

namespace JsonValue

/-- The last hexadecimal digits of a number, as many as asked for. -/
def hexDigits : Nat → Nat → List Char
  | 0, _ => []
  | count + 1, n => hexDigits count (n / 16) ++ [Nat.digitChar (n % 16)]

/-- A character as it stands in a string: quotes, backslashes and control characters are
escaped. -/
def escape (c : Char) : List Char :=
  if c = '"' then ['\\', '"']
  else if c = '\\' then ['\\', '\\']
  else if c = '\n' then ['\\', 'n']
  else if c = '\r' then ['\\', 'r']
  else if c = '\t' then ['\\', 't']
  else if c = '\x08' then ['\\', 'b']
  else if c = '\x0c' then ['\\', 'f']
  else if c.toNat < 32 then '\\' :: 'u' :: hexDigits 4 c.toNat
  else [c]

/-- A string in quotes. -/
def quote (text : String) : List Char := '"' :: text.toList.flatMap escape ++ ['"']

/-- The line break before an item at a level. -/
def lineBreak (level : Nat) : List Char := '\n' :: List.replicate (2 * level) ' '

mutual

/-- The text of a value whose lines are at a level. -/
def render (level : Nat) : JsonValue → List Char
  | bool value => if value then "true".toList else "false".toList
  | number value => (toString value).toList
  | string value => quote value
  | array [] => ['[', ']']
  | array (value :: values) =>
    '[' :: lineBreak (level + 1) ++ render (level + 1) value ++ renderItems (level + 1) values ++
      lineBreak level ++ [']']
  | object [] => ['\x7b', '\x7d']
  | object ((key, value) :: fields) =>
    '\x7b' :: lineBreak (level + 1) ++ quote key ++ [':', ' '] ++ render (level + 1) value ++
      renderFields (level + 1) fields ++ lineBreak level ++ ['\x7d']

/-- The text of the further elements of an array. -/
def renderItems (level : Nat) : List JsonValue → List Char
  | [] => []
  | value :: values => ',' :: lineBreak level ++ render level value ++ renderItems level values

/-- The text of the further fields of an object. -/
def renderFields (level : Nat) : List (String × JsonValue) → List Char
  | [] => []
  | (key, value) :: fields =>
    ',' :: lineBreak level ++ quote key ++ [':', ' '] ++ render level value ++
      renderFields level fields

end

/-- The text of a value. -/
def pretty (value : JsonValue) : String := String.ofList (render 0 value)

/-- An array of strings. -/
def strings (values : List String) : JsonValue := array (values.map string)

/-- An object without the fields that have no value. -/
def present (fields : List (String × Option JsonValue)) : JsonValue :=
  object (fields.filterMap fun (key, value) => value.map (key, ·))

end JsonValue

end RefPages
