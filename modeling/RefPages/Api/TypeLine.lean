/-
Type lines: a name in backticks or a keyword, a type in angle brackets, and a comment.
-/
import RefPages.Fault
import RefPages.TypeExpr.Read

namespace RefPages

open Text

/-- The parts of a type line. -/
structure TypeLine where
  name : String
  /-- The type expression between the outer angle brackets. -/
  expression : String
  comment : String
  optional : Bool
  deriving DecidableEq, Repr

namespace TypeLine

/-- The words that stand in place of a name. -/
def keywords : List String := ["returns", "type", "argument"]

/-- The name at the beginning of a line, and what follows it: a name in backticks and a blank, or
a keyword, a colon and a blank. -/
def splitName? (line : List Char) : Option (List Char × List Char) :=
  match line with
  | '\x60' :: quoted => do
    let (name, rest) ← splitOnce? ['\x60'] quoted
    return (name, ← after? [' '] rest)
  | _ => keywords.findSome? fun keyword =>
    (after? (keyword.toList ++ [':', ' ']) line).map (keyword.toList, ·)

/-- The type in angle brackets at the beginning of a text, and what follows it. -/
def splitType? : List Char → Option (List Char × List Char)
  | '<' :: rest => TypeExpr.untilClosed? '<' '>' 0 rest
  | _ => none

/-- The parts of a type line, if it is one. -/
def read? (line : List Char) : Option TypeLine := do
  let (name, rest) ← splitName? line
  let (expression, comment) ← splitType? (rest.dropWhile (· = '?'))
  return {
    name := String.ofList name
    expression := String.ofList expression
    comment := String.ofList ((after? [' '] comment).getD comment)
    optional := rest.head? = some '?' }

/-- The parts of a type line. -/
def read (line : String) : Except Fault TypeLine :=
  match read? line.toList with
  | some parts => .ok parts
  | none => .error (.invalidArgument line)

end TypeLine

end RefPages
