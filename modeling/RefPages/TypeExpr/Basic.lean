/-
Type expressions as they are written: a name with what may follow it, and links to the next
alternative of a union and to the next entry of a list.
-/
import RefPages.Text.Chars

namespace RefPages

/-- A type expression. The first alternative of a union links to the others, and the first entry
of a list of arguments or parameters links to the others. -/
structure TypeExpr where
  name : String
  /-- The first argument, when there is an argument list. -/
  args : Option TypeExpr
  /-- What follows the colon after an argument list. -/
  returns : Option TypeExpr
  /-- The first parameter between angle brackets. -/
  template : Option TypeExpr
  /-- The next alternative of the union. -/
  union : Option TypeExpr
  /-- The next entry of the list. -/
  next : Option TypeExpr
  /-- The name given to a union of string literals. -/
  unionName : Option String

/-- Whether a name is a string literal: it has quotes at both ends. -/
def isQuoted (name : String) : Bool :=
  match name.toList with
  | '"' :: rest => rest.getLast? = some '"'
  | _ => false

namespace TypeExpr

/-- A type expression that is a name. -/
def named (name : String) : TypeExpr := ⟨name, none, none, none, none, none, none⟩

/-- Whether the expression is a string literal. -/
def isLiteral (expr : TypeExpr) : Bool := isQuoted expr.name

/-- The expression and the other alternatives of its union. -/
def alternatives : TypeExpr → List TypeExpr
  | ⟨name, args, returns, template, union, next, unionName⟩ =>
    ⟨name, args, returns, template, union, next, unionName⟩ ::
      match union with
      | some other => other.alternatives
      | none => []

/-- The expression and the other entries of its list. -/
def entries : TypeExpr → List TypeExpr
  | ⟨name, args, returns, template, union, next, unionName⟩ =>
    ⟨name, args, returns, template, union, next, unionName⟩ ::
      match next with
      | some other => other.entries
      | none => []

/-- Whether the expression is a union of string literals and nothing else. -/
def isLiteralUnion (expr : TypeExpr) : Bool :=
  expr.union.isSome && expr.alternatives.all isLiteral

end TypeExpr

end RefPages
