/-
Types of the API: read from expressions, looked at for literals, alternatives and objects, and
given the properties that nested lines document.
-/
import RefPages.Api.Basic
import RefPages.Fault
import RefPages.Name.Order
import RefPages.Text.Quoted
import RefPages.TypeExpr.Read

namespace RefPages

open Text

namespace ApiType

/-! ## Making types -/

/-- The text without blanks and one pair of brackets around it. -/
def withoutBrackets (name : String) : String :=
  let cs := trim name.toList
  let cs := (after? ['['] cs).getD cs
  String.ofList ((before? [']'] cs).getD cs)

/-- A type that is a name. -/
def plain (name : String) : ApiType := ⟨name, none, none, none, none, none, none⟩

/-- The type of a name, which may stand in brackets. An object begins without properties. The
name must say which kind of number is meant. -/
def named (name : String) : Except Fault ApiType :=
  let name := withoutBrackets name
  if name = "number" then .error (.numberType name)
  else .ok { plain name with properties := if name = "Object" then some [] else none }

/-- The type of an object with these properties. -/
def object (properties : List Member) : ApiType := { plain "Object" with properties }

/-- The union with these alternatives. -/
def ofAlternatives (name : String) (union : List ApiType) : ApiType := { plain name with union }

/-! ## From expressions -/

mutual

/-- The type that an expression means, as a whole or, when `alone`, without the alternatives it
links to. -/
def ofExpr (alone : Bool) : TypeExpr → Except Fault ApiType
  | expr@{ name, args, returns, template, union, unionName, .. } =>
    if !alone && unionName.isNone && expr.isLiteralUnion then
      .error (.anonymousEnum ("|".intercalate (expr.alternatives.map (·.name))))
    else
      let one : Except Fault ApiType :=
        if args.isSome || returns.isSome then do
          let args ← argumentsOf args
          let returns ← ofExpr? returns
          return { plain "function" with args, returns }
        else if template.isSome then do
          let type ← named name
          let templates ← entriesOf template
          return { type with templates }
        else named name
      if alone || union.isNone then one
      else do
        let first ← one
        let others ← alternativesOf union
        return ofAlternatives (withoutBrackets (unionName.getD "")) (first :: others)

/-- The type that an expression means, if there is one. -/
def ofExpr? : Option TypeExpr → Except Fault (Option ApiType)
  | none => .ok none
  | some expr => (ofExpr false expr).map some

/-- The types of a list of entries. -/
def entriesOf : Option TypeExpr → Except Fault (List ApiType)
  | none => .ok []
  | some expr@{ next, .. } => do
    let first ← ofExpr false expr
    let others ← entriesOf next
    return first :: others

/-- The types of a list of arguments; arguments without a name are passed over. -/
def argumentsOf : Option TypeExpr → Except Fault (List ApiType)
  | none => .ok []
  | some expr@{ name, next, .. } =>
    if name = "" then argumentsOf next
    else do
      let first ← ofExpr false expr
      let others ← argumentsOf next
      return first :: others

/-- The types of the further alternatives of a union. One that carries a name of its own is a
union in itself, and the last. -/
def alternativesOf : Option TypeExpr → Except Fault (List ApiType)
  | none => .ok []
  | some expr@{ union, unionName, .. } =>
    if unionName.isSome then do
      return [← ofExpr false expr]
    else do
      let first ← ofExpr true expr
      let others ← alternativesOf union
      return first :: others

end

/-! ## What a type holds -/

mutual

/-- Whether an object is reached through alternatives, arguments, parameters and results. -/
def hasObject : ApiType → Bool
  | { name, union, args, returns, templates, .. } =>
    name = "Object" || anyObject? union || anyObject? args || anyObject? templates ||
      hasObject? returns

/-- Whether there is a type with an object in it. -/
def hasObject? : Option ApiType → Bool
  | none => false
  | some type => type.hasObject

/-- Whether there are types and one has an object in it. -/
def anyObject? : Option (List ApiType) → Bool
  | none => false
  | some types => anyObject types

/-- Whether one of the types has an object in it. -/
def anyObject : List ApiType → Bool
  | [] => false
  | type :: types => type.hasObject || anyObject types

end

section

variable (documented : List Member)

mutual

/-- The type with the documented properties given to every object reached through alternatives,
arguments, parameters and results. -/
def attach : ApiType → ApiType
  | { name, properties, union, args, returns, templates, expression } =>
    { name
      properties := if name = "Object" then some documented else properties
      union := attachAll? union
      args := attachAll? args
      returns := attach? returns
      templates := attachAll? templates
      expression }

/-- The type, if there is one, with the documented properties. -/
def attach? : Option ApiType → Option ApiType
  | none => none
  | some type => some (attach type)

/-- The types, if there are any, with the documented properties. -/
def attachAll? : Option (List ApiType) → Option (List ApiType)
  | none => none
  | some types => some (attachAll types)

/-- The types with the documented properties. -/
def attachAll : List ApiType → List ApiType
  | [] => []
  | type :: types => attach type :: attachAll types

end

end

mutual

/-- The type and every type in it, each before those in it: alternatives, arguments, parameters,
the result and the types of properties, in this order. -/
def reach : ApiType → List ApiType
  | type@{ properties, union, args, returns, templates, .. } =>
    type :: (reachAll? union ++ reachAll? args ++ reachAll? templates ++ reach? returns ++
      reachProperties? properties)

/-- The types reached from a type, if there is one. -/
def reach? : Option ApiType → List ApiType
  | none => []
  | some type => type.reach

/-- The types reached from types, if there are any. -/
def reachAll? : Option (List ApiType) → List ApiType
  | none => []
  | some types => reachAll types

/-- The types reached from types. -/
def reachAll : List ApiType → List ApiType
  | [] => []
  | type :: types => type.reach ++ reachAll types

/-- The types reached from properties, if there are any. -/
def reachProperties? : Option (List Member) → List ApiType
  | none => []
  | some properties => reachProperties properties

/-- The types reached from the types of properties. -/
def reachProperties : List Member → List ApiType
  | [] => []
  | { type, .. } :: properties => reach? type ++ reachProperties properties

end

/-- The type that an expression means. The documented properties go to every object in it; there
must be one if there are properties. -/
def parse (expression : String) (documented : List Member) : Except Fault ApiType :=
  match ofExpr false (TypeExpr.read (TypeExpr.unescape expression)) with
  | .error (.anonymousEnum _) => .error (.anonymousEnum expression)
  | .error (.numberType _) => .error (.numberType expression)
  | .error fault => .error fault
  | .ok type =>
    if documented.isEmpty then .ok { type with expression := some expression }
    else if type.hasObject then
      .ok { type.attach documented with expression := some expression }
    else .error (.propertiesOnNonObject expression)

/-! ## Literals, unions and functions -/

/-- Whether the type is a string literal. -/
def isLiteral (type : ApiType) : Bool := isQuoted type.name

/-- The text of a string literal: without quotes and escapes or, if an escape in it means
nothing, without the quotes at its ends. -/
def literalValue? (type : ApiType) : Option String :=
  if type.isLiteral then
    let cs := type.name.toList
    some (String.ofList ((unquote? cs).getD cs.tail.dropLast))
  else none

/-- Whether the type is a union of string literals. -/
def isLiteralUnion (type : ApiType) : Bool :=
  match type.union with
  | some union => !union.isEmpty && union.all isLiteral
  | none => false

/-- Whether the type is a union of one type and null. -/
def isNullable (type : ApiType) : Bool :=
  match type.union with
  | some union => union.length = 2 && (union.filter (·.name = "null")).length = 1
  | none => false

/-- Whether the type is a union of unrelated types, neither literals nor one type and null. -/
def isMixedUnion (type : ApiType) : Bool :=
  match type.union with
  | some union => !type.isNullable && !union.any isLiteral
  | none => false

/-- Whether the type is a function. -/
def isFunction (type : ApiType) : Bool := type.name = "function"

/-! ## Properties -/

/-- The properties of the first object reached that has any. -/
def deepProperties? (type : ApiType) : Option (List Member) :=
  (type.reach.filterMap (·.properties)).find? (!·.isEmpty)

/-- Members in the order of their names. -/
def sortByName (members : List Member) : List Member :=
  members.mergeSort fun a b => (Name.compareText a.name b.name).isLE

/-- The properties of the type in the order of their names. -/
def sortedProperties (type : ApiType) : List Member := sortByName (type.properties.getD [])

end ApiType

end RefPages
