/-
The list items that describe arguments, options, results and values: a name or a type, and under
it the properties of the type and the comment.
-/
import RefPages.Dialect.TypeText
import RefPages.Markup.ForLang

namespace RefPages.Page

open Markup

/-- A comment as the pages for a language show it. -/
def shownDocs (dialect : Dialect) (docs : List Node) : List Node :=
  dialect.comment (withOwnCode dialect.lang (forLang dialect.lang docs))

/-! ## Arguments and their properties -/

/-- The name of an argument or of an option as the language spells it. -/
def itemName (dialect : Dialect) (isOption : Bool) (label : String) : String :=
  if isOption then dialect.optionName label else dialect.argumentName label

/-- What follows the type of an argument: whether it can be left out and, for an option, the
version that introduced it. -/
def argumentNotes (isOption : Bool) (arg : Member) : String :=
  (if arg.required then "" else " *(optional)*") ++
    match arg.since with
    | some since => if isOption then " Added in: " ++ since else ""
    | none => ""

/-- The type of an argument after a blank; nothing when it has none. -/
def argumentType (dialect : Dialect) (arg : Member) : Except Fault String :=
  match arg.type with
  | some type => do return " " ++ (← dialect.typeText .input arg type)
  | none => .ok ""

/-- Values in the order of the names they go by, up to the first fault. -/
def inNameOrder {α : Type} (named : List (String × Except Fault α)) : Except Fault (List α) :=
  (named.mergeSort fun a b => (Name.compareText a.1 b.1).isLE).mapM (·.2)

section

variable (dialect : Dialect)

mutual

/-- The list item of an argument. The properties under it are options when the argument is the
one that holds them. -/
def argumentItem (isOption : Bool) : Member → Except Fault Node
  | arg@{ name, label, type, docs, .. } => do
    let typeText ← argumentType dialect arg
    let properties ← inNameOrder (propertyItems? (name = "options") type)
    return .item .dash
      ("`" ++ itemName dialect isOption label ++ "`" ++ typeText ++ argumentNotes isOption arg)
      (properties ++ shownDocs dialect docs)

/-- The list items of the properties of a type, if there is one, each with its name. -/
def propertyItems? (areOptions : Bool) : Option ApiType → List (String × Except Fault Node)
  | none => []
  | some { properties, .. } => memberItems? areOptions properties

/-- The list items of members, if there are any, each with its name. -/
def memberItems? (areOptions : Bool) : Option (List Member) → List (String × Except Fault Node)
  | none => []
  | some members => memberItems areOptions members

/-- The list items of members, each with its name. -/
def memberItems (areOptions : Bool) : List Member → List (String × Except Fault Node)
  | [] => []
  | arg :: args => (arg.name, argumentItem areOptions arg) :: memberItems areOptions args

end

end

/-- The list items of the properties of a value. -/
def valueProperties (dialect : Dialect) (type : ApiType) : Except Fault (List Node) :=
  inNameOrder (memberItems dialect false (type.deepProperties?.getD []))

/-! ## Results and values -/

/-- The list item of what a method returns; none when it returns nothing. A method that is
asynchronous always returns something. -/
def resultItem? (dialect : Dialect) (method : Member) : Except Fault (Option Node) :=
  match method.type with
  | some type =>
    if type.name = "void" ∧ !method.isAsync then .ok none
    else do
      let text ← dialect.typeText .output method type
      let properties ← valueProperties dialect type
      return some
        (.item .dash (if method.isAsync then dialect.promiseText text else text) properties)
  | none => .ok none

/-- The list item of the value of a property or of the data of an event; none when there is
none. -/
def valueItem? (dialect : Dialect) (member : Member) : Except Fault (Option Node) :=
  match member.type with
  | some type =>
    if type.name = "void" then .ok none
    else do
      let text ← dialect.typeText .output member type
      return some (.item .dash text (← valueProperties dialect type))
  | none => .ok none

end RefPages.Page
