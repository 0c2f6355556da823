/-
Members of classes: made from a name, looked up among the arguments of a method, and linked to
the class and the method they belong to.
-/
import RefPages.Api.Type
import RefPages.Text.Decimal

namespace RefPages

open Markup Text

/-- The last of the members that has this name. -/
def lastNamed? (name : String) (members : List Member) : Option Member :=
  (members.filter (·.name = name)).getLast?

namespace Member

/-! ## Making members -/

/-- The label and the overload index that a name gives: the number after a number sign counts
overloads from one. A number that cannot be read counts as one. -/
def labelOf (name : String) : String × Nat :=
  match splitOnce? ['#'] name.toList with
  | some (label, number) => (String.ofList label, (machineNat? number).getD 1 - 1)
  | none => (name, 0)

/-- The name of a member after the name of its class and a dot. -/
def qualify (className name : String) : String := className ++ "." ++ name

/-- A member with a name and a type and nothing else. -/
def ofName (kind : MemberKind) (name : String) (type : Option ApiType) : Member where
  kind
  name
  label := (labelOf name).1
  overloadIndex := (labelOf name).2
  type
  args := []
  docs := []
  required := true
  isAsync := false
  deprecated := false
  experimental := false
  since := none
  langs := .everywhere
  className := ""
  enclosingMethod := if kind = .method then some (qualify "" name) else none
  inheritedFrom := none
  overloadOf := none

/-- A property, an argument or an option. -/
def property (name : String) (type : ApiType) (required : Bool) : Member :=
  { ofName .property name (some type) with required }

/-- Whether a comment marks what it is about as deprecated. -/
def marksDeprecated (docs : List Node) : Bool :=
  (Node.preorderAll docs).any fun node =>
    match node.inlineText? with
    | some text => contains "**DEPRECATED**".toList text.toList
    | none => false

/-- The member with a comment, which may mark it as deprecated. -/
def withDocs (member : Member) (docs : List Node) : Member :=
  { member with docs, deprecated := member.deprecated || marksDeprecated docs }

/-! ## Looking at members -/

/-- Whether the member is a method. -/
def isMethod (member : Member) : Bool := member.kind = .method

/-- Whether the member is an event. -/
def isEvent (member : Member) : Bool := member.kind = .event

/-- Whether the member is the constructor of its class. -/
def isConstructor (member : Member) : Bool := member.isMethod && member.name = "constructor"

/-- The class and the name of the member, with a dot between them. -/
def qualifiedName (member : Member) : String := qualify member.className member.name

/-- The last argument with this name. -/
def arg? (member : Member) (name : String) : Option Member := lastNamed? name member.args

/-- The options that the method takes. -/
def optionProperties (member : Member) : List Member :=
  (((member.arg? "options").bind (·.type)).bind (·.properties)).getD []

/-! ## Links to class and method -/

/-- The member as one of a class and, perhaps, of a method. -/
def belongingTo (className : String) (method : Option String) (member : Member) : Member :=
  { member with className, enclosingMethod := method }

/-- The type with its properties sorted and linked to a class and a method. -/
def linkOptions (className : String) (method : Option String) (type : ApiType) : ApiType :=
  { type with
    properties :=
      type.properties.map fun options =>
        (ApiType.sortByName options).map (belongingTo className method) }

/-- An argument linked to a class and a method; the options of a method are linked as well. -/
def linkArg (className : String) (method : Option String) (arg : Member) : Member :=
  let arg := arg.belongingTo className method
  if arg.name = "options" then { arg with type := arg.type.map (linkOptions className method) }
  else arg

/-- The member with its arguments and options linked to it. -/
def relink (member : Member) : Member :=
  let method := if member.isMethod then some member.qualifiedName else none
  { member with
    enclosingMethod := if member.isMethod then method else member.enclosingMethod
    args := member.args.map (linkArg member.className method) }

/-- The member as one of a class. -/
def inClass (className : String) (member : Member) : Member := relink { member with className }

end Member

end RefPages
