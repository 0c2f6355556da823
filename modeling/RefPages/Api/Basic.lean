/-
The documented API: classes with their members, members with their types and arguments, and
types with the properties of the objects in them.
-/
import RefPages.Lang
import RefPages.Markup.Node
import RefPages.TypeExpr.Basic

namespace RefPages

open Markup (Node)

/-- What a member of a class is. Arguments and options are properties. -/
inductive MemberKind where
  | property
  | method
  | event
  deriving DecidableEq, Repr

/-- The word for a kind of member. -/
def MemberKind.word : MemberKind → String
  | .property => "property"
  | .method => "method"
  | .event => "event"

mutual

/-- A type. The fields after the name are absent unless the type has the part in question. -/
structure ApiType where
  name : String
  /-- What an object has; only objects have it. -/
  properties : Option (List Member)
  /-- The alternatives of a union. -/
  union : Option (List ApiType)
  /-- The arguments of a function. -/
  args : Option (List ApiType)
  /-- What a function returns. -/
  returns : Option ApiType
  /-- The parameters between angle brackets. -/
  templates : Option (List ApiType)
  /-- The expression that the type was read from. -/
  expression : Option String

/-- A property, method or event of a class, an argument of a method, or an option. -/
structure Member where
  kind : MemberKind
  name : String
  /-- The name that is shown: without the number of an overload, and by language. -/
  label : String
  overloadIndex : Nat
  type : Option ApiType
  args : List Member
  docs : List Node
  required : Bool
  isAsync : Bool
  deprecated : Bool
  experimental : Bool
  since : Option String
  langs : LangRules
  /-- The class that the member belongs to. -/
  className : String
  /-- The method that an argument or an option belongs to, after its class and a dot. -/
  enclosingMethod : Option String
  /-- The class that an inherited member was first documented on. -/
  inheritedFrom : Option String
  /-- The option that this one was made from, for one alternative of its type. -/
  overloadOf : Option String

/-- What holds in some languages only. -/
structure LangRules where
  /-- The languages that have the item; all of them when absent. -/
  only : Option (List Lang)
  /-- Names shown in place of the label. -/
  labels : PerLang String
  /-- Types in place of the type. -/
  types : PerLang ApiType
  /-- Arguments in place of the whole argument. -/
  overrides : PerLang Member

end

/-- No difference between languages. -/
def LangRules.everywhere : LangRules := ⟨none, .empty, .empty, .empty⟩

/-- Whether a language has the item. -/
def LangRules.includes (rules : LangRules) (lang : Lang) : Bool :=
  match rules.only with
  | some langs => langs.contains lang
  | none => true

/-- A class of the API. -/
structure ApiClass where
  /-- The name in the sources, by which the class is looked up. -/
  name : String
  /-- The name that is shown. -/
  label : String
  superclass : Option String
  langs : LangRules
  experimental : Bool
  since : Option String
  docs : List Node
  members : List Member

/-- The classes of an API in the order in which they were first declared. -/
structure Model where
  classes : List ApiClass

end RefPages
