/-
The model without what is experimental: classes, members, arguments and properties.
-/
import RefPages.Api.Class

namespace RefPages

mutual

/-- The type without experimental properties. What a function returns is not looked into. -/
def ApiType.stable : ApiType → ApiType
  | { name, properties, union, args, returns, templates, expression } =>
    { name
      properties := stableMembers? properties
      union := stableTypes? union
      args := stableTypes? args
      returns
      templates := stableTypes? templates
      expression }

/-- The type, if there is one, without experimental properties. -/
def stableType? : Option ApiType → Option ApiType
  | none => none
  | some type => some type.stable

/-- The types, if there are any, without experimental properties. -/
def stableTypes? : Option (List ApiType) → Option (List ApiType)
  | none => none
  | some types => some (stableTypes types)

/-- The types without experimental properties. -/
def stableTypes : List ApiType → List ApiType
  | [] => []
  | type :: types => type.stable :: stableTypes types

/-- The members, if there are any, without the experimental ones. -/
def stableMembers? : Option (List Member) → Option (List Member)
  | none => none
  | some members => some (stableMembers members)

/-- The members without the experimental ones and without what is experimental in them. -/
def stableMembers : List Member → List Member
  | [] => []
  | member :: members =>
    if member.experimental then stableMembers members
    else member.stable :: stableMembers members

/-- The member without what is experimental in its arguments and its type. -/
def Member.stable : Member → Member
  | member@{ type, args, .. } =>
    { member with type := stableType? type, args := stableMembers args }

end

/-- The model without what is experimental. -/
def Model.stable (model : Model) : Model :=
  Model.relink
    ⟨(model.classes.filter (!·.experimental)).map (ApiClass.updateMembers stableMembers)⟩

end RefPages
