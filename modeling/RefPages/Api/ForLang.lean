/-
The model as one language sees it: what the language does not have is left out, and names, types
and arguments that differ in it take the place of the common ones.
-/
import RefPages.Api.Overload

namespace RefPages

/-- Whether an argument is the one for options and holds none. -/
def Member.isEmptyOptions (arg : Member) : Bool :=
  arg.name = "options" && ((arg.type.bind (·.properties)).getD []).isEmpty

mutual

/-- The type as the language sees it. -/
def ApiType.forLang (lang : Lang) : ApiType → ApiType
  | { name, properties, union, args, returns, templates, expression } =>
    { name
      properties := membersForLang? lang properties
      union := typesForLang? lang union
      args := typesForLang? lang args
      returns := typeForLang? lang returns
      templates := typesForLang? lang templates
      expression }

/-- The type, if there is one, as the language sees it. -/
def typeForLang? (lang : Lang) : Option ApiType → Option ApiType
  | none => none
  | some type => some (type.forLang lang)

/-- The types, if there are any, as the language sees them. -/
def typesForLang? (lang : Lang) : Option (List ApiType) → Option (List ApiType)
  | none => none
  | some types => some (typesForLang lang types)

/-- The types as the language sees them. -/
def typesForLang (lang : Lang) : List ApiType → List ApiType
  | [] => []
  | type :: types => type.forLang lang :: typesForLang lang types

/-- The properties, if there are any, that the language has. -/
def membersForLang? (lang : Lang) : Option (List Member) → Option (List Member)
  | none => none
  | some members => some (membersForLang lang members)

/-- The members that the language has, as it sees them. -/
def membersForLang (lang : Lang) : List Member → List Member
  | [] => []
  | member :: members =>
    if member.langs.includes lang then member.forLang lang :: membersForLang lang members
    else membersForLang lang members

/-- The member as the language sees it. -/
def Member.forLang (lang : Lang) : Member → Member
  | member@{ label, type, args, langs := { labels, types, .. }, .. } =>
    { member with
      label := (labels.get? lang).getD label
      type := (chosenType? lang types).orElse fun _ => typeForLang? lang type
      args := argsForLang lang args }

/-- The arguments that the language has, as it sees them. An argument that has another form in
the language takes that form, and the one for options is left out when it holds none. -/
def argsForLang (lang : Lang) : List Member → List Member
  | [] => []
  | arg :: args =>
    if arg.langs.includes lang then
      let shown := (arg.override? lang).getD (arg.forLang lang)
      if shown.isEmptyOptions then argsForLang lang args else shown :: argsForLang lang args
    else argsForLang lang args

/-- The form that an argument has in the language only, as the language sees it. -/
def Member.override? (lang : Lang) : Member → Option Member
  | { langs := { overrides, .. }, .. } => chosenMember? lang overrides

/-- The type that the language has of its own, as it sees it. -/
def chosenType? (lang : Lang) : PerLang ApiType → Option ApiType
  | { js, python, java, csharp } =>
    match lang with
    | .js => typeForLang? lang js
    | .python => typeForLang? lang python
    | .java => typeForLang? lang java
    | .csharp => typeForLang? lang csharp

/-- The member that the language has of its own, as it sees it. -/
def chosenMember? (lang : Lang) : PerLang Member → Option Member
  | { js, python, java, csharp } =>
    match lang with
    | .js => memberForLang? lang js
    | .python => memberForLang? lang python
    | .java => memberForLang? lang java
    | .csharp => memberForLang? lang csharp

/-- The member, if there is one, as the language sees it. -/
def memberForLang? (lang : Lang) : Option Member → Option Member
  | none => none
  | some member => some (member.forLang lang)

end

/-- A member of a class as the language sees it; the options of a C# method are expanded. -/
def Member.inLang (lang : Lang) (style : OverloadStyle) (member : Member) : Except Fault Member :=
  let member := member.forLang lang
  if lang = .csharp ∧ member.isMethod then member.expandOverloads style else .ok member

/-- The class as the language sees it. -/
def ApiClass.inLang (lang : Lang) (style : OverloadStyle) (cls : ApiClass) :
    Except Fault ApiClass := do
  let members ← (cls.members.filter (·.langs.includes lang)).mapM (Member.inLang lang style)
  return ApiClass.relink
    { cls with label := (cls.langs.labels.get? lang).getD cls.label, members }

/-- The model as the language sees it. -/
def Model.inLang (lang : Lang) (style : OverloadStyle) (model : Model) : Except Fault Model := do
  return Model.relink
    ⟨← (model.classes.filter (·.langs.includes lang)).mapM (ApiClass.inLang lang style)⟩

end RefPages
