/-
References resolved: each is checked against the model and the method it stands in, and replaced
by the text that a renderer gives for it.
-/
import RefPages.Api.Class
import RefPages.Api.Reference
import RefPages.Markup.Walk

namespace RefPages

open Markup Text

/-- What a reference is a link to. Parameters and options are given by the names that are
shown. -/
inductive LinkTarget where
  | toClass (cls : ApiClass)
  | toMember (member : Member)
  | toParam (label : String)
  | toOption (label : String)

/-- The text of a link; none when the reference is to be kept as it is. -/
abbrev LinkRenderer := LinkTarget → Option String

/-! ## What references may be to -/

/-- The last value with this key. -/
def lastValue? {α : Type} (key : String) (entries : List (String × α)) : Option α :=
  ((entries.filter (·.1 = key)).getLast?).map (·.2)

/-- The kind and the name by which a member is referred to. -/
def Member.referenceKey (member : Member) : String :=
  member.kind.word ++ ": " ++ member.qualifiedName

/-- The texts of the links to all classes and members of a model. -/
structure LinkTable where
  /-- Texts by the name of the class. -/
  classes : List (String × String)
  /-- Texts by the key of the member. -/
  members : List (String × String)
  /-- The keys of all members, with or without a text. -/
  known : List String

/-- The texts that a renderer gives for the classes and members of a model. -/
def LinkTable.ofModel (render : LinkRenderer) (model : Model) : LinkTable :=
  let members := model.classes.flatMap (·.members)
  { classes := model.classes.filterMap fun cls => (render (.toClass cls)).map (cls.name, ·)
    members := members.filterMap fun member =>
      (render (.toMember member)).map (member.referenceKey, ·)
    known := members.map (·.referenceKey) }

/-- The method that a text belongs to, with the names shown for its parameters and options. -/
structure LinkContext where
  method : String
  params : List (String × String)
  options : List (String × String)

/-- The context of the texts of a method. An option that was expanded can still be referred to by
its documented name. -/
def LinkContext.ofMethod (method : Member) : LinkContext :=
  let options := method.optionProperties
  let documented := options.filterMap fun option => option.overloadOf.map fun name => (name, name)
  { method := method.qualifiedName
    params := method.args.map fun arg => (arg.name, arg.label)
    options := documented ++ options.map fun option => (option.name, option.label) }

/-! ## Resolving -/

section

variable (render : LinkRenderer) (table : LinkTable) (context : Option LinkContext)

/-- The name shown for a parameter or an option. Outside of methods any name will do. -/
def shownName (names : LinkContext → List (String × String)) (ref : Reference) :
    Except Fault String :=
  let name := String.ofList ref.name
  match context with
  | none => .ok name
  | some context =>
    match lastValue? name (names context) with
    | some label => .ok label
    | none => .error (.undefinedParam (String.ofList ref.written) context.method)

/-- The text for a reference, its own target aside. -/
def resolveName (ref : Reference) : Except Fault (List Char) :=
  let written := String.ofList ref.written
  let kind := String.ofList ref.kind
  if kind = "event" ∨ kind = "method" ∨ kind = "property" then
    let key := kind ++ ": " ++ String.ofList ref.name
    if table.known.contains key then
      .ok ((lastValue? key table.members).getD written).toList
    else .error (.undefinedMember written)
  else if kind = "param" then do
    let label ← shownName context LinkContext.params ref
    return ((render (.toParam label)).getD written).toList
  else if kind = "option" then do
    let label ← shownName context LinkContext.options ref
    return ((render (.toOption label)).getD written).toList
  else .error (.unknownLinkKind written)

/-- The text for a reference; one with a target of its own is checked and kept. -/
def resolve (ref : Reference) : Except Fault (List Char) := do
  let text ← resolveName render table context ref
  return if ref.href.getD [] = [] then text else ref.written

/-- The text for a reference to a class; one that is a link or a definition is kept, and so is
the name of something else. -/
def resolveClass (ref : ClassReference) : List Char :=
  match ref.follow with
  | some _ => ref.written
  | none =>
    match lastValue? (String.ofList ref.name) table.classes with
    | some text => text.toList
    | none => ref.written

/-- A running text with its references resolved, first those to members, then those to
classes. -/
def resolveText (text : String) : Except Fault String := do
  let members ← tryReplace (resolve render table context) (memberPieces text.toList)
  return String.ofList (replace (resolveClass table) (classPieces members))

/-- A forest with its references resolved. -/
def resolveNodes (nodes : List Node) : Except Fault (List Node) :=
  tryMapAllTexts (resolveText render table context) nodes

/-- A member with the references in its own comment resolved. -/
def resolveDocs (member : Member) : Except Fault Member := do
  return { member with docs := ← resolveNodes render table context member.docs }

/-- An argument with the references in its comment and in those of its properties resolved. -/
def resolveArg (arg : Member) : Except Fault Member := do
  let arg ← resolveDocs render table context arg
  match arg.type with
  | some type =>
    match type.properties with
    | some properties => do
      let properties ← properties.mapM (resolveDocs render table context)
      return { arg with type := some { type with properties := some properties } }
    | none => return arg
  | none => return arg

end

/-- A member with the references in its comment and in its arguments resolved. -/
def Member.resolveLinks (render : LinkRenderer) (table : LinkTable) (member : Member) :
    Except Fault Member := do
  let context := if member.isMethod then some (LinkContext.ofMethod member) else none
  let member ← resolveDocs render table context member
  return { member with args := ← member.args.mapM (resolveArg render table context) }

/-- A class with the references in its comment and in its members resolved. -/
def ApiClass.resolveLinks (render : LinkRenderer) (table : LinkTable) (cls : ApiClass) :
    Except Fault ApiClass := do
  let docs ← resolveNodes render table none cls.docs
  let members ← cls.members.mapM (Member.resolveLinks render table)
  return ApiClass.relink { cls with docs, members }

/-- The model with the references in the comments of classes, members, arguments and options
resolved. -/
def Model.resolveLinks (render : LinkRenderer) (model : Model) : Except Fault Model := do
  return ⟨← model.classes.mapM (ApiClass.resolveLinks render (.ofModel render model))⟩

/-- A document outside of the model with its references resolved. -/
def Model.resolveDocument (render : LinkRenderer) (model : Model) (nodes : List Node) :
    Except Fault (List Node) :=
  resolveNodes render (.ofModel render model) none nodes

end RefPages
