/-
From documents to the model: headings of the first level declare classes, those of the second
declare members, and those of the third declare arguments and options.
-/
import RefPages.Api.Class
import RefPages.Api.Metadata
import RefPages.Markup.Forest

namespace RefPages

open Markup Text

/-! ## Type lines -/

/-- Whether a node is a list item with a name in backticks. -/
def isTypeLine : Node → Bool
  | .item .dash text _ => text.toList.head? = some '\x60'
  | _ => false

mutual

/-- The property that a list item documents. Type lines below it document the properties of the
objects in its type, and what else is below it is its comment. -/
def readProperty : Node → Except Fault Member
  | .item _ text children => do
    let line ← TypeLine.read text
    let metadata ← Metadata.read children
    let properties ← readProperties children
    let type ← ApiType.parse line.expression properties
    let comment := if line.comment = "" then [] else [.paragraph line.comment]
    let docs := comment ++ (Metadata.others children).filter (!isTypeLine ·)
    return metadata.describe ((Member.property line.name type !line.optional).withDocs docs)
  | other => .error (.invalidArgument (other.inlineText?.getD ""))

/-- The properties that the type lines among the nodes document. -/
def readProperties : List Node → Except Fault (List Member)
  | [] => .ok []
  | node :: nodes =>
    if isTypeLine node then do
      let property ← readProperty node
      let properties ← readProperties nodes
      return property :: properties
    else readProperties nodes

end

/-! ## Sections -/

/-- A heading with the nodes directly below it that are no headings. -/
structure Declaration where
  level : Nat
  text : String
  content : List Node

mutual

/-- The declarations of a heading and of the headings below it, in document order. -/
def declarationsOf : Node → List Declaration
  | .heading level text children =>
    ⟨level, text, children.filter (!·.isHeading)⟩ :: declarations children
  | _ => []

/-- The declarations of a document, in document order. -/
def declarations : List Node → List Declaration
  | [] => []
  | node :: nodes => declarationsOf node ++ declarations nodes

end

/-! ## Classes, members and arguments read so far -/

/-- The list with the first element that satisfies `test` changed. -/
def changeFirst {α : Type} (test : α → Bool) (change : α → Except Fault α) :
    List α → Except Fault (List α)
  | [] => .ok []
  | a :: as =>
    if test a then (change a).map (· :: as) else (changeFirst test change as).map (a :: ·)

/-- The list with the last element that satisfies `test` changed. -/
def changeLast {α : Type} (test : α → Bool) (change : α → Except Fault α) (as : List α) :
    Except Fault (List α) :=
  (changeFirst test change as.reverse).map List.reverse

/-- The classes read so far, whose members are not linked to them yet. -/
abbrev Drafts := List ApiClass

/-- The drafts with the class of a name changed; without such a class the heading declares
nothing. -/
def Drafts.change (drafts : Drafts) (name heading : String)
    (change : ApiClass → Except Fault ApiClass) : Except Fault Drafts :=
  if drafts.any (·.name = name) then changeFirst (·.name = name) change drafts
  else .error (.invalidHeading heading)

/-- The drafts with a class: a new one, or only more comment for one declared before. -/
def Drafts.readClass (drafts : Drafts) (heading : String) (content : List Node) :
    Except Fault Drafts := do
  let cs := heading.toList
  match (after? "class: ".toList cs).orElse fun _ => after? "interface: ".toList cs with
  | none => .error (.invalidHeading heading)
  | some name => do
    let name := String.ofList (trim name)
    let metadata ← Metadata.read content
    let docs := Metadata.others content
    if drafts.any (·.name = name) then
      changeFirst (·.name = name) (fun cls => .ok { cls with docs := cls.docs ++ docs }) drafts
    else
      return drafts ++ [
        { ApiClass.ofMembers name metadata.superclass [] with
          since := metadata.since
          langs := metadata.langs
          experimental := metadata.experimental
          docs }]

/-- What the words before a member's name say: the kind, whether it is asynchronous, and whether
it is required. -/
def memberKind? (words : String) : Option (MemberKind × Bool × Bool) :=
  match words with
  | "event" => some (.event, false, true)
  | "property" => some (.property, false, true)
  | "method" => some (.method, false, true)
  | "async method" => some (.method, true, true)
  | "optional method" => some (.method, false, false)
  | "optional async method" => some (.method, true, false)
  | _ => none

/-- The beginning of the line that gives the type of a member. -/
def typeKeyword : MemberKind → List Char
  | .method => "returns: ".toList
  | .property => "type: ".toList
  | .event => "argument: ".toList

/-- Whether a node gives the type of a member of this kind. -/
def isMemberType (kind : MemberKind) : Node → Bool
  | .item .dash text _ => startsWith (typeKeyword kind) text.toList
  | _ => false

/-- The first node that satisfies `test`, and all others. -/
def takeFirst (test : Node → Bool) : List Node → Option Node × List Node
  | [] => (none, [])
  | node :: nodes =>
    if test node then (some node, nodes)
    else
      let (found, others) := takeFirst test nodes
      (found, node :: others)

/-- The type of a member. Only a property must have a line that gives it. -/
def readMemberType (kind : MemberKind) (qualified : String) :
    Option Node → Except Fault (Option ApiType)
  | some line => do
    return (← readProperty line).type
  | none =>
    if kind = .property then
      .error (.invalidArgument (qualified ++ " has no `- type:` line"))
    else do
      return some (← ApiType.named "void")

/-- The drafts with a member added to its class. -/
def Drafts.readMember (drafts : Drafts) (heading : String) (content : List Node) :
    Except Fault Drafts := do
  let some (words, qualified) := splitOnce? [':', ' '] heading.toList
    | .error (.invalidHeading heading)
  let some (kind, isAsync, required) := memberKind? (String.ofList words)
    | .error (.invalidHeading heading)
  let some (className, name) := splitOnce? ['.'] (trim qualified)
    | .error (.invalidHeading heading)
  let metadata ← Metadata.read content
  let (line, docs) := takeFirst (isMemberType kind) (Metadata.others content)
  let type ← readMemberType kind (String.ofList qualified) line
  let member := (Member.ofName kind (String.ofList name) type).withDocs docs
  let member := metadata.describe { member with isAsync, required }
  drafts.change (String.ofList className) heading fun cls =>
    .ok { cls with members := cls.members ++ [member] }

/-! ## Arguments -/

/-- The object with one more property. -/
def ApiType.addProperty (property : Member) (type : ApiType) : ApiType :=
  { type with properties := some (type.properties.getD [] ++ [property]) }

/-- The arguments with one more option, which all belong to one argument. -/
def addOption (option : Member) (args : List Member) : Except Fault (List Member) :=
  let args :=
    if args.any (·.name = "options") then args
    else args ++ [Member.property "options" (ApiType.object []) false]
  changeFirst (·.name = "options")
    (fun arg => .ok { arg with type := arg.type.map (ApiType.addProperty option) }) args

/-- The arguments with one more. An argument documented again is another form of the first, for
the languages that it names. -/
def addParam (param : Member) (heading : String) (args : List Member) :
    Except Fault (List Member) :=
  if args.any (·.name = param.name) then
    changeFirst (·.name = param.name)
      (fun first =>
        match param.langs.only with
        | none => .error (.overrideWithoutLang heading)
        | some langs =>
          .ok { first with
            langs := { first.langs with
              overrides := langs.foldl (fun all lang => all.insert lang param)
                first.langs.overrides } })
      args
  else .ok (args ++ [param])

/-- Whether words declare an option or a parameter. -/
def isOption? (words : String) : Option Bool :=
  match words with
  | "param" => some false
  | "option" => some true
  | _ => none

/-- The class and the method that a name with at least two dots begins with. -/
def splitMethod? (qualified : List Char) : Option (String × String) := do
  let (className, rest) ← splitOnce? ['.'] qualified
  let (method, _) ← splitOnce? ['.'] rest
  return (String.ofList className, String.ofList method)

/-- The drafts with an argument or an option added to the last method of its name. -/
def Drafts.readArgument (drafts : Drafts) (heading : String) (content : List Node) :
    Except Fault Drafts := do
  let some (words, qualified) := splitOnce? [':', ' '] heading.toList
    | .error (.invalidHeading heading)
  let some isOption := isOption? (String.ofList words)
    | .error (.invalidHeading heading)
  let some (className, method) := splitMethod? (trim qualified)
    | .error (.invalidHeading heading)
  let metadata ← Metadata.read content
  let (some line, docs) := takeFirst isTypeLine (Metadata.others content)
    | .error (.invalidArgument heading)
  let arg ← readProperty line
  let arg := metadata.describe (arg.withDocs (arg.docs ++ docs))
  drafts.change className heading fun cls => do
    if cls.members.any (·.name = method) then
      let members ← changeLast (·.name = method)
        (fun member => do
          let args ←
            if isOption then addOption { arg with required := false } member.args
            else addParam arg heading member.args
          return { member with args })
        cls.members
      return { cls with members }
    else .error (.undefinedMember (Member.qualify className method))

/-! ## Models -/

/-- The drafts with what one heading declares. -/
def Drafts.declare (drafts : Drafts) (declaration : Declaration) : Except Fault Drafts :=
  match declaration.level with
  | 1 => drafts.readClass declaration.text declaration.content
  | 2 => drafts.readMember declaration.text declaration.content
  | 3 => drafts.readArgument declaration.text declaration.content
  | _ => .ok drafts

/-- The drafts with what the headings of one document declare. -/
def Drafts.feed (drafts : Drafts) (nodes : List Node) : Except Fault Drafts :=
  (declarations nodes).foldlM Drafts.declare drafts

/-- The arguments with the options behind all others. -/
def optionsLast (args : List Member) : List Member :=
  match args.find? (·.name = "options") with
  | some options => args.eraseP (·.name = "options") ++ [options]
  | none => args

/-- The model that the drafts amount to. -/
def Drafts.finish (drafts : Drafts) : Model :=
  ⟨drafts.map fun cls =>
    (cls.updateMembers (·.map fun member => { member with args := optionsLast member.args }))⟩

/-- The model that documents declare together. -/
def Model.ofDocuments (documents : List (List Node)) : Except Fault Model := do
  return (← documents.foldlM Drafts.feed []).finish

/-- The model that a text declares. -/
def Model.parse (text : String) : Except Fault Model := do
  Model.ofDocuments [← Markup.parse text]

end RefPages
