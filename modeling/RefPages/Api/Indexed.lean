/-
Models as they are kept in memory. Classes, members and arguments are looked up in tables of
positions that are kept beside the lists they point into, and each operation that changes a list
makes the tables anew.
-/
import RefPages.Api.ForLang
import RefPages.Api.Inherit
import RefPages.Api.Link
import RefPages.Api.Merge
import RefPages.Api.Read
import RefPages.Api.Stable

namespace RefPages

/-! ## Tables of positions -/

/-- Positions by name. An entry hides those of its name that were made before. -/
structure Positions where
  entries : List (String × Nat)
  deriving DecidableEq, Repr

namespace Positions

/-- The table without entries. -/
def empty : Positions := ⟨[]⟩

/-- The position that a name stands for. -/
def find? (table : Positions) (name : String) : Option Nat := table.entries.lookup name

/-- The table with a position for a name. -/
def insert (table : Positions) (name : String) (position : Nat) : Positions :=
  ⟨(name, position) :: table.entries⟩

/-- The table with the positions of names, the first of which stands at `position`. -/
def insertFrom (table : Positions) (position : Nat) : List String → Positions
  | [] => table
  | name :: names => (table.insert name position).insertFrom (position + 1) names

/-- The positions of names. -/
def ofNames (names : List String) : Positions := empty.insertFrom 0 names

end Positions

/-! ## Members with their arguments -/

/-- A member with the positions of its arguments. -/
structure IndexedMember where
  member : Member
  args : Positions

namespace IndexedMember

/-- A member without a table. -/
def ofMember (member : Member) : IndexedMember := ⟨member, .empty⟩

/-- The argument that a name stands for. -/
def arg? (indexed : IndexedMember) (name : String) : Option Member :=
  (indexed.args.find? name).bind (indexed.member.args[·]?)

/-- The member with its arguments and options linked to it, and with their positions. -/
def rebuild (indexed : IndexedMember) : IndexedMember :=
  ⟨indexed.member.relink, .ofNames (indexed.member.args.map (·.name))⟩

/-- The member as one of a class. -/
def inClass (className : String) (indexed : IndexedMember) : IndexedMember :=
  rebuild { indexed with member := { indexed.member with className } }

/-- The member as a language sees it. -/
def inLang (lang : Lang) (style : OverloadStyle) (indexed : IndexedMember) :
    Except Fault IndexedMember := do
  return rebuild { indexed with member := ← indexed.member.inLang lang style }

/-- The member without what is experimental. -/
def stable (indexed : IndexedMember) : IndexedMember :=
  rebuild { indexed with member := indexed.member.stable }

/-- The options that the method takes. -/
def optionProperties (indexed : IndexedMember) : List Member :=
  (((indexed.arg? "options").bind (·.type)).bind (·.properties)).getD []

/-- The context of the texts of a method. -/
def linkContext (method : IndexedMember) : LinkContext :=
  let options := method.optionProperties
  let documented := options.filterMap fun option => option.overloadOf.map fun name => (name, name)
  { LinkContext.ofMethod method.member with
    options := documented ++ options.map fun option => (option.name, option.label) }

/-- The member with the references in its comment and in its arguments resolved. -/
def resolveLinks (render : LinkRenderer) (table : LinkTable) (indexed : IndexedMember) :
    Except Fault IndexedMember := do
  let context := if indexed.member.isMethod then some indexed.linkContext else none
  let member ← resolveDocs render table context indexed.member
  let args ← member.args.mapM (resolveArg render table context)
  return { indexed with member := { member with args } }

end IndexedMember

/-! ## Classes with their members -/

/-- The positions of the members of a class, by name and by kind. -/
structure ClassIndex where
  members : Positions
  properties : List Nat
  methods : List Nat
  events : List Nat

namespace ClassIndex

/-- The index of a class without members. -/
def empty : ClassIndex := ⟨.empty, [], [], []⟩

/-- The index with one more member. -/
def insert (index : ClassIndex) (member : Member) (position : Nat) : ClassIndex :=
  let index := { index with members := index.members.insert member.name position }
  match member.kind with
  | .property => { index with properties := index.properties ++ [position] }
  | .method => { index with methods := index.methods ++ [position] }
  | .event => { index with events := index.events ++ [position] }

/-- The index with more members, the first of which stands at `position`. -/
def insertFrom (index : ClassIndex) (position : Nat) : List Member → ClassIndex
  | [] => index
  | member :: members => (index.insert member position).insertFrom (position + 1) members

/-- The index of members. -/
def ofMembers (members : List Member) : ClassIndex := empty.insertFrom 0 members

/-- The positions of the members of one kind. -/
def positionsOf (index : ClassIndex) : MemberKind → List Nat
  | .property => index.properties
  | .method => index.methods
  | .event => index.events

end ClassIndex

/-- A class with the positions of its members. -/
structure IndexedClass where
  name : String
  label : String
  superclass : Option String
  langs : LangRules
  experimental : Bool
  since : Option String
  docs : List Markup.Node
  members : List IndexedMember
  index : ClassIndex

namespace IndexedClass

/-- A class without tables. -/
def ofClass (cls : ApiClass) : IndexedClass where
  name := cls.name
  label := cls.label
  superclass := cls.superclass
  langs := cls.langs
  experimental := cls.experimental
  since := cls.since
  docs := cls.docs
  members := cls.members.map .ofMember
  index := .empty

/-- The class without its tables. -/
def contents (cls : IndexedClass) : ApiClass where
  name := cls.name
  label := cls.label
  superclass := cls.superclass
  langs := cls.langs
  experimental := cls.experimental
  since := cls.since
  docs := cls.docs
  members := cls.members.map (·.member)

/-- The member that a name stands for. -/
def member? (cls : IndexedClass) (name : String) : Option IndexedMember :=
  (cls.index.members.find? name).bind (cls.members[·]?)

/-- The members of one kind. -/
def membersOf (cls : IndexedClass) (kind : MemberKind) : List IndexedMember :=
  (cls.index.positionsOf kind).filterMap (cls.members[·]?)

/-- The class with all members linked to it, and with their positions. -/
def rebuild (cls : IndexedClass) : IndexedClass :=
  let members := cls.members.map (IndexedMember.inClass cls.name)
  { cls with members, index := .ofMembers (members.map (·.member)) }

/-- The class with its members changed. -/
def updateMembers (update : List IndexedMember → List IndexedMember) (cls : IndexedClass) :
    IndexedClass :=
  rebuild { cls with members := update cls.members }

/-- The class with other members. -/
def setMembers (members : List IndexedMember) (cls : IndexedClass) : IndexedClass :=
  cls.updateMembers fun _ => members

/-- The class with one more member. -/
def pushMember (member : IndexedMember) (cls : IndexedClass) : IndexedClass :=
  cls.updateMembers (· ++ [member])

/-- The first class with everything that the second adds. -/
def join (first second : IndexedClass) : IndexedClass :=
  let cls := first.updateMembers (· ++ second.members)
  { cls with
    docs := if cls.docs.isEmpty then second.docs else cls.docs
    superclass := cls.superclass.orElse fun _ => second.superclass }

/-- What one class inherits, and a finding for each member that it documents itself. -/
def inherited (cls base : IndexedClass) : List IndexedMember × List Diagnostic :=
  let (own, new) :=
    base.members.partition fun indexed => (cls.member? indexed.member.name).isSome
  (new.map fun indexed =>
    { indexed with
      member :=
        { indexed.member with
          inheritedFrom := some (indexed.member.inheritedFrom.getD base.name) } },
    own.map fun indexed =>
      .error (Member.qualify cls.name indexed.member.name)
        ("Member documentation overrides base: " ++ Member.qualify cls.name indexed.member.name ++
          " over " ++ Member.qualify base.name indexed.member.name))

/-- The class as a language sees it. -/
def inLang (lang : Lang) (style : OverloadStyle) (cls : IndexedClass) :
    Except Fault IndexedClass := do
  let members ← (cls.members.filter (·.member.langs.includes lang)).mapM
    (IndexedMember.inLang lang style)
  return { cls with label := (cls.langs.labels.get? lang).getD cls.label }.setMembers members

/-- The class without experimental members and without what is experimental in them. -/
def stable (cls : IndexedClass) : IndexedClass :=
  cls.updateMembers fun members =>
    (members.filter (!·.member.experimental)).map IndexedMember.stable

/-- The class with the references in its comment and in its members resolved. -/
def resolveLinks (render : LinkRenderer) (table : LinkTable) (cls : IndexedClass) :
    Except Fault IndexedClass := do
  let docs ← resolveNodes render table none cls.docs
  let members ← cls.members.mapM (IndexedMember.resolveLinks render table)
  return { cls with docs }.setMembers members

end IndexedClass

/-! ## Models with their classes -/

/-- A model with the positions of its classes. -/
structure IndexedModel where
  classes : List IndexedClass
  index : Positions

namespace IndexedModel

/-- The model without its tables. -/
def contents (model : IndexedModel) : Model := ⟨model.classes.map (·.contents)⟩

/-- The class that a name stands for. -/
def class? (model : IndexedModel) (name : String) : Option IndexedClass :=
  (model.index.find? name).bind (model.classes[·]?)

/-- The model of classes: all members are linked, and all tables are made. -/
def ofClasses (classes : List IndexedClass) : IndexedModel :=
  ⟨classes.map (·.rebuild), .ofNames (classes.map (·.name))⟩

/-- The model with all tables made anew. -/
def rebuild (model : IndexedModel) : IndexedModel := ofClasses model.classes

/-- The model that a text declares. -/
def parse (text : String) : Except Fault IndexedModel := do
  let model ← Model.parse text
  return ofClasses (model.classes.map .ofClass)

/-- Classes with one more, which is joined to the class of its name; the table has the positions of
the classes so far. -/
def joinClass (state : List IndexedClass × Positions) (cls : IndexedClass) :
    List IndexedClass × Positions :=
  match state.2.find? cls.name with
  | some position => (state.1.modify position (·.join cls), state.2)
  | none => (state.1 ++ [cls], state.2.insert cls.name state.1.length)

/-- Both models as one; the classes of the second follow. -/
def merge (first second : IndexedModel) : IndexedModel :=
  ofClasses ((first.classes ++ second.classes).foldl joinClass ([], .empty)).1

/-- The number of superclasses above a class, of those not yet seen on the way up. -/
def depthFrom (model : IndexedModel) (unseen : List String) (cls : IndexedClass) : Nat :=
  match cls.contents.base?.bind model.class? with
  | none => 0
  | some base =>
    if h : base.name ∈ unseen then 1 + depthFrom model (Model.otherNames base.name unseen) base
    else 0
termination_by unseen.length
decreasing_by exact Model.length_otherNames_lt h

/-- The number of superclasses above a class; a circle is counted once around. -/
def depth (model : IndexedModel) (cls : IndexedClass) : Nat :=
  depthFrom model (model.classes.map (·.name)) cls

/-- The model with the members that the class at a position inherits, and what is wrong there. -/
def inheritAt (model : IndexedModel) (position : Nat) : IndexedModel × List Diagnostic :=
  match model.classes[position]? with
  | none => (model, [])
  | some cls =>
    match cls.contents.base? with
    | none => (model, [])
    | some baseName =>
      match model.class? baseName with
      | none =>
        (model,
          [.error cls.name ("Undefined superclass: " ++ baseName ++ " in " ++ cls.name)])
      | some base =>
        let (new, findings) := cls.inherited base
        ({ model with classes := model.classes.set position (cls.updateMembers (· ++ new)) },
          findings)

/-- The positions of the classes, those with fewer superclasses first. -/
def inheritanceOrder (model : IndexedModel) : List Nat :=
  let depths := model.classes.map model.depth
  (List.range model.classes.length).mergeSort fun a b => depths[a]?.getD 0 ≤ depths[b]?.getD 0

/-- The model with all members that its classes inherit, and what is wrong with the order of
members and with the hierarchy. -/
def inherit (model : IndexedModel) : IndexedModel × List Diagnostic :=
  let (inherited, findings) :=
    model.inheritanceOrder.foldl
      (fun (model, findings) position =>
        let (model, new) := model.inheritAt position
        (model, findings ++ new))
      (model, model.classes.flatMap (·.contents.orderFindings))
  (inherited.rebuild, findings)

/-- The model as the language sees it. -/
def inLang (lang : Lang) (style : OverloadStyle) (model : IndexedModel) :
    Except Fault IndexedModel := do
  return ofClasses
    (← (model.classes.filter (·.langs.includes lang)).mapM (IndexedClass.inLang lang style))

/-- The model without what is experimental. -/
def stable (model : IndexedModel) : IndexedModel :=
  ofClasses ((model.classes.filter (!·.experimental)).map IndexedClass.stable)

/-- The model with its references resolved. The table of the classes stays. -/
def resolveLinks (render : LinkRenderer) (model : IndexedModel) : Except Fault IndexedModel := do
  let table := LinkTable.ofModel render model.contents
  return { model with classes := ← model.classes.mapM (IndexedClass.resolveLinks render table) }

end IndexedModel

end RefPages
