/-
Classes and models: members and classes looked up by name, the links from members back to their
class, and the order in which the members of a class are to be documented.
-/
import RefPages.Api.Member

namespace RefPages

namespace ApiClass

/-! ## Making classes -/

/-- The class with all members linked to it. -/
def relink (cls : ApiClass) : ApiClass :=
  { cls with members := cls.members.map (Member.inClass cls.name) }

/-- A class with a name, a superclass and members. -/
def ofMembers (name : String) (superclass : Option String) (members : List Member) : ApiClass :=
  relink
    { name
      label := name
      superclass
      langs := .everywhere
      experimental := false
      since := none
      docs := []
      members }

/-- The class with its members changed. -/
def updateMembers (update : List Member → List Member) (cls : ApiClass) : ApiClass :=
  relink { cls with members := update cls.members }

/-! ## Looking at classes -/

/-- The last member with this name. -/
def member? (cls : ApiClass) (name : String) : Option Member := lastNamed? name cls.members

/-- The classes that are documented elsewhere, so that nothing is inherited from them. -/
def foreignBases : List String := ["EventEmitter", "Error", "Exception", "RuntimeException"]

/-- The class that members are inherited from. -/
def base? (cls : ApiClass) : Option String :=
  cls.superclass.filter fun base => !foreignBases.contains base

/-! ## Order of members -/

/-- A member with its class, as findings show it. -/
def display (cls : ApiClass) (member : Member) : String :=
  Member.qualify cls.name member.name ++ if member.isMethod then "()" else ""

/-- The finding that an event follows something that is no event; only the first such event
counts. -/
def strayEvent (cls : ApiClass) : List Diagnostic :=
  match (cls.members.dropWhile (·.isEvent)).find? (·.isEvent) with
  | some stray =>
    [.error (Member.qualify cls.name stray.name)
      ("Events should go first. Event '" ++ stray.name ++ "' in class " ++ cls.name ++
        " breaks order")]
  | none => []

/-- The finding that the constructor follows something that is no event. -/
def lateConstructor (cls : ApiClass) : List Diagnostic :=
  match (cls.members.takeWhile (!·.isConstructor)).getLast? with
  | some before =>
    if cls.members.any (·.isConstructor) && !before.isEvent then
      [.error (cls.name ++ ".constructor")
        ("Constructor of " ++ cls.name ++ " should go before other methods")]
    else []
  | none => []

/-- Whether the first of two names comes after the second. -/
def outOfOrder (first second : Member) : Bool :=
  Name.compareNames first.name second.name = .gt

/-- The finding that one event follows another that it should precede. -/
def eventPair (cls : ApiClass) : Member × Member → Option Diagnostic
  | (first, second) =>
    if first.isEvent && second.isEvent && outOfOrder first second then
      some (.error (Member.qualify cls.name first.name)
        ("Event '" ++ first.name ++ "' in class " ++ cls.name ++
          " breaks alphabetic ordering of events"))
    else none

/-- The finding that one of two neighbours that are no events should follow the other. -/
def memberPair (cls : ApiClass) : Member × Member → Option Diagnostic
  | (first, second) =>
    if !first.isEvent && !second.isEvent && !first.isConstructor && outOfOrder first second then
      some (.error (Member.qualify cls.name first.name)
        ("Bad alphabetic ordering of " ++ cls.name ++ " members: " ++ cls.display first ++
          " should go after " ++ cls.display second))
    else none

/-- What is wrong with the order of the members: events come first, then the constructor, then
all else, and within each group names are in order. -/
def orderFindings (cls : ApiClass) : List Diagnostic :=
  let pairs := cls.members.zip cls.members.tail
  cls.strayEvent ++ cls.lateConstructor ++ pairs.filterMap cls.eventPair ++
    pairs.filterMap cls.memberPair

end ApiClass

namespace Model

/-- The model without classes. -/
def empty : Model := ⟨[]⟩

/-- The model with all members linked to their classes. -/
def relink (model : Model) : Model := ⟨model.classes.map ApiClass.relink⟩

/-- The last class with this name. -/
def class? (model : Model) (name : String) : Option ApiClass :=
  (model.classes.filter (·.name = name)).getLast?

end Model

end RefPages
