/-
The page of a class: its comment, a table of contents, tables of contents for what it inherits,
and a section for each form of each member of its own.
-/
import RefPages.Page.Edition
import RefPages.Page.Item

namespace RefPages

open Markup Page

namespace Edition

variable (edition : Edition)

/-! ## Anchors of forms -/

/-- The anchor of one form of a member; the first form has that of the member. -/
def formAnchor (className : String) (member : Member) (index : Nat) : String :=
  Page.anchor className member ++ if index = 0 then "" else "-" ++ toString index

/-! ## Tables of contents -/

/-- The names and the texts of the entries of a member, one for each of its forms. -/
def tocTexts (page className : String) (member : Member) : List (String × String) :=
  (edition.dialect.forms member).mapIdx fun index form =>
    (member.label,
      "[" ++ form.signature ++ "](" ++ page ++ "#" ++ formAnchor className member index ++ ")")

/-- The order of entries: by name, and by text where names count as equal. -/
def compareEntries (first second : String × String) : Ordering :=
  (Name.compareNames first.1 second.1).then (Name.compareText first.2 second.2)

/-- The table of contents for members on a page, with the anchors they have as members of a
class. -/
def toc (page className : String) (members : List Member) : List Node :=
  let entries := members.flatMap (edition.tocTexts page className)
  (entries.mergeSort fun a b => (compareEntries a b).isLE).map fun entry => .item .dash entry.2 []

/-- The section with the entries of the members inherited from a class. -/
def inheritedSection (cls : ApiClass) (base : String) : Node :=
  .heading 2 ("Inherited from " ++ ((edition.model.class? base).map (·.label)).getD base)
    (edition.toc (pageLink (stemOf edition.model base) edition.extension) base
      (cls.members.filter (·.inheritedFrom = some base)))

/-- The classes that members are inherited from, in the order of their names. -/
def basesOf (cls : ApiClass) : List String :=
  (cls.members.filterMap (·.inheritedFrom)).eraseDups.mergeSort fun a b =>
    (Name.compareText a b).isLE

/-! ## Sections of members -/

/-- A list under a title; nothing when the list is empty. -/
def titled (title : String) (items : List Node) : List Node :=
  if items.isEmpty then [] else .paragraph title :: items

/-- What is said about the type of a member, after its comment. -/
def typeNodes (member : Member) (form : Form) : Except Fault (List Node) :=
  match member.kind with
  | .method => do
    let args ← form.args.mapM (argumentItem edition.dialect false)
    let result ← resultItem? edition.dialect member
    return titled "**Arguments**" args ++ titled "**Returns**" result.toList
  | .property => do return titled "**Type**" (← valueItem? edition.dialect member).toList
  | .event => do return titled "**Event data**" (← valueItem? edition.dialect member).toList

/-- The version that introduced a member. -/
def sinceNodes (member : Member) : List Node :=
  (member.since.map fun since => Node.paragraph ("Added in: " ++ since)).toList

/-- The section of one form of a member. -/
def formSection (className : String) (member : Member) (index : Nat) (form : Form) :
    Except Fault Node := do
  let about ← edition.typeNodes member form
  return .heading 3
    (form.signature ++ " \x7b#" ++ formAnchor className member index ++ "\x7d")
    (sinceNodes member ++ shownDocs edition.dialect member.docs ++ about)

/-- The sections of a member, one for each of its forms. -/
def memberSections (className : String) (member : Member) : Except Fault (List Node) :=
  ((edition.dialect.forms member).mapIdx fun index form => (index, form)).mapM fun (index, form) =>
    edition.formSection className member index form

/-- The kinds of members in the order of their sections, with the titles of these. -/
def sectionTitles : List (MemberKind × String) :=
  [(.event, "Events"), (.method, "Methods"), (.property, "Properties")]

/-- The section of all members of one kind; nothing when there are none. -/
def kindSection (className : String) (own : List Member) (kind : MemberKind × String) :
    Except Fault (List Node) := do
  let sections ← (own.filter (·.kind = kind.1)).mapM (edition.memberSections className)
  return if sections.flatten.isEmpty then [] else [.heading 2 kind.2 sections.flatten]

/-! ## The page -/

/-- The members that a class has not inherited. -/
def ownMembers (cls : ApiClass) : List Member := cls.members.filter (·.inheritedFrom.isNone)

/-- The properties at the top of the page of a class. -/
def classHead (cls : ApiClass) : Node :=
  .properties ["id: " ++ Page.stem cls.label, "title: \"" ++ cls.label ++ "\""]

/-- The page of a class. -/
def classPage (cls : ApiClass) : Except Fault (List Node) := do
  let own := ownMembers cls
  let sections ← sectionTitles.mapM (edition.kindSection cls.name own)
  return classHead cls :: shownDocs edition.dialect cls.docs ++
    (cls.superclass.map fun base => Node.paragraph ("Extends: " ++ bracketed base)).toList ++
    edition.toc "" cls.name own ++ (basesOf cls).map (edition.inheritedSection cls) ++
    sections.flatten

end Edition

end RefPages
