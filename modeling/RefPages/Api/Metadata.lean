/-
What the bullets under a heading or a type line say about the item: since when there is it, which
class it extends, which languages have it, and whether it is experimental or deprecated.
-/
import RefPages.Api.Member
import RefPages.Api.TypeLine

namespace RefPages

open Markup Text

/-- A bullet that says something about an item. -/
inductive Bullet where
  | since (version : String)
  | superclass (name : String)
  | langs (names : List Char) (details : List Node)
  | experimental
  | deprecated (reason : String)

namespace Bullet

/-- The bullet that a star item is, if it is one. -/
def ofText? (text : List Char) (children : List Node) : Option Bullet :=
  match after? "since:".toList text with
  | some rest => some (.since (String.ofList (trim rest)))
  | none =>
    match after? "extends:".toList text with
    | some rest => some (.superclass (ApiType.withoutBrackets (String.ofList rest)))
    | none =>
      match after? "langs:".toList text with
      | some rest => some (.langs rest children)
      | none =>
        if trim text = "experimental".toList then some .experimental
        else
          (after? "deprecated:".toList text).map fun rest =>
            .deprecated (String.ofList (trim rest))

/-- The bullet that a node is, if it is one. -/
def ofNode? : Node → Option Bullet
  | .item .star text children => ofText? text.toList children
  | _ => none

end Bullet

/-! ## Rules for languages -/

namespace LangRules

/-- The languages that a list separated by commas names; empty names are passed over. -/
def readNames (names : List Char) : Except Fault (List Lang) :=
  (((names.splitOn ',').map trim).filter (· ≠ [])).mapM fun name => Lang.read (String.ofList name)

/-- The rules with what one line below the list of languages says: another name or another type
for a language. -/
def addDetail (rules : LangRules) (text : String) : Except Fault LangRules :=
  let parts (rest : List Char) : Except Fault (List Char × List Char) :=
    match splitOnce? [':'] rest with
    | some parts => .ok parts
    | none => .error (.invalidArgument text)
  match after? "alias-".toList text.toList with
  | some rest => do
    let (lang, label) ← parts rest
    let lang ← Lang.read (String.ofList lang)
    return { rules with labels := rules.labels.insert lang (String.ofList (trim label)) }
  | none =>
    match after? "type-".toList text.toList with
    | some rest => do
      let (lang, expression) ← parts rest
      let line ← TypeLine.read ("type: " ++ String.ofList (trim expression))
      let lang ← Lang.read (String.ofList lang)
      let type ← ApiType.parse line.expression []
      return { rules with types := rules.types.insert lang type }
    | none => .ok rules

/-- The rules that a list of languages and the lines below it give. -/
def read (names : List Char) (details : List Node) : Except Fault LangRules := do
  let langs ← readNames names
  (details.filterMap Node.inlineText?).foldlM addDetail
    { LangRules.everywhere with only := if langs = [] then none else some langs }

end LangRules

/-! ## All bullets of an item -/

/-- What the bullets of an item say. -/
structure Metadata where
  since : Option String
  superclass : Option String
  langs : LangRules
  experimental : Bool
  deprecated : Option String

namespace Metadata

/-- What no bullets say. -/
def empty : Metadata := ⟨none, none, .everywhere, false, none⟩

/-- What one more bullet says; it wins over those before it. -/
def add (metadata : Metadata) : Bullet → Except Fault Metadata
  | .since version => .ok { metadata with since := some version }
  | .superclass name => .ok { metadata with superclass := some name }
  | .langs names details => do
    return { metadata with langs := ← LangRules.read names details }
  | .experimental => .ok { metadata with experimental := true }
  | .deprecated reason => .ok { metadata with deprecated := some reason }

/-- What the bullets among the nodes say. -/
def read (nodes : List Node) : Except Fault Metadata :=
  (nodes.filterMap Bullet.ofNode?).foldlM add empty

/-- The nodes that are no such bullets. -/
def others (nodes : List Node) : List Node := nodes.filter fun node => (Bullet.ofNode? node).isNone

/-- The note that a deprecated item gets above its comment. -/
def deprecationNote (reason : String) : Node := .note "caution" ("**DEPRECATED** " ++ reason)

/-- The member as the bullets describe it. -/
def describe (metadata : Metadata) (member : Member) : Member :=
  { member with
    since := metadata.since
    langs := metadata.langs
    experimental := metadata.experimental
    deprecated := member.deprecated || metadata.deprecated.isSome
    docs := (metadata.deprecated.map deprecationNote).toList ++ member.docs }

end Metadata

end RefPages
