/-
The reference in one language: its model with all references resolved to links between pages, and
the names of those pages.
-/
import RefPages.Api.Link
import RefPages.Dialect.Signature
import RefPages.Page.Anchor

namespace RefPages

/-- The reference in one language. -/
structure Edition where
  dialect : Dialect
  /-- The model whose pages are written. -/
  model : Model
  /-- How references in texts are written. -/
  links : LinkRenderer
  /-- The extension of the files that pages are written to. -/
  extension : String

namespace Edition

/-! ## Pages -/

/-- The name of the page of a class, without its extension. A class that the model lacks is named
as if its label were its name. -/
def stemOf (model : Model) (className : String) : String :=
  Page.stem (((model.class? className).map (·.label)).getD className)

/-- The place of a page as other pages refer to it. -/
def pageLink (stem extension : String) : String := "./" ++ stem ++ "." ++ extension

/-! ## Links -/

/-- The page and the anchor of a member; an inherited one is found on the page of the class that
documents it. None when the model lacks that class. -/
def memberPlace? (model : Model) (extension : String) (member : Member) : Option String :=
  let owner := member.inheritedFrom.getD member.className
  (model.class? owner).map fun cls =>
    pageLink (Page.stem cls.label) extension ++ "#" ++ Page.anchor owner member

/-- The links of an edition. -/
def linksBetween (dialect : Dialect) (model : Model) (extension : String) : LinkRenderer
  | .toClass cls => some (Dialect.classLink cls)
  | .toMember member => (memberPlace? model extension member).map (dialect.memberLink member)
  | .toParam label => some (dialect.paramLink label)
  | .toOption label => some (dialect.optionLink label)

/-- The edition of a model that is in a language already. -/
def ofModel (lang : Lang) (extension : String) (model : Model) : Except Fault Edition := do
  let dialect : Dialect := ⟨lang, model.classes.map (·.name) ++ ApiClass.foreignBases⟩
  let links := linksBetween dialect model extension
  return { dialect, model := ← model.resolveLinks links, links, extension }

/-! ## Definitions of links -/

/-- The definition of the link to a class. -/
def classDefinition (extension : String) (cls : ApiClass) : String :=
  "[" ++ cls.label ++ "]: " ++ pageLink (Page.stem cls.label) extension ++ " \"" ++ cls.label ++ "\""

/-- The definitions of the links to all classes, in the order of their labels, one for each. -/
def classDefinitions (edition : Edition) : List String :=
  let labels := (edition.model.classes.map (·.label)).eraseDups
  let sorted := labels.mergeSort fun a b => (Name.compareText a b).isLE
  sorted.filterMap fun label =>
    (edition.model.classes.find? (·.label = label)).map (classDefinition edition.extension)

end Edition

end RefPages
