/-
The properties at the top of a guide: a name for its page and a title.
-/
import RefPages.Fault
import RefPages.Markup.Node
import RefPages.Yaml.Node

namespace RefPages

/-- What the properties at the top of a guide say. -/
structure FrontMatter where
  /-- The name of the page, without its extension. -/
  id : Option String
  title : Option String
  deriving DecidableEq, Repr

namespace FrontMatter

/-- A guide without properties. -/
def none : FrontMatter := ⟨.none, .none⟩

/-- Whether plain characters mean that there is no value. -/
def isNull (text : List Char) : Bool :=
  ["~", "null", "Null", "NULL"].contains (String.ofList text)

/-- The tag of a missing value. -/
def nullTag : List Char := "tag:yaml.org,2002:null".toList

/-- Whether a node is a missing value; none when it only claims to be one. -/
def isMissing? : Yaml.Node → Option Bool
  | .scalar text true tag =>
    match tag with
    | some tag => if tag = nullTag then (if isNull text then some true else .none) else some false
    | .none => some (text.isEmpty || isNull text)
  | _ => some false

/-- The text of a property, if it has a value. -/
def textOf? (node : Yaml.Node) : Option (Option String) := do
  if ← isMissing? node then return .none
  else
    match node with
    | .scalar text _ _ => return some (String.ofList text)
    | _ => failure

/-- The properties with one more entry. A property may be given once, and others than those that a
guide has do not count. -/
def addEntry (hasId hasTitle : Bool) (matter : FrontMatter) :
    List (Yaml.Node × Yaml.Node) → Option FrontMatter
  | [] => some matter
  | (.scalar key _ _, value) :: entries => do
    if key = "id".toList then
      if hasId then failure
      addEntry true hasTitle { matter with id := ← textOf? value } entries
    else if key = "title".toList then
      if hasTitle then failure
      addEntry hasId true { matter with title := ← textOf? value } entries
    else addEntry hasId hasTitle matter entries
  | _ => .none

/-- The properties that a text gives. -/
def ofText? (text : List Char) : Option FrontMatter := do
  match ← Yaml.readDocument text with
  | .none => return none
  | some root =>
    if ← isMissing? root then return none
    else
      match root with
      | .mapping entries => addEntry false false none entries
      | _ => failure

/-- The properties of the guide at a path, which stand before all else in it. -/
def ofNodes (path : String) (nodes : List Markup.Node) : Except Fault FrontMatter :=
  match nodes with
  | .properties lines :: _ =>
    match ofText? ("\n".intercalate lines).toList with
    | some matter => .ok matter
    | .none => .error (.badFrontMatter path)
  | _ => .ok none

end FrontMatter

end RefPages
