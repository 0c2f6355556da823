/-
Guides as pages, and the text of any page: its nodes written out, followed by the definitions of
links.
-/
import RefPages.Markup.Contents
import RefPages.Markup.Render
import RefPages.Page.Edition
import RefPages.Page.Item

namespace RefPages

open Markup

namespace Edition

/-- The page of a guide: its tables of contents are filled in and its references resolved. The
path says where a fault is. -/
def guidePage (edition : Edition) (path : String) (nodes : List Node) :
    Except Fault (List Node) :=
  let nodes := Page.shownDocs edition.dialect nodes
  let filled := fillMarks (contents false nodes) (contents true nodes) nodes
  (edition.model.resolveDocument edition.links filled).mapError (Fault.within path)

end Edition

/-- The text of a page with definitions of links after it. -/
def Page.text (width : Nat) (definitions : List String) (nodes : List Node) : String :=
  render width nodes ++
    if definitions.isEmpty then "" else "\n" ++ "\n".intercalate definitions ++ "\n"

end RefPages
