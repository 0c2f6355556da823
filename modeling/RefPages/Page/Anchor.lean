/-
Where the documentation of classes and members is found: the names of pages and the anchors on
them.
-/
import RefPages.Api.Class
import RefPages.Name.Words

namespace RefPages.Page

open Text

/-- The name of the page of a class, without its extension. -/
def stem (classLabel : String) : String :=
  "class-" ++ String.ofList (lower classLabel.toList)

/-- The anchor of a member on the page of a class. -/
def anchor (className : String) (member : Member) : String :=
  Name.kebabCase className ++ (if member.isEvent then "-event-" else "-") ++
    Name.kebabCase member.name

end RefPages.Page
