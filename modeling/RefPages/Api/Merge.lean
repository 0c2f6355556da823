/-
Models put together: classes of one name become one class, with the members of both.
-/
import RefPages.Api.Class

namespace RefPages

/-- The first class with everything that the second adds: its members follow, its comment counts
if there was none, and so does its superclass. -/
def ApiClass.join (first second : ApiClass) : ApiClass :=
  let cls := first.updateMembers (· ++ second.members)
  { cls with
    docs := if cls.docs.isEmpty then second.docs else cls.docs
    superclass := cls.superclass.orElse fun _ => second.superclass }

/-- The classes with one more: joined to the class of its name, or put at the end. -/
def joinClass (classes : List ApiClass) (cls : ApiClass) : List ApiClass :=
  if classes.any (·.name = cls.name) then
    classes.map fun other => if other.name = cls.name then other.join cls else other
  else classes ++ [cls]

/-- Both models as one; the classes of the second follow. -/
def Model.merge (first second : Model) : Model :=
  Model.relink ⟨(first.classes ++ second.classes).foldl joinClass []⟩

end RefPages
