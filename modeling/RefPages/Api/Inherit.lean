/-
Members handed down from superclasses. Classes are dealt with from the top of the hierarchy
down, so that a class hands on what it has inherited itself.
-/
import RefPages.Api.Class

namespace RefPages

namespace Model

/-- The names other than `name`. -/
def otherNames (name : String) (names : List String) : List String := names.filter (· ≠ name)

theorem length_otherNames_lt {name : String} {names : List String} (h : name ∈ names) :
    (otherNames name names).length < names.length :=
  List.length_filter_lt_length_iff_exists.2 ⟨name, h, by simp⟩

/-- The number of superclasses above a class, of those not yet seen on the way up. -/
def depthFrom (model : Model) (unseen : List String) (cls : ApiClass) : Nat :=
  match cls.base?.bind model.class? with
  | none => 0
  | some base =>
    if h : base.name ∈ unseen then 1 + depthFrom model (otherNames base.name unseen) base
    else 0
termination_by unseen.length
decreasing_by exact length_otherNames_lt h

/-- The number of superclasses above a class; a circle is counted once around. -/
def depth (model : Model) (cls : ApiClass) : Nat :=
  depthFrom model (model.classes.map (·.name)) cls

/-- What one class inherits: copies of the members of its base, and a finding for each member
that it documents itself. -/
def inherited (cls base : ApiClass) : List Member × List Diagnostic :=
  let (own, new) := base.members.partition fun member => (cls.member? member.name).isSome
  (new.map fun member =>
    { member with inheritedFrom := some (member.inheritedFrom.getD base.name) },
    own.map fun member =>
      .error (Member.qualify cls.name member.name)
        ("Member documentation overrides base: " ++ Member.qualify cls.name member.name ++ " over " ++
          Member.qualify base.name member.name))

/-- The model with the members that the class at a position inherits, and what is wrong there. -/
def inheritAt (model : Model) (position : Nat) : Model × List Diagnostic :=
  match model.classes[position]? with
  | none => (model, [])
  | some cls =>
    match cls.base? with
    | none => (model, [])
    | some baseName =>
      match model.class? baseName with
      | none =>
        (model,
          [.error cls.name ("Undefined superclass: " ++ baseName ++ " in " ++ cls.name)])
      | some base =>
        let (new, findings) := inherited cls base
        (⟨model.classes.set position (cls.updateMembers (· ++ new))⟩, findings)

/-- The positions of the classes, those with fewer superclasses first. -/
def inheritanceOrder (model : Model) : List Nat :=
  let depths := model.classes.map model.depth
  (List.range model.classes.length).mergeSort fun a b => depths[a]?.getD 0 ≤ depths[b]?.getD 0

/-- The model with all members that its classes inherit, and what is wrong with the order of
members and with the hierarchy. -/
def inherit (model : Model) : Model × List Diagnostic :=
  let (inherited, findings) :=
    model.inheritanceOrder.foldl
      (fun (model, findings) position =>
        let (model, new) := model.inheritAt position
        (model, findings ++ new))
      (model, model.classes.flatMap (·.orderFindings))
  (inherited.relink, findings)

end Model

end RefPages
