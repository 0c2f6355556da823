/-
Where inherited members come from. Whatever the hierarchy, circles included, each of them is a copy
of a member that some class of the model documents itself, under the name of that class: handing
down copies what is there, and a copy of a copy is a copy of the first.
-/
import RefPages.Proofs.Api.Inherit

namespace RefPages

/-- A copy of a member in a class, with the class that documents it. -/
def Member.copyFrom (className base : String) (own : Member) : Member :=
  Member.inClass className { own with inheritedFrom := some base }

/-- A copy that is handed down is a copy of the same member. -/
theorem Member.copyFrom_copyFrom (first second base : String) (own : Member) :
    Member.copyFrom second base (Member.copyFrom first base own) = Member.copyFrom second base own :=
  Member.inClass_inClass first second { own with inheritedFrom := some base }

namespace Model

/-- The member is a copy of one that a class of the model documents itself. -/
def CopiesOwn (model : Model) (className base : String) (member : Member) : Prop :=
  ∃ owner ∈ model.classes, owner.name = base ∧ ∃ own ∈ owner.members, own.inheritedFrom = none ∧
    member = Member.copyFrom className base own

/-- A model with distinct classes, linked to their members, in which what is inherited has an origin. -/
structure Traceable (model : Model) : Prop where
  distinct : (model.classes.map (·.name)).Nodup
  linked : ∀ cls ∈ model.classes, cls.Linked
  origin : ∀ cls ∈ model.classes, ∀ member ∈ cls.members, ∀ base, member.inheritedFrom = some base →
    model.CopiesOwn cls.name base member

theorem Fresh.traceable {model : Model} (h : model.Fresh) : model.Traceable := by
  refine ⟨h.distinct, h.linked, fun cls hcls member hmember base hbase => ?_⟩
  rw [h.original cls hcls member hmember] at hbase
  cases hbase

/-! ## One class after another -/

/-- Every class of a model is in another one, perhaps with more members. -/
def Grows (model model' : Model) : Prop :=
  ∀ cls ∈ model.classes, ∃ cls' ∈ model'.classes, cls'.name = cls.name ∧ cls.members ⊆ cls'.members

theorem CopiesOwn.grows {model model' : Model} (hgrows : model.Grows model') {className base : String}
    {member : Member} (h : model.CopiesOwn className base member) : model'.CopiesOwn className base member := by
  obtain ⟨owner, howner, hname, own, hown, hnone, hcopy⟩ := h
  obtain ⟨owner', howner', hname', hmembers⟩ := hgrows owner howner
  exact ⟨owner', howner', hname'.trans hname, own, hmembers hown, hnone, hcopy⟩

theorem map_name_set {classes : List ApiClass} {position : Nat} {cls changed : ApiClass}
    (hcls : classes[position]? = some cls) (hname : changed.name = cls.name) :
    (classes.set position changed).map (·.name) = classes.map (·.name) := by
  apply List.ext_getElem?
  intro index
  rw [List.getElem?_map, List.getElem?_map, List.getElem?_set]
  split
  · rename_i heq
    subst heq
    obtain ⟨hlt, -⟩ := List.getElem?_eq_some_iff.1 hcls
    rw [if_pos hlt, hcls, Option.map_some, Option.map_some, hname]
  · rfl

theorem grows_set {classes : List ApiClass} {position : Nat} {cls changed : ApiClass}
    (hcls : classes[position]? = some cls) (hname : changed.name = cls.name)
    (hmembers : cls.members ⊆ changed.members) : Grows ⟨classes⟩ ⟨classes.set position changed⟩ := by
  intro other hother
  obtain ⟨index, hindex⟩ := List.mem_iff_getElem?.1 hother
  by_cases heq : index = position
  · subst heq
    obtain rfl := Option.some.inj (hcls.symm.trans hindex)
    obtain ⟨hlt, -⟩ := List.getElem?_eq_some_iff.1 hcls
    exact ⟨changed, List.mem_set hlt changed, hname, hmembers⟩
  · refine ⟨other, List.mem_of_getElem? (i := index) ?_, rfl, fun _ => id⟩
    rwa [List.getElem?_set_ne (Ne.symm heq)]

/-- What a class is handed by a traceable base are copies. -/
theorem Traceable.inherited {model : Model} (h : model.Traceable) {cls base : ApiClass} (hbase : base ∈ model.classes)
    {member : Member} (hmember : member ∈ (inherited cls base).1) :
    ∃ origin, model.CopiesOwn cls.name origin (member.inClass cls.name) ∧ member.inheritedFrom = some origin := by
  rw [inherited_eq] at hmember
  obtain ⟨before, hbefore, rfl⟩ := List.mem_map.1 hmember
  have hbefore := (List.mem_filter.1 hbefore).1
  cases horigin : before.inheritedFrom with
  | none => exact ⟨base.name, ⟨base, hbase, rfl, before, hbefore, horigin, rfl⟩, rfl⟩
  | some origin =>
    refine ⟨origin, ?_, rfl⟩
    obtain ⟨owner, howner, hname, own, hown, hnone, rfl⟩ := h.origin base hbase before hbefore origin horigin
    exact ⟨owner, howner, hname, own, hown, hnone, Member.copyFrom_copyFrom base.name cls.name origin own⟩

/-- Handing the members of a base to a class keeps a model traceable. -/
theorem Traceable.set_inherited {model : Model} (h : model.Traceable) {position : Nat} {cls base : ApiClass}
    (hcls : model.classes[position]? = some cls) (hbase : base ∈ model.classes) :
    Traceable ⟨model.classes.set position (cls.updateMembers (· ++ (Model.inherited cls base).1))⟩ := by
  have hmem := List.mem_of_getElem? hcls
  have hmembers : (cls.updateMembers (· ++ (Model.inherited cls base).1)).members =
      cls.members ++ (Model.inherited cls base).1.map (Member.inClass cls.name) := by
    rw [ApiClass.updateMembers_members, List.map_append, (h.linked cls hmem).map_members]
  have hname : (cls.updateMembers (· ++ (Model.inherited cls base).1)).name = cls.name := rfl
  have hlinked : (cls.updateMembers (· ++ (Model.inherited cls base).1)).Linked := ApiClass.linked_relink _
  generalize cls.updateMembers (· ++ (Model.inherited cls base).1) = changed at hmembers hname hlinked ⊢
  have hgrows : model.Grows ⟨model.classes.set position changed⟩ :=
    grows_set hcls hname (hmembers ▸ List.subset_append_left _ _)
  constructor
  · rw [map_name_set hcls hname]
    exact h.distinct
  · intro other hother
    rcases List.mem_or_eq_of_mem_set hother with hold | rfl
    · exact h.linked other hold
    · exact hlinked
  · intro other hother member hmember origin horigin
    refine CopiesOwn.grows hgrows ?_
    rcases List.mem_or_eq_of_mem_set hother with hold | rfl
    · exact h.origin other hold member hmember origin horigin
    · rw [hname]
      rw [hmembers] at hmember
      rcases List.mem_append.1 hmember with hold | hnew
      · exact h.origin cls hmem member hold origin horigin
      · obtain ⟨copy, hcopy, rfl⟩ := List.mem_map.1 hnew
        obtain ⟨source, hcopies, hsource⟩ := h.inherited hbase hcopy
        rw [Member.inClass_inheritedFrom, hsource] at horigin
        exact Option.some.inj horigin ▸ hcopies

theorem Traceable.inheritAt {model : Model} (h : model.Traceable) (position : Nat) :
    (model.inheritAt position).1.Traceable := by
  unfold Model.inheritAt
  split
  · exact h
  · rename_i cls hcls
    split
    · exact h
    · split
      · exact h
      · rename_i base hbase
        exact h.set_inherited hcls (class?_eq_some hbase).1

/-- In a model with inherited members, each of them has an origin. -/
theorem Traceable.inherit {model : Model} (h : model.Traceable) : model.inherit.1.Traceable := by
  have hlast := foldl_inheritStep_preserves (P := Traceable) (fun _ position hmodel => hmodel.inheritAt position)
    model.inheritanceOrder (model.classes.flatMap (·.orderFindings)) h
  rw [inherit_eq_foldl, relink_eq_self hlast.linked]
  exact hlast

end Model

end RefPages
