/-
The models that languages are taken from: read from documents, merged, with members handed down.
What holds of every member that documents declare, and does not depend on the class that a member
is linked to or inherited from, holds of every member of such a model.
-/
import RefPages.Proofs.Api.Arguments
import RefPages.Proofs.Api.Inherit

namespace RefPages

/-! ## Members everywhere in a model -/

/-- What holds of a member holds of it in every class, inherited or not. -/
structure Member.Portable (P : Member → Prop) : Prop where
  link : ∀ (className : String) (member : Member), P member → P (member.inClass className)
  copy : ∀ (origin : Option String) (member : Member), P member →
    P { member with inheritedFrom := origin }

/-- It holds of all members of the class. -/
def ApiClass.Everywhere (P : Member → Prop) (cls : ApiClass) : Prop := ∀ member ∈ cls.members, P member

/-- It holds of all members of all classes. -/
def Model.Everywhere (P : Member → Prop) (model : Model) : Prop :=
  ∀ cls ∈ model.classes, cls.Everywhere P

section

variable {P : Member → Prop} {cls other : ApiClass} {model first second : Model}

theorem ApiClass.Everywhere.updateMembers (hP : Member.Portable P) {update : List Member → List Member}
    (h : ∀ member ∈ update cls.members, P member) : (cls.updateMembers update).Everywhere P := by
  intro member hmember
  obtain ⟨before, hbefore, rfl⟩ := List.mem_map.1 hmember
  exact hP.link _ _ (h before hbefore)

theorem ApiClass.Everywhere.relink (hP : Member.Portable P) (h : cls.Everywhere P) : cls.relink.Everywhere P := by
  intro member hmember
  obtain ⟨before, hbefore, rfl⟩ := List.mem_map.1 hmember
  exact hP.link _ _ (h before hbefore)

theorem ApiClass.Everywhere.join (hP : Member.Portable P) (h : cls.Everywhere P) (hother : other.Everywhere P) :
    (cls.join other).Everywhere P := by
  show (cls.updateMembers (· ++ other.members)).Everywhere P
  refine ApiClass.Everywhere.updateMembers hP ?_
  intro member hmember
  rcases List.mem_append.1 hmember with hmember | hmember
  · exact h member hmember
  · exact hother member hmember

theorem everywhere_joinClass (hP : Member.Portable P) {classes : List ApiClass}
    (h : ∀ cls ∈ classes, cls.Everywhere P) (hcls : cls.Everywhere P) :
    ∀ joined ∈ joinClass classes cls, joined.Everywhere P := by
  unfold joinClass
  split
  · intro joined hjoined
    obtain ⟨before, hbefore, rfl⟩ := List.mem_map.1 hjoined
    split
    · exact (h before hbefore).join hP hcls
    · exact h before hbefore
  · intro joined hjoined
    rcases List.mem_append.1 hjoined with hjoined | hjoined
    · exact h joined hjoined
    · rw [List.mem_singleton.1 hjoined]
      exact hcls

namespace Model

theorem Everywhere.relink (hP : Member.Portable P) (h : model.Everywhere P) : model.relink.Everywhere P := by
  intro cls hcls
  obtain ⟨before, hbefore, rfl⟩ := List.mem_map.1 hcls
  exact (h before hbefore).relink hP

theorem Everywhere.merge (hP : Member.Portable P) (hfirst : first.Everywhere P) (hsecond : second.Everywhere P) :
    (first.merge second).Everywhere P := by
  have hfold : ∀ (added classes : List ApiClass), (∀ cls ∈ added, cls.Everywhere P) →
      (∀ cls ∈ classes, cls.Everywhere P) → ∀ cls ∈ added.foldl joinClass classes, cls.Everywhere P := by
    intro added
    induction added with
    | nil => exact fun classes _ h => h
    | cons cls added ih =>
      intro classes hadded hclasses
      rw [List.forall_mem_cons] at hadded
      exact ih _ hadded.2 (everywhere_joinClass hP hclasses hadded.1)
  refine @Everywhere.relink P ⟨_⟩ hP (hfold _ [] ?_ (by simp))
  intro cls hcls
  rcases List.mem_append.1 hcls with hcls | hcls
  · exact hfirst cls hcls
  · exact hsecond cls hcls

/-- A class that inherits gets copies of members that are there already. -/
theorem Everywhere.inheritAt (hP : Member.Portable P) (h : model.Everywhere P) (position : Nat) :
    (model.inheritAt position).1.Everywhere P := by
  unfold Model.inheritAt
  split
  · exact h
  · rename_i cls hcls
    split
    · exact h
    · split
      · exact h
      · rename_i base hbase
        intro changed hchanged
        rcases List.mem_or_eq_of_mem_set hchanged with hchanged | rfl
        · exact h changed hchanged
        · refine ApiClass.Everywhere.updateMembers hP fun member hmember => ?_
          rcases List.mem_append.1 hmember with hmember | hmember
          · exact h cls (List.mem_of_getElem? hcls) member hmember
          · rw [inherited_eq] at hmember
            obtain ⟨before, hbefore, rfl⟩ := List.mem_map.1 hmember
            exact hP.copy _ before (h base (class?_eq_some hbase).1 before (List.mem_filter.1 hbefore).1)

theorem Everywhere.inherit (hP : Member.Portable P) (h : model.Everywhere P) : model.inherit.1.Everywhere P := by
  rw [inherit_eq_foldl]
  have hlast := foldl_inheritStep_preserves (P := Everywhere P) (fun _ position hmodel => hmodel.inheritAt hP position)
    model.inheritanceOrder (model.classes.flatMap (·.orderFindings)) h
  exact hlast.relink hP

end Model

end

/-! ## Models that languages are taken from -/

namespace Model

/-- The models that come from documents by merging and by handing down members. -/
inductive Assembled : Model → Prop
  | ofDocuments {documents : List (List Markup.Node)} {model : Model}
    (h : Model.ofDocuments documents = .ok model) : Assembled model
  | merge {first second : Model} (hfirst : Assembled first) (hsecond : Assembled second) :
    Assembled (first.merge second)
  | inherit {model : Model} (h : Assembled model) : Assembled model.inherit.1

theorem Assembled.everywhere {P : Member → Prop} (hP : Member.Portable P)
    (hdocuments : ∀ documents model, Model.ofDocuments documents = .ok model → model.Everywhere P)
    {model : Model} (h : model.Assembled) : model.Everywhere P := by
  induction h with
  | ofDocuments h => exact hdocuments _ _ h
  | merge _ _ hfirst hsecond => exact hfirst.merge hP hsecond
  | inherit _ h => exact h.inherit hP

end Model

/-! ## Distinct arguments -/

theorem ArgsDistinct.link {args : List Member} (h : ArgsDistinct args) (className : String)
    (method : Option String) : ArgsDistinct (args.map (Member.linkArg className method)) := by
  refine ⟨by simpa [Function.comp_def] using h.distinct, fun linked hlinked => ?_⟩
  obtain ⟨arg, harg, rfl⟩ := List.mem_map.1 hlinked
  rw [Member.linkArg_name, Member.linkArg_langs]
  exact h.forms arg harg

theorem Member.portable_argsDistinct : Member.Portable fun member => ArgsDistinct member.args :=
  ⟨fun _ _ h => h.link _ _, fun _ _ h => h⟩

/-- The arguments of every member can be told apart by their names. -/
theorem Model.Assembled.argsDistinct {model : Model} (h : model.Assembled) :
    model.Everywhere fun member => ArgsDistinct member.args := by
  refine h.everywhere Member.portable_argsDistinct fun documents model hmodel cls hcls member hmember => ?_
  obtain ⟨part, -, hdocumented⟩ := related_of_mem_right (Model.documented_ofDocuments hmodel hcls) hmember
  exact hdocumented.argsDistinct

end RefPages
