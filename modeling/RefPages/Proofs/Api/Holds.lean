/-
What types and members hold: the types nested in a type, the properties of all of these, and the
arguments and properties that are reached from a member. Links to a class change nothing about it.
-/
import RefPages.Proofs.Api.Linked

namespace RefPages

open Relation

/-! ## Reaching into types and members -/

/-- An alternative, an argument or a parameter of the type. -/
def ApiType.Inner (type inner : ApiType) : Prop :=
  inner ∈ type.union.getD [] ∨ inner ∈ type.args.getD [] ∨ inner ∈ type.templates.getD []

/-- A type directly in another: an alternative, an argument, a parameter or the result. -/
def ApiType.Nests (type inner : ApiType) : Prop := type.Inner inner ∨ type.returns = some inner

/-- A property of the type or of a type in it. -/
def ApiType.HasProperty (type : ApiType) (property : Member) : Prop :=
  ∃ inner, ReflTransGen ApiType.Nests type inner ∧ property ∈ inner.properties.getD []

/-- An argument of the member or a property of its type. -/
def Member.Holds (member part : Member) : Prop :=
  part ∈ member.args ∨ ∃ type, member.type = some type ∧ type.HasProperty part

/-- The member or something reached from it is experimental. -/
def Member.Exposed (member : Member) : Prop :=
  ∃ part, ReflTransGen Member.Holds member part ∧ part.experimental = true

/-- Something reached from the type is experimental. -/
def ApiType.Exposed (type : ApiType) : Prop := ∃ property, type.HasProperty property ∧ property.Exposed

/-- Something in the model is experimental: a class, a member, or what is reached from a member. -/
def Model.Exposes (model : Model) : Prop :=
  ∃ cls ∈ model.classes, cls.experimental = true ∨ ∃ member ∈ cls.members, member.Exposed

theorem Member.exposed_iff {member : Member} :
    member.Exposed ↔ member.experimental = true ∨ ∃ part, member.Holds part ∧ part.Exposed := by
  constructor
  · rintro ⟨part, hpath, hpart⟩
    rcases hpath.cases_head with rfl | ⟨next, hnext, hpath⟩
    · exact .inl hpart
    · exact .inr ⟨next, hnext, part, hpath, hpart⟩
  · rintro (h | ⟨next, hnext, part, hpath, hpart⟩)
    · exact ⟨member, .refl, h⟩
    · exact ⟨part, .head hnext hpath, hpart⟩

theorem ApiType.hasProperty_iff {type : ApiType} {property : Member} :
    type.HasProperty property ↔ property ∈ type.properties.getD [] ∨
      ∃ inner, type.Nests inner ∧ inner.HasProperty property := by
  constructor
  · rintro ⟨inner, hpath, hproperty⟩
    rcases hpath.cases_head with rfl | ⟨next, hnext, hpath⟩
    · exact .inl hproperty
    · exact .inr ⟨next, hnext, inner, hpath, hproperty⟩
  · rintro (h | ⟨next, hnext, inner, hpath, hproperty⟩)
    · exact ⟨type, .refl, h⟩
    · exact ⟨inner, .head hnext hpath, hproperty⟩

/-- What a member holds shows in its arguments and in its type. -/
theorem Member.exposed_iff_parts {member : Member} :
    member.Exposed ↔ member.experimental = true ∨ (∃ arg ∈ member.args, arg.Exposed) ∨
      ∃ type, member.type = some type ∧ type.Exposed := by
  rw [Member.exposed_iff]
  refine or_congr_right ?_
  constructor
  · rintro ⟨part, harg | ⟨type, htype, hproperty⟩, hpart⟩
    · exact .inl ⟨part, harg, hpart⟩
    · exact .inr ⟨type, htype, part, hproperty, hpart⟩
  · rintro (⟨arg, harg, hpart⟩ | ⟨type, htype, part, hproperty, hpart⟩)
    · exact ⟨arg, .inl harg, hpart⟩
    · exact ⟨part, .inr ⟨type, htype, hproperty⟩, hpart⟩

theorem ApiType.exposed_iff {type : ApiType} :
    type.Exposed ↔ (∃ property ∈ type.properties.getD [], property.Exposed) ∨
      ∃ inner, type.Nests inner ∧ inner.Exposed := by
  constructor
  · rintro ⟨property, hproperty, hexposed⟩
    rcases ApiType.hasProperty_iff.1 hproperty with h | ⟨inner, hinner, h⟩
    · exact .inl ⟨property, h, hexposed⟩
    · exact .inr ⟨inner, hinner, property, h, hexposed⟩
  · rintro (⟨property, h, hexposed⟩ | ⟨inner, hinner, property, h, hexposed⟩)
    · exact ⟨property, ApiType.hasProperty_iff.2 (.inl h), hexposed⟩
    · exact ⟨property, ApiType.hasProperty_iff.2 (.inr ⟨inner, hinner, h⟩), hexposed⟩

/-! ## Links -/

namespace Member

theorem exposed_belongingTo (cls : String) (method : Option String) (member : Member) :
    (member.belongingTo cls method).Exposed ↔ member.Exposed := by
  rw [exposed_iff_parts, exposed_iff_parts]
  rfl

theorem exposed_linkOptions (cls : String) (method : Option String) (type : ApiType) :
    (linkOptions cls method type).Exposed ↔ type.Exposed := by
  have hproperty : (∃ property ∈ (linkOptions cls method type).properties.getD [], property.Exposed) ↔
      ∃ property ∈ type.properties.getD [], property.Exposed := by
    cases hproperties : type.properties with
    | none => simp [linkOptions, hproperties]
    | some options =>
      -- sorting moves the properties around, and linking leaves what they hold
      simp [linkOptions, hproperties, ApiType.sortByName, List.mem_mergeSort, exposed_belongingTo]
  rw [ApiType.exposed_iff, ApiType.exposed_iff, hproperty]
  rfl

theorem exposed_linkArg (cls : String) (method : Option String) (arg : Member) :
    (linkArg cls method arg).Exposed ↔ arg.Exposed := by
  unfold linkArg
  dsimp only
  split
  · have htype : (∃ type, arg.type.map (linkOptions cls method) = some type ∧ type.Exposed) ↔
        ∃ type, arg.type = some type ∧ type.Exposed := by
      cases arg.type <;> simp [exposed_linkOptions]
    rw [exposed_iff_parts, exposed_iff_parts]
    exact or_congr_right (or_congr_right htype)
  · exact exposed_belongingTo cls method arg

/-- Linking a member to a class exposes nothing and hides nothing. -/
theorem exposed_inClass (cls : String) (member : Member) :
    (member.inClass cls).Exposed ↔ member.Exposed := by
  have hargs : (∃ arg ∈ (member.inClass cls).args, arg.Exposed) ↔ ∃ arg ∈ member.args, arg.Exposed := by
    simp [inClass, relink, exposed_linkArg]
  rw [exposed_iff_parts, exposed_iff_parts, hargs]
  rfl

end Member

end RefPages
