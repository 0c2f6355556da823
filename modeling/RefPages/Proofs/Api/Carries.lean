/-
What members carry: what they hold, and what they would hold in a language that has another form or
another type for them. Links change nothing about it, and types come to properties only by the lines that
document them.
-/
import RefPages.Proofs.Api.Assembled
import RefPages.Proofs.Api.Holds
import RefPages.Proofs.Api.Spelled

namespace RefPages

open Relation TypeExpr

/-! ## Paths -/

/-- When every step on one side is matched on the other, then so is every path. -/
theorem path_simulated {α β : Type} {R : α → α → Prop} {T : β → β → Prop} {S : α → β → Prop}
    (hstep : ∀ {a b b'}, S a b → T b b' → ∃ a', ReflTransGen R a a' ∧ S a' b') {a : α} {b b' : β}
    (h : S a b) (hpath : ReflTransGen T b b') : ∃ a', ReflTransGen R a a' ∧ S a' b' := by
  induction hpath with
  | refl => exact ⟨a, .refl, h⟩
  | tail _ hlast ih =>
    obtain ⟨middle, hpath, hmiddle⟩ := ih
    obtain ⟨a', hrest, ha'⟩ := hstep hmiddle hlast
    exact ⟨a', hpath.trans hrest, ha'⟩

/-! ## Parts in any language -/

namespace Member

/-- A part of the member, a form of it for a language, or a property of a type that it has in a
language. -/
def Carries (member part : Member) : Prop :=
  member.Holds part ∨ ∃ lang, member.langs.overrides.get? lang = some part ∨
    ∃ type, member.langs.types.get? lang = some type ∧ type.HasProperty part

/-- Every form of the member is for a language that has the form. -/
def FormsFit (member : Member) : Prop :=
  ∀ lang form, member.langs.overrides.get? lang = some form → form.langs.includes lang = true

/-- The forms of the member and of all that it carries are for languages that have them. -/
def Fits (member : Member) : Prop := ∀ part, ReflTransGen Carries member part → part.FormsFit

/-- A form for the language: the language has it, and no language has another form of it. -/
structure IsForm (lang : Lang) (form : Member) : Prop where
  included : form.langs.includes lang = true
  overrides : form.langs.overrides = .empty

/-- The forms of the member are forms for their languages. -/
def FormsSettled (member : Member) : Prop :=
  ∀ lang form, member.langs.overrides.get? lang = some form → IsForm lang form

/-- The forms of the member and of all that it carries are forms for their languages. -/
def Settled (member : Member) : Prop := ∀ part, ReflTransGen Carries member part → part.FormsSettled

theorem Settled.fits {member : Member} (h : member.Settled) : member.Fits :=
  fun part hpart lang form hform => (h part hpart lang form hform).included

/-- It holds of the member and of all that it carries. -/
def Throughout (P : Member → Prop) (member : Member) : Prop := ∀ part, ReflTransGen Carries member part → P part

theorem throughout_iff {P : Member → Prop} {member : Member} :
    member.Throughout P ↔ P member ∧ ∀ part, member.Carries part → part.Throughout P := by
  refine ⟨fun h => ⟨h member .refl, fun part hpart inner hinner => h inner (.head hpart hinner)⟩,
    fun ⟨hhere, hparts⟩ part hpath => ?_⟩
  rcases hpath.cases_head with rfl | ⟨next, hnext, hpath⟩
  · exact hhere
  · exact hparts next hnext part hpath

theorem Throughout.of_holds {P : Member → Prop} {member part : Member} (h : member.Throughout P)
    (hpart : member.Holds part) : part.Throughout P :=
  (throughout_iff.1 h).2 part (.inl hpart)

theorem settled_iff {member : Member} :
    member.Settled ↔ member.FormsSettled ∧ ∀ part, member.Carries part → part.Settled :=
  throughout_iff

theorem Settled.of_holds {member part : Member} (h : member.Settled) (hpart : member.Holds part) : part.Settled :=
  (settled_iff.1 h).2 part (.inl hpart)

/-! ## Links -/

/-- The second member is the first, or it is the first with other links. -/
inductive Relinked : Member → Member → Prop
  | refl (member : Member) : Relinked member member
  | belongingTo (className : String) (method : Option String) (member : Member) :
    Relinked member (member.belongingTo className method)
  | linkArg (className : String) (method : Option String) (arg : Member) :
    Relinked arg (linkArg className method arg)
  | inClass (className : String) (member : Member) : Relinked member (member.inClass className)
  | copy (origin : Option String) (member : Member) : Relinked member { member with inheritedFrom := origin }

namespace Relinked

variable {member linked part : Member}

theorem langs_eq (h : Relinked member linked) : linked.langs = member.langs := by
  cases h with
  | linkArg => exact linkArg_langs ..
  | _ => rfl

/-- The properties of linked options are linked, and what is in them is the same. -/
theorem hasProperty_linkOptions {className : String} {method : Option String} {type : ApiType}
    (h : (linkOptions className method type).HasProperty part) :
    ∃ before, type.HasProperty before ∧ Relinked before part := by
  rcases ApiType.hasProperty_iff.1 h with hhere | ⟨inner, hinner, hproperty⟩
  · cases hproperties : type.properties with
    | none =>
      rw [linkOptions, hproperties] at hhere
      cases hhere
    | some options =>
      rw [linkOptions, hproperties] at hhere
      obtain ⟨option, hoption, rfl⟩ := List.mem_map.1 hhere
      refine ⟨option, ApiType.hasProperty_iff.2 (.inl ?_), .belongingTo className method option⟩
      rw [hproperties]
      exact List.mem_mergeSort.1 hoption
  · exact ⟨part, ApiType.hasProperty_iff.2 (.inr ⟨inner, hinner, hproperty⟩), .refl part⟩

theorem holds (h : Relinked member linked) (hpart : linked.Holds part) :
    ∃ before, member.Holds before ∧ Relinked before part := by
  cases h with
  | refl => exact ⟨part, hpart, .refl part⟩
  | belongingTo => exact ⟨part, hpart, .refl part⟩
  | copy => exact ⟨part, hpart, .refl part⟩
  | inClass className =>
    rcases hpart with harg | htype
    · obtain ⟨arg, hown, rfl⟩ := List.mem_map.1 harg
      exact ⟨arg, .inl hown, .linkArg ..⟩
    · exact ⟨part, .inr htype, .refl part⟩
  | linkArg className method =>
    unfold Member.linkArg at hpart
    dsimp only at hpart
    split at hpart
    · rcases hpart with harg | ⟨type, htype, hproperty⟩
      · exact ⟨part, .inl harg, .refl part⟩
      · obtain ⟨own, hown, rfl⟩ := Option.map_eq_some_iff.1 htype
        obtain ⟨before, hbefore, hlinked⟩ := hasProperty_linkOptions hproperty
        exact ⟨before, .inr ⟨own, hown, hbefore⟩, hlinked⟩
    · exact ⟨part, hpart, .refl part⟩

theorem carries (h : Relinked member linked) (hpart : linked.Carries part) :
    ∃ before, member.Carries before ∧ Relinked before part := by
  rcases hpart with hpart | hpart
  · obtain ⟨before, hbefore, hlinked⟩ := h.holds hpart
    exact ⟨before, .inl hbefore, hlinked⟩
  · rw [h.langs_eq] at hpart
    exact ⟨part, .inr hpart, .refl part⟩

/-- What links do not change holds of all that a member carries when it does before they are changed. -/
theorem throughout {P : Member → Prop} (hP : ∀ member linked, Relinked member linked → P member → P linked)
    (h : Relinked member linked) (hmember : member.Throughout P) : linked.Throughout P := by
  intro part hpath
  have hstep : ∀ {a b b'}, Relinked a b → b.Carries b' → ∃ a', ReflTransGen Carries a a' ∧ Relinked a' b' :=
    fun hab hb' => by
      obtain ⟨a', ha', hlinked⟩ := hab.carries hb'
      exact ⟨a', .single ha', hlinked⟩
  obtain ⟨before, hbefore, hlinked⟩ := path_simulated (T := Carries) hstep h hpath
  exact hP before part hlinked (hmember before hbefore)

end Relinked

end Member

/-! ## Types from expressions -/

namespace ApiType

/-- No properties have been documented for the type. -/
def Propertyless (type : ApiType) : Prop := type.properties.getD [] = []

theorem not_hasProperty {type : ApiType} (h : Throughout Propertyless type) (property : Member) :
    ¬type.HasProperty property := by
  rintro ⟨inner, hinner, hproperty⟩
  rw [h inner hinner] at hproperty
  cases hproperty

theorem propertyless_named {name : String} {type : ApiType} (h : named name = .ok type) :
    Throughout Propertyless type := by
  rw [(named_eq_ok h).1]
  refine throughout_of_parts ?_ (List.forall_mem_nil _) (List.forall_mem_nil _) (List.forall_mem_nil _) forall_none
  unfold Propertyless ofName
  dsimp only
  split <;> rfl

mutual

theorem propertyless_ofExpr (alone : Bool) : ∀ (expr : TypeExpr) {type : ApiType}, ofExpr alone expr = .ok type →
    Throughout Propertyless type
  | ⟨name, args, returns, template, union, next, unionName⟩, type, h => by
    rw [ofExpr] at h
    split at h
    · cases h
    dsimp only at h
    have hone : ∀ {one : ApiType},
        (if args.isSome || returns.isSome then do
            let args ← argumentsOf args
            let returns ← ofExpr? returns
            return { plain "function" with args, returns }
          else if template.isSome then do
            let type ← named name
            let templates ← entriesOf template
            return { type with templates }
          else named name) = .ok one → Throughout Propertyless one := by
      intro one hone
      split at hone
      · obtain ⟨args', hargs, hone⟩ := bind_eq_ok.1 hone
        obtain ⟨returns', hreturns, hone⟩ := bind_eq_ok.1 hone
        cases hone
        exact throughout_of_parts rfl (List.forall_mem_nil _) (propertyless_argumentsOf args hargs)
          (List.forall_mem_nil _) (propertyless_ofExpr? returns hreturns)
      · split at hone
        · obtain ⟨bare, hbare, hone⟩ := bind_eq_ok.1 hone
          obtain ⟨templates, htemplates, hone⟩ := bind_eq_ok.1 hone
          cases hone
          have hnamed := propertyless_named hbare
          exact throughout_of_parts hnamed.here (fun inner h => hnamed.nested (.inl (.inl h)))
            (fun inner h => hnamed.nested (.inl (.inr (.inl h)))) (propertyless_entriesOf template htemplates)
            (fun inner h => hnamed.nested (.inr h))
        · exact propertyless_named hone
    split at h
    · exact hone h
    · obtain ⟨first, hfirst, h⟩ := bind_eq_ok.1 h
      obtain ⟨others, hothers, h⟩ := bind_eq_ok.1 h
      cases h
      refine throughout_of_parts rfl ?_ (List.forall_mem_nil _) (List.forall_mem_nil _) forall_none
      exact List.forall_mem_cons.2 ⟨hone hfirst, propertyless_alternativesOf union hothers⟩

theorem propertyless_ofExpr? : ∀ (expr : Option TypeExpr) {type : Option ApiType}, ofExpr? expr = .ok type →
    ∀ inner ∈ type, Throughout Propertyless inner
  | none, type, h => by
    rw [ofExpr?] at h
    cases h
    exact forall_none
  | some expr, type, h => by
    rw [ofExpr?] at h
    obtain ⟨inner, hinner, rfl⟩ := map_eq_ok.1 h
    rintro _ ⟨⟩
    exact propertyless_ofExpr false expr hinner

theorem propertyless_entriesOf : ∀ (expr : Option TypeExpr) {types : List ApiType}, entriesOf expr = .ok types →
    ∀ type ∈ types, Throughout Propertyless type
  | none, types, h => by
    rw [entriesOf] at h
    cases h
    exact List.forall_mem_nil _
  | some ⟨name, args, returns, template, union, next, unionName⟩, types, h => by
    rw [entriesOf] at h
    obtain ⟨first, hfirst, h⟩ := bind_eq_ok.1 h
    obtain ⟨others, hothers, h⟩ := bind_eq_ok.1 h
    cases h
    exact List.forall_mem_cons.2 ⟨propertyless_ofExpr false _ hfirst, propertyless_entriesOf next hothers⟩

theorem propertyless_argumentsOf : ∀ (expr : Option TypeExpr) {types : List ApiType}, argumentsOf expr = .ok types →
    ∀ type ∈ types, Throughout Propertyless type
  | none, types, h => by
    rw [argumentsOf] at h
    cases h
    exact List.forall_mem_nil _
  | some ⟨name, args, returns, template, union, next, unionName⟩, types, h => by
    rw [argumentsOf] at h
    split at h
    · exact propertyless_argumentsOf next h
    · obtain ⟨first, hfirst, h⟩ := bind_eq_ok.1 h
      obtain ⟨others, hothers, h⟩ := bind_eq_ok.1 h
      cases h
      exact List.forall_mem_cons.2 ⟨propertyless_ofExpr false _ hfirst, propertyless_argumentsOf next hothers⟩

theorem propertyless_alternativesOf : ∀ (expr : Option TypeExpr) {types : List ApiType},
    alternativesOf expr = .ok types → ∀ type ∈ types, Throughout Propertyless type
  | none, types, h => by
    rw [alternativesOf] at h
    cases h
    exact List.forall_mem_nil _
  | some ⟨name, args, returns, template, union, next, unionName⟩, types, h => by
    rw [alternativesOf] at h
    split at h
    · obtain ⟨whole, hwhole, h⟩ := bind_eq_ok.1 h
      cases h
      exact List.forall_mem_singleton.2 (propertyless_ofExpr false _ hwhole)
    · obtain ⟨first, hfirst, h⟩ := bind_eq_ok.1 h
      obtain ⟨others, hothers, h⟩ := bind_eq_ok.1 h
      cases h
      exact List.forall_mem_cons.2 ⟨propertyless_ofExpr true _ hfirst, propertyless_alternativesOf union hothers⟩

end

theorem attachAll_eq (documented : List Member) (types : List ApiType) :
    attachAll documented types = types.map (attach documented) := by
  induction types with
  | nil => rfl
  | cons type types ih => rw [attachAll, ih, List.map_cons]

theorem mem_attachAll? {documented : List Member} {types : Option (List ApiType)} {inner : ApiType} :
    inner ∈ (attachAll? documented types).getD [] ↔ ∃ before ∈ types.getD [], inner = before.attach documented := by
  cases types with
  | none => simp [attachAll?]
  | some types => simp [attachAll?, attachAll_eq, eq_comm]

/-- What is in a type with documented properties is what was in it, with them. -/
theorem nests_attach {documented : List Member} {type inner : ApiType} :
    (type.attach documented).Nests inner ↔ ∃ before, type.Nests before ∧ inner = before.attach documented := by
  obtain ⟨name, properties, union, args, returns, templates, expression⟩ := type
  have hreturns : attach? documented returns = some inner ↔
      ∃ before, returns = some before ∧ inner = before.attach documented := by
    cases returns <;> simp [attach?, eq_comm]
  unfold Nests Inner
  rw [attach]
  simp only [mem_attachAll?, hreturns, or_and_right, exists_or]

theorem path_attach {documented : List Member} {type inner : ApiType}
    (h : ReflTransGen Nests (type.attach documented) inner) :
    ∃ before, ReflTransGen Nests type before ∧ inner = before.attach documented := by
  have hstep : ∀ {type attached inner : ApiType}, attached = type.attach documented → attached.Nests inner →
      ∃ before, ReflTransGen Nests type before ∧ inner = before.attach documented := by
    rintro type _ inner rfl hinner
    obtain ⟨before, hbefore, rfl⟩ := nests_attach.1 hinner
    exact ⟨before, .single hbefore, rfl⟩
  exact path_simulated (S := fun type attached => attached = attach documented type) hstep rfl h

/-- The objects in a type from an expression have the documented properties and no others. -/
theorem hasProperty_attach {documented : List Member} {type : ApiType} (h : Throughout Propertyless type)
    {property : Member} (hproperty : (type.attach documented).HasProperty property) : property ∈ documented := by
  obtain ⟨inner, hpath, hproperty⟩ := hproperty
  obtain ⟨before, hbefore, rfl⟩ := path_attach hpath
  have hnone := h before hbefore
  obtain ⟨name, properties, union, args, returns, templates, expression⟩ := before
  rw [attach] at hproperty
  split at hproperty
  · exact hproperty
  · rw [hnone] at hproperty
    cases hproperty

theorem hasProperty_parse {expression : String} {documented : List Member} {type : ApiType}
    (h : parse expression documented = .ok type) {property : Member} (hproperty : type.HasProperty property) :
    property ∈ documented := by
  unfold parse at h
  split at h
  · cases h
  · cases h
  · cases h
  · rename_i read hread
    have hnone := propertyless_ofExpr false _ hread
    -- the expression that is kept with the type does not matter
    have hspelled : ∀ {type : ApiType}, { type with expression := some expression }.HasProperty property →
        type.HasProperty property := fun {type} h => by
      rw [hasProperty_iff] at h ⊢
      exact h
    split at h
    · cases h
      exact absurd (hspelled hproperty) (not_hasProperty hnone property)
    · split at h
      · cases h
        exact hasProperty_attach hnone (hspelled hproperty)
      · cases h

end ApiType

/-! ## Bullets -/

/-- Bullets give a language no form of its own for an item, and a type without properties at most. -/
structure LangRules.Plain (rules : LangRules) : Prop where
  overrides : rules.overrides = .empty
  types : ∀ lang type, rules.types.get? lang = some type → ∀ property, ¬type.HasProperty property

theorem LangRules.Plain.addDetail {rules rules' : LangRules} {text : String} (h : rules.Plain)
    (hadd : rules.addDetail text = .ok rules') : rules'.Plain := by
  refine ⟨(LangRules.kept_of_addDetail hadd).2.trans h.overrides, ?_⟩
  unfold LangRules.addDetail at hadd
  dsimp only at hadd
  split at hadd
  · obtain ⟨parts, -, hadd⟩ := bind_eq_ok.1 hadd
    obtain ⟨lang, -, hadd⟩ := bind_eq_ok.1 hadd
    cases hadd
    exact h.types
  · split at hadd
    · obtain ⟨parts, -, hadd⟩ := bind_eq_ok.1 hadd
      obtain ⟨line, -, hadd⟩ := bind_eq_ok.1 hadd
      obtain ⟨lang, -, hadd⟩ := bind_eq_ok.1 hadd
      obtain ⟨type, htype, hadd⟩ := bind_eq_ok.1 hadd
      cases hadd
      intro other given hgiven property hproperty
      rw [PerLang.get?_insert] at hgiven
      split at hgiven
      · cases hgiven
        exact List.not_mem_nil (ApiType.hasProperty_parse htype hproperty)
      · exact h.types other given hgiven property hproperty
    · cases hadd
      exact h.types

theorem LangRules.plain_everywhere (only : Option (List Lang)) : LangRules.Plain { everywhere with only } := by
  refine ⟨rfl, fun lang type htype => ?_⟩
  have hnone : (PerLang.empty : PerLang ApiType).get? lang = some type := htype
  rw [PerLang.get?_empty] at hnone
  cases hnone

theorem Metadata.plain_of_read {nodes : List Markup.Node} {metadata : Metadata}
    (h : Metadata.read nodes = .ok metadata) :
    metadata.langs.Plain :=
  langs_of_read (fun only _ => LangRules.plain_everywhere only) (fun _ _ _ h => h.addDetail) h

namespace Member

/-- With plain rules for languages, a member carries what it holds. -/
theorem carries_iff_of_plain {member : Member} (h : member.langs.Plain) {part : Member} :
    member.Carries part ↔ member.Holds part := by
  refine ⟨?_, .inl⟩
  rintro (hpart | ⟨lang, hform | ⟨type, htype, hproperty⟩⟩)
  · exact hpart
  · rw [h.overrides, PerLang.get?_empty] at hform
    cases hform
  · exact absurd hproperty (h.types lang type htype part)

end Member

end RefPages
