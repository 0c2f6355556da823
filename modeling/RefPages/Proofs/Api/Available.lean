/-
What a language sees is what it has. All that is left in the model of a language, however deep, stands
for something that the language has, whether it was there in common, as a form for the language, in a
type for the language, or for one alternative of an option. And what the language has is left, in the
same order.
-/
import Mathlib
import RefPages.Api.Equality
import RefPages.Proofs.Api.Outline
import RefPages.Proofs.Api.Throughout

namespace RefPages

open Relation

/-! ## What the filter shows -/

theorem chosenType?_eq (lang : Lang) (types : PerLang ApiType) :
    chosenType? lang types = (types.get? lang).map (ApiType.forLang lang) := by
  obtain ⟨js, python, java, csharp⟩ := types
  cases lang
  · cases js <;> rfl
  · cases python <;> rfl
  · cases java <;> rfl
  · cases csharp <;> rfl

namespace ApiType

theorem mem_typesForLang? {lang : Lang} {types : Option (List ApiType)} {seen : ApiType} :
    seen ∈ (typesForLang? lang types).getD [] ↔ ∃ type ∈ types.getD [], seen = type.forLang lang := by
  cases types with
  | none => simp [typesForLang?]
  | some types => simp [typesForLang?, typesForLang_eq, eq_comm]

theorem nests_forLang {lang : Lang} {type seen : ApiType} (h : (type.forLang lang).Nests seen) :
    ∃ inner, type.Nests inner ∧ seen = inner.forLang lang := by
  obtain ⟨name, properties, union, args, returns, templates, expression⟩ := type
  rcases h with (h | h | h) | h
  · obtain ⟨inner, hinner, rfl⟩ := mem_typesForLang?.1 h
    exact ⟨inner, .inl (.inl hinner), rfl⟩
  · obtain ⟨inner, hinner, rfl⟩ := mem_typesForLang?.1 h
    exact ⟨inner, .inl (.inr (.inl hinner)), rfl⟩
  · obtain ⟨inner, hinner, rfl⟩ := mem_typesForLang?.1 h
    exact ⟨inner, .inl (.inr (.inr hinner)), rfl⟩
  · cases returns with
    | none => cases h
    | some result =>
      cases h
      exact ⟨result, .inr rfl, rfl⟩

/-- A property in a type as a language sees it stands for a property that the language has. -/
theorem hasProperty_forLang {lang : Lang} {type : ApiType} {seen : Member}
    (h : (type.forLang lang).HasProperty seen) :
    ∃ property, type.HasProperty property ∧ property.langs.includes lang = true ∧ seen = property.forLang lang := by
  obtain ⟨kept, hpath, hseen⟩ := h
  have hstep : ∀ {type kept inner : ApiType}, kept = type.forLang lang → kept.Nests inner →
      ∃ before, ReflTransGen Nests type before ∧ inner = before.forLang lang := by
    rintro type _ inner rfl hinner
    obtain ⟨before, hbefore, rfl⟩ := nests_forLang hinner
    exact ⟨before, .single hbefore, rfl⟩
  obtain ⟨inner, hinner, rfl⟩ := path_simulated (S := fun type kept => kept = forLang lang type) hstep rfl hpath
  obtain ⟨name, properties, union, args, returns, templates, expression⟩ := inner
  cases properties with
  | none => cases hseen
  | some properties =>
    have hmem : seen ∈ membersForLang lang properties := hseen
    rw [Member.membersForLang_eq] at hmem
    obtain ⟨property, hproperty, rfl⟩ := List.mem_map.1 hmem
    obtain ⟨hmem, hlang⟩ := List.mem_filter.1 hproperty
    exact ⟨property, ⟨_, hinner, hmem⟩, hlang, rfl⟩

end ApiType

namespace Member

/-- What a member holds as a language sees it stands for something that it carries and that the language
has. -/
theorem holds_forLang {lang : Lang} {member seen : Member} (hfits : member.Fits)
    (h : (member.forLang lang).Holds seen) :
    ∃ part, ReflTransGen Carries member part ∧ part.langs.includes lang = true ∧ seen = part.forLang lang := by
  rcases h with harg | ⟨type, htype, hproperty⟩
  · rw [forLang_eq, argsForLang_eq] at harg
    obtain ⟨arg, harg, hshown⟩ := List.mem_filterMap.1 harg
    have hcarries : member.Carries arg := .inl (.inl harg)
    obtain ⟨hlang, rfl, -⟩ := inSignature?_eq_some.1 hshown
    cases hform : arg.langs.overrides.get? lang with
    | none => exact ⟨arg, .single hcarries, hlang, rfl⟩
    | some form =>
      -- the form takes the place of the argument, and the language has it as well
      have hpath : ReflTransGen Carries member form := .tail (.single hcarries) (.inr ⟨lang, .inl hform⟩)
      exact ⟨form, hpath, hfits arg (.single hcarries) lang form hform, rfl⟩
  · rw [forLang_type, chosenType?_eq] at htype
    cases hchosen : member.langs.types.get? lang with
    | some own =>
      rw [hchosen] at htype
      cases htype
      obtain ⟨property, hown, hlang, rfl⟩ := ApiType.hasProperty_forLang hproperty
      exact ⟨property, .single (.inr ⟨lang, .inr ⟨own, hchosen, hown⟩⟩), hlang, rfl⟩
    | none =>
      rw [hchosen] at htype
      cases hcommon : member.type with
      | none =>
        rw [hcommon] at htype
        cases htype
      | some common =>
        rw [hcommon] at htype
        cases htype
        obtain ⟨property, hown, hlang, rfl⟩ := ApiType.hasProperty_forLang hproperty
        exact ⟨property, .single (.inl (.inr ⟨common, hcommon, hown⟩)), hlang, rfl⟩

theorem forLang_langs (lang : Lang) (member : Member) : (member.forLang lang).langs = member.langs := by
  rw [forLang_eq]

/-- All that is reached from a member as a language sees it is something that the language has. -/
theorem includes_of_path_forLang {lang : Lang} {member part : Member} (hfits : member.Fits)
    (hlang : member.langs.includes lang = true) (hpath : ReflTransGen Holds (member.forLang lang) part) :
    part.langs.includes lang = true := by
  have hstep : ∀ {before seen next : Member},
      before.Fits ∧ before.langs.includes lang = true ∧ seen = before.forLang lang → seen.Holds next →
      ∃ after, ReflTransGen Carries before after ∧
        after.Fits ∧ after.langs.includes lang = true ∧ next = after.forLang lang := by
    rintro before _ next ⟨hfits, -, rfl⟩ hnext
    obtain ⟨after, hafter, hlang, rfl⟩ := holds_forLang hfits hnext
    exact ⟨after, hafter, fun inner hinner => hfits inner (hafter.trans hinner), hlang, rfl⟩
  obtain ⟨before, -, -, hbefore, rfl⟩ := path_simulated
    (S := fun before seen => before.Fits ∧ before.langs.includes lang = true ∧ seen = forLang lang before)
    hstep ⟨hfits, hlang, rfl⟩ hpath
  rwa [forLang_langs]

/-! ## Expanded options -/

/-- The second member is the first, or it is what expanding options makes of it. -/
inductive Expanded (style : OverloadStyle) : Member → Member → Prop
  | refl (member : Member) : Expanded style member member
  | option {option made : Member} {group : List Member} (h : expandOption style option = .ok group)
      (hmade : made ∈ group) : Expanded style option made
  | arg {arg form : Member} (h : arg.expandArg style = .ok form) : Expanded style arg form
  | args {member : Member} {args : List Member} (h : List.Forall₂ (Expanded style) member.args args) :
    Expanded style member { member with args }

/-- What becomes of an option has the type of the option or one of its alternatives. -/
theorem mem_expandOption {style : OverloadStyle} {option made : Member} {group : List Member}
    (h : expandOption style option = .ok group) (hmade : made ∈ group) :
    made.langs = option.langs ∧ made.args = option.args ∧
      (made.type = option.type ∨ ∃ type alternative, option.type = some type ∧
        alternative ∈ type.union.getD [] ∧ made.type = some alternative) := by
  unfold expandOption at h
  split at h
  · cases h
    rw [List.mem_singleton.1 hmade]
    exact ⟨rfl, rfl, .inl rfl⟩
  · rename_i alternatives halternatives
    obtain ⟨suffixes, -, h⟩ := bind_eq_ok.1 h
    cases style with
    | joined =>
      cases h
      rw [List.mem_singleton.1 hmade]
      exact ⟨rfl, rfl, .inl rfl⟩
    | separate =>
      cases h
      rw [← List.map_uncurry_zip_eq_zipWith] at hmade
      obtain ⟨⟨alternative, suffix⟩, hmem, rfl⟩ := List.mem_map.1 hmade
      refine ⟨rfl, rfl, .inr ?_⟩
      unfold alternatives? at halternatives
      split at halternatives
      · rename_i type htype
        split at halternatives
        · obtain ⟨union, hunion, rfl⟩ := Option.map_eq_some_iff.1 halternatives
          refine ⟨type, alternative, htype, ?_, rfl⟩
          rw [hunion]
          exact List.mem_of_mem_filter (List.of_mem_zip hmem).1
        · cases halternatives
      · cases halternatives

namespace Expanded

variable {style : OverloadStyle} {member made part : Member}

theorem langs_eq (h : Expanded style member made) : made.langs = member.langs := by
  cases h with
  | refl => rfl
  | option h hmade => exact (mem_expandOption h hmade).1
  | arg h =>
    unfold expandArg at h
    split at h
    · split at h
      · cases h
        rfl
      · obtain ⟨options, -, h⟩ := bind_eq_ok.1 h
        cases h
        rfl
    · cases h
      rfl
  | args h => rfl

theorem holds (h : Expanded style member made) (hpart : made.Holds part) :
    ∃ before, member.Holds before ∧ Expanded style before part := by
  cases h with
  | refl => exact ⟨part, hpart, .refl part⟩
  | option h hmade =>
    obtain ⟨-, hargs, htype⟩ := mem_expandOption h hmade
    refine ⟨part, ?_, .refl part⟩
    rcases hpart with harg | ⟨own, hown, hproperty⟩
    · exact .inl (hargs ▸ harg)
    · rcases htype with hsame | ⟨type, alternative, htype, halternative, halone⟩
      · exact .inr ⟨own, hsame ▸ hown, hproperty⟩
      · obtain rfl : own = alternative := Option.some.inj (hown.symm.trans halone)
        have hnests : type.Nests own := .inl (.inl halternative)
        exact .inr ⟨type, htype, ApiType.hasProperty_iff.2 (.inr ⟨own, hnests, hproperty⟩)⟩
  | arg h =>
    unfold expandArg at h
    split at h
    · split at h
      · cases h
        exact ⟨part, hpart, .refl part⟩
      · rename_i options hoptions
        obtain ⟨expanded, hexpanded, h⟩ := bind_eq_ok.1 h
        cases h
        obtain ⟨type, htype, hproperties⟩ := Option.bind_eq_some_iff.1 hoptions
        rcases hpart with harg | ⟨own, hown, hproperty⟩
        · exact ⟨part, .inl harg, .refl part⟩
        · rw [htype] at hown
          cases hown
          rcases ApiType.hasProperty_iff.1 hproperty with hhere | hinner
          · obtain ⟨groups, hgroups, hflat⟩ := bind_eq_ok.1 hexpanded
            cases hflat
            obtain ⟨group, hgroup, hmade⟩ := List.mem_flatten.1 hhere
            obtain ⟨option, hoption, hexpand⟩ := related_of_mem_right (mapM_eq_ok.1 hgroups) hgroup
            refine ⟨option, .inr ⟨type, htype, ApiType.hasProperty_iff.2 (.inl ?_)⟩, .option hexpand hmade⟩
            rw [hproperties]
            exact hoption
          · exact ⟨part, .inr ⟨type, htype, ApiType.hasProperty_iff.2 (.inr hinner)⟩, .refl part⟩
    · cases h
      exact ⟨part, hpart, .refl part⟩
  | args h =>
    rcases hpart with harg | htype
    · obtain ⟨before, hbefore, hexpanded⟩ := related_of_mem_right h harg
      exact ⟨before, .inl hbefore, hexpanded⟩
    · exact ⟨part, .inr htype, .refl part⟩

theorem inForm {lang : Lang} {method arg form : Member} (h : Member.inForm lang style method arg = .ok form) :
    Expanded style arg form := by
  unfold Member.inForm at h
  split at h
  · exact .arg h
  · cases h
    exact .refl arg

end Expanded

/-- A member in the model of a language holds only what the language has, at any depth. -/
theorem includes_of_path_inLang {lang : Lang} {style : OverloadStyle} {member seen part : Member}
    (hargs : ArgsDistinct member.args) (hfits : member.Fits) (hlang : member.langs.includes lang = true)
    (h : member.inLang lang style = .ok seen) {className : String}
    (hpath : ReflTransGen Holds (seen.inClass className) part) : part.langs.includes lang = true := by
  obtain ⟨args, hforms, hclass⟩ := inLang_inClass hargs h
  rw [hclass className] at hpath
  have hlinks : ∀ {a b b'}, Relinked a b → b.Holds b' → ∃ a', ReflTransGen Holds a a' ∧ Relinked a' b' :=
    fun hab hb' => by
      obtain ⟨a', ha', hlinked⟩ := hab.holds hb'
      exact ⟨a', .single ha', hlinked⟩
  have hoptions : ∀ {a b b'}, Expanded style a b → b.Holds b' → ∃ a', ReflTransGen Holds a a' ∧ Expanded style a' b' :=
    fun hab hb' => by
      obtain ⟨a', ha', hexpanded⟩ := hab.holds hb'
      exact ⟨a', .single ha', hexpanded⟩
  have hexpanded : Expanded style (member.forLang lang) { member.forLang lang with args } := by
    refine .args ?_
    rw [show (member.forLang lang).args = argsForLang lang member.args by rw [forLang_eq]]
    exact (mapM_eq_ok.1 hforms).imp fun _ _ => Expanded.inForm
  obtain ⟨unlinked, hpath, hlinked⟩ := path_simulated (T := Holds) hlinks (.inClass className _) hpath
  obtain ⟨shown, hpath, hmade⟩ := path_simulated (T := Holds) hoptions hexpanded hpath
  rw [hlinked.langs_eq, hmade.langs_eq]
  exact includes_of_path_forLang hfits hlang hpath

end Member

/-! ## Members and classes that are left -/

namespace Model

theorem linked_relink (model : Model) : ∀ cls ∈ model.relink.classes, cls.Linked := by
  intro cls hcls
  obtain ⟨before, -, rfl⟩ := List.mem_map.1 hcls
  exact ApiClass.linked_relink before

/-- The members of every class are linked to it. -/
theorem Assembled.linked {model : Model} (h : model.Assembled) : ∀ cls ∈ model.classes, cls.Linked := by
  cases h with
  | ofDocuments h =>
    intro cls hcls
    obtain ⟨drafts, -, h⟩ := bind_eq_ok.1 h
    cases h
    obtain ⟨draft, -, rfl⟩ := List.mem_map.1 hcls
    exact ApiClass.linked_relink _
  | merge => exact linked_relink _
  | inherit => exact linked_relink _

end Model

namespace Member

/-- The member as a language sees it, in a class: the member but for its label, its type and its
arguments. -/
structure SeenAs (lang : Lang) (style : OverloadStyle) (className : String) (member seen : Member) : Prop where
  inLang : ∃ before, member.inLang lang style = .ok before ∧ seen = before.inClass className
  same : seen = { member with label := seen.label, type := seen.type, args := seen.args }

theorem seenAs_of_inLang {lang : Lang} {style : OverloadStyle} {className : String} {member before : Member}
    (hargs : ArgsDistinct member.args) (hlinked : member.inClass className = member)
    (h : member.inLang lang style = .ok before) : SeenAs lang style className member (before.inClass className) := by
  refine ⟨⟨before, h, rfl⟩, ?_⟩
  obtain ⟨args, -, hclass⟩ := inLang_inClass hargs h
  rw [hclass, forLang_eq]
  -- the links are those that the member has already
  conv_rhs => rw [← hlinked]
  rfl

end Member

namespace Model

/-- The classes and the members that a language has are left, in order. -/
theorem kept_of_inLang {model filtered : Model} {lang : Lang} {style : OverloadStyle} (hmodel : model.Assembled)
    (h : model.inLang lang style = .ok filtered) :
    List.Forall₂
      (fun cls kept => kept = { cls with label := kept.label, members := kept.members } ∧
        List.Forall₂ (Member.SeenAs lang style cls.name) (cls.members.filter (·.langs.includes lang)) kept.members)
      (model.classes.filter (·.langs.includes lang)) filtered.classes := by
  refine (List.forall₂_iff_zip.2 ⟨(inLang_eq_ok h).length_eq, fun {cls kept} hmem => ?_⟩)
  have hcls := List.mem_of_mem_filter (List.of_mem_zip hmem).1
  have hkept := (List.forall₂_iff_zip.1 (inLang_eq_ok h)).2 hmem
  obtain ⟨seen, hseen, -, -, hmembers⟩ := ApiClass.inLang_eq_ok hkept
  constructor
  · obtain ⟨_, -, hkept⟩ := bind_eq_ok.1 hkept
    cases hkept
    rfl
  · rw [hmembers, List.forall₂_map_right_iff]
    refine List.forall₂_iff_zip.2 ⟨hseen.length_eq, fun {member before} hmem => ?_⟩
    have hmember := List.mem_of_mem_filter (List.of_mem_zip hmem).1
    exact Member.seenAs_of_inLang (hmodel.argsDistinct cls hcls member hmember) (hmodel.linked cls hcls member hmember)
      ((List.forall₂_iff_zip.1 hseen).2 hmem)

/-- All that is left in the model of a language, at any depth, is something that the language has; and
the classes and the members that it has are left, in order, with no change but of labels, types and
arguments. -/
theorem inLang_available {model filtered : Model} {lang : Lang} {style : OverloadStyle} (hmodel : model.Assembled)
    (h : model.inLang lang style = .ok filtered) :
    (∀ cls ∈ filtered.classes, cls.langs.includes lang = true ∧ ∀ member ∈ cls.members,
        ∀ part, ReflTransGen Member.Holds member part → part.langs.includes lang = true) ∧
      List.Forall₂
        (fun cls kept => kept = { cls with label := kept.label, members := kept.members } ∧
          List.Forall₂
            (fun member seen => seen = { member with label := seen.label, type := seen.type, args := seen.args })
            (cls.members.filter (·.langs.includes lang)) kept.members)
        (model.classes.filter (·.langs.includes lang)) filtered.classes := by
  have hkept := kept_of_inLang hmodel h
  constructor
  · intro kept hmem
    obtain ⟨cls, hcls, hsame, hmembers⟩ := related_of_mem_right hkept hmem
    obtain ⟨hcls, hlang⟩ := List.mem_filter.1 hcls
    refine ⟨by rw [hsame]; exact hlang, fun seen hseen part hpath => ?_⟩
    obtain ⟨member, hmember, ⟨before, hinLang, rfl⟩, -⟩ := related_of_mem_right hmembers hseen
    obtain ⟨hmember, hlang⟩ := List.mem_filter.1 hmember
    exact Member.includes_of_path_inLang (hmodel.argsDistinct cls hcls member hmember)
      (hmodel.fits cls hcls member hmember) hlang hinLang hpath
  · exact hkept.imp fun _ _ ⟨hsame, hmembers⟩ => ⟨hsame, hmembers.imp fun _ _ hseen => hseen.same⟩

/-- A method whose argument has a form of its own in Java, an object with one property for JavaScript
alone. -/
def formDocument : List Markup.Node :=
  [.heading 1 "class: A" [.heading 2 "method: A.a" [
    .heading 3 "param: A.a.x" [.item .dash "`x` <[string]>" []],
    .heading 3 "param: A.a.x" [.item .star "langs: java" [],
      .item .dash "`x` <[Object]>" [
        .item .dash "`y` <[int]>" [.item .star "langs: js" []],
        .item .dash "`z` <[int]>" []]]]]]

/-- The argument with the form, which has these properties. -/
def formArg (properties : List Member) : Member :=
  { Member.property "x" { ApiType.object properties with expression := some "[Object]" } true with
    langs := { LangRules.everywhere with only := some [.java] } }

/-- A property of the form. -/
def formProperty (name : String) (langs : LangRules) : Member :=
  { Member.property name { ApiType.plain "int" with expression := some "[int]" } true with langs }

/-- The model of a method with one argument. -/
def formModel (arg : Member) : Model :=
  ⟨[ApiClass.ofMembers "A" none [{ Member.ofName .method "a" (some (ApiType.plain "void")) with args := [arg] }]]⟩

/-- The argument in common, with the form for Java. -/
def formInCommon : Member :=
  { Member.property "x" { ApiType.plain "string" with expression := some "[string]" } true with
    langs := { LangRules.everywhere with
      overrides := PerLang.empty.insert .java
        (formArg [formProperty "y" { LangRules.everywhere with only := some [.js] }, formProperty "z" .everywhere]) } }

/-- Java sees the form without the property for JavaScript. -/
theorem inLang_available_form :
    Model.ofDocuments [formDocument] = .ok (formModel formInCommon) ∧
      (formModel formInCommon).inLang .java .separate = .ok (formModel (formArg [formProperty "z" .everywhere])) ∧
      ∀ cls ∈ (formModel (formArg [formProperty "z" .everywhere])).classes, cls.langs.includes .java = true ∧
        ∀ member ∈ cls.members, ∀ part, ReflTransGen Member.Holds member part → part.langs.includes .java = true := by
  have hmodel : Model.ofDocuments [formDocument] = .ok (formModel formInCommon) := by decide +kernel
  have hfiltered : (formModel formInCommon).inLang .java .separate =
      .ok (formModel (formArg [formProperty "z" .everywhere])) := by decide +kernel
  exact ⟨hmodel, hfiltered, (inLang_available (.ofDocuments hmodel) hfiltered).1⟩

end Model

end RefPages
