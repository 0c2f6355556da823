/-
What is left of experimental content: the filter looks into arguments, properties, alternatives
and parameters, but not into what functions return. So something experimental is left exactly
where it is reached from the result of a function that the filter comes by.
-/
import Mathlib
import RefPages.Api.Equality
import RefPages.Api.Read
import RefPages.Api.Stable
import RefPages.Proofs.Api.Holds
import RefPages.Proofs.Fallible

namespace RefPages

open Relation

/-! ## What the filter keeps -/

theorem stableMembers_eq (members : List Member) :
    stableMembers members = (members.filter (!·.experimental)).map Member.stable := by
  induction members with
  | nil => rfl
  | cons member members ih =>
    rw [stableMembers]
    cases h : member.experimental <;> simp [h, ih]

theorem stableTypes_eq (types : List ApiType) : stableTypes types = types.map ApiType.stable := by
  induction types with
  | nil => rfl
  | cons type types ih => rw [stableTypes, ih, List.map_cons]

theorem mem_stableMembers {members : List Member} {kept : Member} :
    kept ∈ stableMembers members ↔
      ∃ member ∈ members, member.experimental = false ∧ kept = member.stable := by
  rw [stableMembers_eq, List.mem_map]
  constructor
  · rintro ⟨member, hmember, rfl⟩
    obtain ⟨hmember, hstable⟩ := List.mem_filter.1 hmember
    exact ⟨member, hmember, by simpa using hstable, rfl⟩
  · rintro ⟨member, hmember, hstable, rfl⟩
    exact ⟨member, List.mem_filter.2 ⟨hmember, by simpa using hstable⟩, rfl⟩

theorem mem_stableTypes? {types : Option (List ApiType)} {kept : ApiType} :
    kept ∈ (stableTypes? types).getD [] ↔ ∃ type ∈ types.getD [], kept = type.stable := by
  cases types with
  | none => simp [stableTypes?]
  | some types => simp [stableTypes?, stableTypes_eq, eq_comm]

theorem mem_stableMembers? {members : Option (List Member)} {kept : Member} :
    kept ∈ (stableMembers? members).getD [] ↔
      ∃ member ∈ members.getD [], member.experimental = false ∧ kept = member.stable := by
  cases members with
  | none => simp [stableMembers?]
  | some members => exact mem_stableMembers

namespace ApiType

theorem inner_stable {type kept : ApiType} :
    type.stable.Inner kept ↔ ∃ inner, type.Inner inner ∧ kept = inner.stable := by
  obtain ⟨name, properties, union, args, returns, templates, expression⟩ := type
  simp only [Inner, stable, mem_stableTypes?, or_and_right, exists_or]

theorem returns_stable (type : ApiType) : type.stable.returns = type.returns := by
  cases type
  rfl

theorem mem_properties_stable {type : ApiType} {kept : Member} :
    kept ∈ type.stable.properties.getD [] ↔
      ∃ member ∈ type.properties.getD [], member.experimental = false ∧ kept = member.stable := by
  cases type
  exact mem_stableMembers?

/-- The result of a function that the filter comes by and does not look into. -/
def Skips (type result : ApiType) : Prop :=
  ∃ function, ReflTransGen Inner type function ∧ function.returns = some result

/-- The types in a filtered type are filtered, up to the results of functions. -/
theorem nests_stable {type kept : ApiType} :
    ReflTransGen Nests type.stable kept ↔
      (∃ inner, ReflTransGen Inner type inner ∧ kept = inner.stable) ∨
        ∃ result, type.Skips result ∧ ReflTransGen Nests result kept := by
  constructor
  · intro h
    induction h with
    | refl => exact .inl ⟨type, .refl, rfl⟩
    | tail _ hstep ih =>
      rcases ih with ⟨inner, hpath, rfl⟩ | ⟨result, hskips, hpath⟩
      · -- the first result on the way is where the filter stops
        rcases hstep with hstep | hstep
        · obtain ⟨next, hnext, rfl⟩ := inner_stable.1 hstep
          exact .inl ⟨next, hpath.tail hnext, rfl⟩
        · rw [returns_stable] at hstep
          exact .inr ⟨_, ⟨inner, hpath, hstep⟩, .refl⟩
      · exact .inr ⟨result, hskips, hpath.tail hstep⟩
  · have hkept : ∀ {inner}, ReflTransGen Inner type inner → ReflTransGen Nests type.stable inner.stable := by
      intro inner hpath
      induction hpath with
      | refl => exact .refl
      | tail _ hstep ih => exact ih.tail (.inl (inner_stable.2 ⟨_, hstep, rfl⟩))
    rintro (⟨inner, hpath, rfl⟩ | ⟨result, ⟨function, hpath, hreturns⟩, hrest⟩)
    · exact hkept hpath
    · refine (hkept hpath).trans (.head (.inr ?_) hrest)
      rwa [returns_stable]

end ApiType

namespace Member

/-- A part of the member that the filter keeps and looks into. -/
def Keeps (member part : Member) : Prop :=
  part.experimental = false ∧ (part ∈ member.args ∨ ∃ type, member.type = some type ∧
    ∃ inner, ReflTransGen ApiType.Inner type inner ∧ part ∈ inner.properties.getD [])

/-- The filter comes by a function whose result holds something experimental. -/
def Leaks (member : Member) : Prop :=
  ∃ part, ReflTransGen Keeps member part ∧
    ∃ type, part.type = some type ∧ ∃ result, type.Skips result ∧ result.Exposed

theorem mem_args_stable {member kept : Member} :
    kept ∈ member.stable.args ↔ ∃ arg ∈ member.args, arg.experimental = false ∧ kept = arg.stable := by
  cases member
  exact mem_stableMembers

theorem type_stable (member : Member) : member.stable.type = member.type.map ApiType.stable := by
  obtain ⟨_, _, _, _, type, _⟩ := member
  cases type <;> rfl

theorem experimental_stable (member : Member) : member.stable.experimental = member.experimental := by
  cases member
  rfl

/-- A filtered member holds the parts that were kept, filtered, and whatever functions return. -/
theorem holds_stable {member kept : Member} :
    member.stable.Holds kept ↔ (∃ part, member.Keeps part ∧ kept = part.stable) ∨
      ∃ type, member.type = some type ∧ ∃ result, type.Skips result ∧ result.HasProperty kept := by
  constructor
  · rintro (harg | ⟨type, htype, inner, hpath, hproperty⟩)
    · obtain ⟨arg, hmem, hstable, rfl⟩ := mem_args_stable.1 harg
      exact .inl ⟨arg, ⟨hstable, .inl hmem⟩, rfl⟩
    · rw [type_stable] at htype
      obtain ⟨type, hbefore, rfl⟩ := Option.map_eq_some_iff.1 htype
      rcases ApiType.nests_stable.1 hpath with ⟨inner, hinner, rfl⟩ | ⟨result, hskips, hinner⟩
      · obtain ⟨part, hpart, hstable, rfl⟩ := ApiType.mem_properties_stable.1 hproperty
        exact .inl ⟨part, ⟨hstable, .inr ⟨type, hbefore, inner, hinner, hpart⟩⟩, rfl⟩
      · exact .inr ⟨type, hbefore, result, hskips, inner, hinner, hproperty⟩
  · have htype : ∀ {type}, member.type = some type → member.stable.type = some type.stable :=
      fun {type} h => by rw [type_stable, h, Option.map_some]
    rintro (⟨part, ⟨hstable, harg | ⟨type, hbefore, inner, hpath, hpart⟩⟩, rfl⟩ |
      ⟨type, hbefore, result, hskips, inner, hpath, hproperty⟩)
    · exact .inl (mem_args_stable.2 ⟨part, harg, hstable, rfl⟩)
    · exact .inr ⟨_, htype hbefore, inner.stable, ApiType.nests_stable.2 (.inl ⟨inner, hpath, rfl⟩),
        ApiType.mem_properties_stable.2 ⟨part, hpart, hstable, rfl⟩⟩
    · exact .inr ⟨_, htype hbefore, inner, ApiType.nests_stable.2 (.inr ⟨result, hskips, hpath⟩),
        hproperty⟩

/-- A filtered member is exposed exactly when the filter missed something on its way. -/
theorem exposed_stable {member : Member} (hstable : member.experimental = false) :
    member.stable.Exposed ↔ member.Leaks := by
  constructor
  · rintro ⟨found, hpath, hfound⟩
    -- as long as the path goes through filtered members, nothing on it is experimental
    generalize hkept : member.stable = start at hpath
    induction hpath using ReflTransGen.head_induction_on generalizing member with
    | refl =>
      rw [← hkept, experimental_stable, hstable] at hfound
      cases hfound
    | head hstep hpath ih =>
      subst hkept
      rcases holds_stable.1 hstep with ⟨part, hpart, rfl⟩ | ⟨type, htype, result, hskips, hproperty⟩
      · obtain ⟨last, hlast, hleak⟩ := ih hpart.1 rfl
        exact ⟨last, .head hpart hlast, hleak⟩
      · exact ⟨member, .refl, type, htype, result, hskips, _, hproperty, found, hpath, hfound⟩
  · rintro ⟨last, hpath, type, htype, result, hskips, property, hproperty, hexposed⟩
    induction hpath using ReflTransGen.head_induction_on with
    | refl =>
      exact exposed_iff.2 (.inr ⟨property, holds_stable.2 (.inr ⟨type, htype, result, hskips, hproperty⟩),
        hexposed⟩)
    | head hstep _ ih =>
      exact exposed_iff.2 (.inr ⟨_, holds_stable.2 (.inl ⟨_, hstep, rfl⟩), ih hstep.1⟩)

end Member

/-! ## Models -/

theorem Model.mem_stable {model : Model} {kept : ApiClass} :
    kept ∈ model.stable.classes ↔ ∃ cls ∈ model.classes, cls.experimental = false ∧
      kept = (cls.updateMembers stableMembers).relink := by
  simp only [stable, relink, List.mem_map, List.mem_filter]
  constructor
  · rintro ⟨_, ⟨cls, ⟨hcls, hstable⟩, rfl⟩, rfl⟩
    exact ⟨cls, hcls, by simpa using hstable, rfl⟩
  · rintro ⟨cls, hcls, hstable, rfl⟩
    exact ⟨_, ⟨cls, ⟨hcls, by simpa using hstable⟩, rfl⟩, rfl⟩

/-- The members of a filtered class are filtered and linked to it. -/
theorem mem_members_stable {cls : ApiClass} {kept : Member} :
    kept ∈ (cls.updateMembers stableMembers).relink.members ↔ ∃ member ∈ cls.members,
      member.experimental = false ∧ kept = member.stable.inClass cls.name := by
  have hlinked : (cls.updateMembers stableMembers).Linked := ApiClass.linked_relink _
  rw [hlinked.relink_eq, ApiClass.updateMembers_members, List.mem_map]
  constructor
  · rintro ⟨_, hmember, rfl⟩
    obtain ⟨member, hmem, hstable, rfl⟩ := mem_stableMembers.1 hmember
    exact ⟨member, hmem, hstable, rfl⟩
  · rintro ⟨member, hmem, hstable, rfl⟩
    exact ⟨member.stable, mem_stableMembers.2 ⟨member, hmem, hstable, rfl⟩, rfl⟩

theorem Model.exposes_of_leaks {model : Model} {cls : ApiClass} {member : Member}
    (hcls : cls ∈ model.classes) (hstable : cls.experimental = false) (hmem : member ∈ cls.members)
    (hmemStable : member.experimental = false) (hleaks : member.Leaks) : model.stable.Exposes := by
  refine ⟨_, Model.mem_stable.2 ⟨cls, hcls, hstable, rfl⟩, .inr ⟨member.stable.inClass cls.name, ?_, ?_⟩⟩
  · exact mem_members_stable.2 ⟨member, hmem, hmemStable, rfl⟩
  · rwa [Member.exposed_inClass, Member.exposed_stable hmemStable]

/-- Something experimental is left in a model exactly when the filter comes by a function whose
result holds something experimental. -/
theorem Model.stable_exposes_iff (model : Model) :
    model.stable.Exposes ↔ ∃ cls ∈ model.classes, cls.experimental = false ∧
      ∃ member ∈ cls.members, member.experimental = false ∧ member.Leaks := by
  constructor
  · rintro ⟨kept, hkept, hexposed⟩
    obtain ⟨cls, hcls, hstable, rfl⟩ := Model.mem_stable.1 hkept
    refine ⟨cls, hcls, hstable, ?_⟩
    rcases hexposed with hexperimental | ⟨member, hmember, hexposed⟩
    · have : cls.experimental = true := hexperimental
      rw [hstable] at this
      cases this
    · obtain ⟨member, hmem, hmemStable, rfl⟩ := mem_members_stable.1 hmember
      rw [Member.exposed_inClass, Member.exposed_stable hmemStable] at hexposed
      exact ⟨member, hmem, hmemStable, hexposed⟩
  · rintro ⟨cls, hcls, hstable, member, hmem, hmemStable, hleaks⟩
    exact Model.exposes_of_leaks hcls hstable hmem hmemStable hleaks

/-- An experimental option. -/
def newOption : Member :=
  { Member.property "x" { ApiType.plain "int" with expression := some "[int]" } true with
    experimental := true }

/-- A function that returns an object with the option. -/
def callbackType : ApiType :=
  { ApiType.plain "function" with
    args := some [ApiType.plain "int"]
    returns := some (ApiType.object [newOption])
    expression := some "[function]([int]):[Object]" }

/-- A method that takes such a function. -/
def callbackMethod : Member :=
  { Member.ofName .method "a" (some (ApiType.plain "void")) with
    args := [Member.property "f" callbackType true] }

/-- The experimental option of what the callback returns is left in the model. -/
theorem Model.stable_exposes_callback :
    let model : Model := ⟨[ApiClass.ofMembers "A" none [callbackMethod]]⟩
    Model.parse ("# class: A\n## method: A.a\n### param: A.a.f\n" ++
      "- `f` <[function]([int]):[Object]>\n  - `x` <[int]>\n    * experimental\n") = .ok model ∧
        model.stable.Exposes := by
  intro model
  constructor
  · refine bind_eq_ok.2 ⟨[.heading 1 "class: A" [.heading 2 "method: A.a" [.heading 3 "param: A.a.f"
      [.item .dash "`f` <[function]([int]):[Object]>"
        [.item .dash "`x` <[int]>" [.item .star "experimental" []]]]]]], ?_, by decide +kernel⟩
    exact (Markup.parse_of_toList (Text.toList_append_ofList String.toList_ofList _)).trans rfl
  · have hkeeps : (callbackMethod.inClass "A").Keeps
        (Member.linkArg "A" (some "A.a") (Member.property "f" callbackType true)) :=
      ⟨rfl, .inl List.mem_cons_self⟩
    have hexposed : (ApiType.object [newOption]).Exposed :=
      ⟨newOption, ⟨_, .refl, List.mem_cons_self⟩, newOption, .refl, rfl⟩
    have hleaks : (callbackMethod.inClass "A").Leaks :=
      ⟨_, .single hkeeps, callbackType, rfl, _, ⟨callbackType, .refl, rfl⟩, hexposed⟩
    exact Model.exposes_of_leaks List.mem_cons_self rfl List.mem_cons_self rfl hleaks

end RefPages
