/-
What is true of all that the members of a model carry. A member is read step by step: it is named, commented and
described, and then gets its type, arguments and forms. What every one of these steps leaves true is true
everywhere, however deep, and stays so when models are merged and members handed down. So all forms that are
carried are forms for languages that have them, and have no other forms in turn.
-/
import RefPages.Proofs.Api.Carries

namespace RefPages

open TypeExpr

/-! ## Documents -/

/-- What is true of a member at every step of reading it: when it is named, commented and described, when it gets
its type, arguments and forms, and when it is linked to its class. -/
structure Member.Kept (P : Member → Prop) : Prop where
  ofName : ∀ kind name type, P (ofName kind name type)
  withDocs : ∀ member docs, P member → P (member.withDocs (member.docs ++ docs))
  describe : ∀ (metadata : Metadata) member, metadata.langs.Plain → P member → P (metadata.describe member)
  withParts : ∀ member type args, P member → P { member with type, args }
  withManner : ∀ member required isAsync, P member → P { member with required, isAsync }
  withForms : ∀ (first form : Member) langs, P first → form.langs.overrides = .empty →
    form.langs.only = some langs →
    P { first with
      langs := { first.langs with
        overrides := langs.foldl (fun all lang => all.insert lang form) first.langs.overrides } }
  relinked : ∀ member linked, Relinked member linked → P member → P linked

section

variable {P : Member → Prop}

namespace Member

theorem throughout_of_plain {member : Member} (h : member.langs.Plain) (hhere : P member)
    (hparts : ∀ part, member.Holds part → part.Throughout P) : member.Throughout P :=
  throughout_iff.2 ⟨hhere, fun part hpart => hparts part ((carries_iff_of_plain h).1 hpart)⟩

theorem Kept.portable (hP : Kept P) : Portable (Throughout P) where
  link := fun className member => (Relinked.inClass className member).throughout hP.relinked
  copy := fun origin member => (Relinked.copy origin member).throughout hP.relinked

theorem Kept.property (hP : Kept P) (name : String) (type : ApiType) (required : Bool) :
    P (Member.property name type required) :=
  hP.withManner _ required false (hP.ofName .property name (some type))

mutual

theorem throughout_readProperty (hP : Kept P) : ∀ (node : Markup.Node) {property : Member},
    readProperty node = .ok property → property.Throughout P
  | .item marker text children, property, h => by
    rw [readProperty] at h
    obtain ⟨line, -, h⟩ := bind_eq_ok.1 h
    obtain ⟨metadata, hmetadata, h⟩ := bind_eq_ok.1 h
    obtain ⟨properties, hproperties, h⟩ := bind_eq_ok.1 h
    obtain ⟨type, htype, h⟩ := bind_eq_ok.1 h
    cases h
    have hplain := Metadata.plain_of_read hmetadata
    refine throughout_of_plain hplain (hP.describe metadata _ hplain (hP.withDocs _ _ (hP.property ..))) ?_
    rintro part (harg | ⟨own, hown, hpart⟩)
    · cases harg
    · obtain rfl : type = own := Option.some.inj hown
      exact throughout_readProperties hP children hproperties part (ApiType.hasProperty_parse htype hpart)
  | .heading .., _, h => by cases h
  | .code .., _, h => by cases h
  | .note .., _, h => by cases h
  | .properties _, _, h => by cases h
  | .paragraph _, _, h => by cases h

theorem throughout_readProperties (hP : Kept P) : ∀ (nodes : List Markup.Node) {properties : List Member},
    readProperties nodes = .ok properties → ∀ property ∈ properties, property.Throughout P
  | [], properties, h => by
    cases h
    exact List.forall_mem_nil _
  | node :: nodes, properties, h => by
    rw [readProperties] at h
    split at h
    · obtain ⟨property, hproperty, h⟩ := bind_eq_ok.1 h
      obtain ⟨rest, hrest, h⟩ := bind_eq_ok.1 h
      cases h
      exact List.forall_mem_cons.2
        ⟨throughout_readProperty hP node hproperty, throughout_readProperties hP nodes hrest⟩
    · exact throughout_readProperties hP nodes h

end

end Member

theorem MemberDoc.throughout_of_read (hP : Member.Kept P) {heading : String} {content : List Markup.Node}
    {doc : MemberDoc} (h : MemberDoc.read heading content = .ok doc) : doc.member.Throughout P := by
  unfold MemberDoc.read at h
  split at h
  · split at h
    · split at h
      · obtain ⟨metadata, hmetadata, h⟩ := bind_eq_ok.1 h
        obtain ⟨type, htype, h⟩ := bind_eq_ok.1 h
        cases h
        have hplain := Metadata.plain_of_read hmetadata
        refine Member.throughout_of_plain hplain
          (hP.describe metadata _ hplain (hP.withManner _ _ _ (hP.withDocs _ _ (hP.ofName ..)))) ?_
        rintro part (harg | ⟨own, hown, hpart⟩)
        · cases harg
        · obtain rfl : type = some own := hown
          unfold readMemberType at htype
          split at htype
          · obtain ⟨property, hproperty, htype⟩ := bind_eq_ok.1 htype
            exact (Member.throughout_readProperty hP _ hproperty).of_holds (.inr ⟨own, Except.ok.inj htype, hpart⟩)
          · split at htype
            · cases htype
            · obtain ⟨void, hvoid, htype⟩ := bind_eq_ok.1 htype
              cases htype
              exact absurd hpart (ApiType.not_hasProperty (ApiType.propertyless_named hvoid) part)
      · cases h
    · cases h
  · cases h

namespace ArgumentDoc

theorem throughout_of_read (hP : Member.Kept P) {heading : String} {content : List Markup.Node} {doc : ArgumentDoc}
    (h : ArgumentDoc.read heading content = .ok doc) : doc.arg.Throughout P := by
  unfold ArgumentDoc.read at h
  split at h
  · split at h
    · split at h
      · obtain ⟨metadata, hmetadata, h⟩ := bind_eq_ok.1 h
        split at h
        · obtain ⟨arg, harg, h⟩ := bind_eq_ok.1 h
          cases h
          have hplain := Metadata.plain_of_read hmetadata
          have hread := Member.throughout_readProperty hP _ harg
          exact Member.throughout_of_plain hplain
            (hP.describe metadata _ hplain (hP.withDocs _ _ (Member.throughout_iff.1 hread).1))
            fun part hpart => hread.of_holds hpart
        · cases h
      · cases h
    · cases h
  · cases h

/-- Adding an option to an argument adds it to the properties of its type. -/
theorem throughout_addOption (hP : Member.Kept P) {arg option : Member} (harg : arg.Throughout P)
    (hoption : option.Throughout P) :
    Member.Throughout P { arg with type := arg.type.map (ApiType.addProperty option) } := by
  obtain ⟨hhere, hparts⟩ := Member.throughout_iff.1 harg
  refine Member.throughout_iff.2 ⟨hP.withParts arg _ arg.args hhere, ?_⟩
  rintro part ((hpart | ⟨type, htype, hproperty⟩) | hpart)
  · exact hparts part (.inl (.inl hpart))
  · obtain ⟨type, hown, rfl⟩ := Option.map_eq_some_iff.1 htype
    have hbefore : part = option ∨ type.HasProperty part := by
      rcases ApiType.hasProperty_iff.1 hproperty with hhere | hinner
      · rcases List.mem_append.1 hhere with hhere | hhere
        · exact .inr (ApiType.hasProperty_iff.2 (.inl hhere))
        · exact .inl (List.mem_singleton.1 hhere)
      · exact .inr (ApiType.hasProperty_iff.2 (.inr hinner))
    rcases hbefore with rfl | hbefore
    · exact hoption
    · exact hparts part (.inl (.inr ⟨type, hown, hbefore⟩))
  · exact hparts part (.inr hpart)

/-- An argument documented again becomes the form of the first in the languages that it names. -/
theorem throughout_addForm (hP : Member.Kept P) {first form : Member} {langs : List Lang}
    (hfirst : first.Throughout P) (hform : form.Throughout P) (halone : form.langs.overrides = .empty)
    (honly : form.langs.only = some langs) :
    Member.Throughout P { first with
      langs := { first.langs with
        overrides := langs.foldl (fun all lang => all.insert lang form) first.langs.overrides } } := by
  obtain ⟨hhere, hparts⟩ := Member.throughout_iff.1 hfirst
  refine Member.throughout_iff.2 ⟨hP.withForms first form langs hhere halone honly, ?_⟩
  rintro part (hpart | ⟨lang, hgiven | htype⟩)
  · exact hparts part (.inl hpart)
  · rw [PerLang.get?_foldl_insert] at hgiven
    split at hgiven
    · cases hgiven
      exact hform
    · exact hparts part (.inr ⟨lang, .inl hgiven⟩)
  · exact hparts part (.inr ⟨lang, .inr htype⟩)

theorem throughout_changeFirst {test : Member → Bool} {change : Member → Except Fault Member}
    (hchange : ∀ arg arg', change arg = .ok arg' → arg.Throughout P → arg'.Throughout P) {args args' : List Member}
    (hargs : ∀ arg ∈ args, arg.Throughout P) (h : changeFirst test change args = .ok args') :
    ∀ arg ∈ args', arg.Throughout P := by
  intro arg' harg'
  have hrelated :=
    changeFirst_related (R := fun arg arg' => arg.Throughout P → arg'.Throughout P) (fun _ => id) hchange h
  obtain ⟨arg, harg, hthroughout⟩ := related_of_mem_right hrelated harg'
  exact hthroughout (hargs arg harg)

theorem throughout_addToArgs (hP : Member.Kept P) {doc : ArgumentDoc} {args args' : List Member}
    (hdoc : doc.arg.Throughout P) (halone : doc.arg.langs.overrides = .empty)
    (hargs : ∀ arg ∈ args, arg.Throughout P) (h : doc.addToArgs args = .ok args') :
    ∀ arg ∈ args', arg.Throughout P := by
  unfold addToArgs at h
  split at h
  · have hoption : Member.Throughout P { doc.arg with required := false } := by
      obtain ⟨hhere, hparts⟩ := Member.throughout_iff.1 hdoc
      exact Member.throughout_iff.2 ⟨hP.withManner doc.arg false doc.arg.isAsync hhere, hparts⟩
    refine throughout_changeFirst ?_ ?_ h
    · rintro arg _ ⟨⟩ harg
      exact throughout_addOption hP harg hoption
    · intro arg harg
      split at harg
      · exact hargs arg harg
      · rcases List.mem_append.1 harg with harg | harg
        · exact hargs arg harg
        · rw [List.mem_singleton.1 harg]
          refine Member.throughout_of_plain (LangRules.plain_everywhere none) (hP.property ..) ?_
          rintro part (hpart | ⟨type, htype, hproperty⟩)
          · cases hpart
          · cases htype
            refine absurd hproperty (ApiType.not_hasProperty ?_ part)
            exact ApiType.throughout_of_parts rfl (List.forall_mem_nil _) (List.forall_mem_nil _)
              (List.forall_mem_nil _) forall_none
  · unfold addParam at h
    split at h
    · refine throughout_changeFirst ?_ hargs h
      intro arg arg' hchange harg
      split at hchange
      · cases hchange
      · cases hchange
        exact throughout_addForm hP harg hdoc halone ‹_›
    · cases h
      intro arg harg
      rcases List.mem_append.1 harg with harg | harg
      · exact hargs arg harg
      · rw [List.mem_singleton.1 harg]
        exact hdoc

end ArgumentDoc

theorem MemberSection.throughout_of_mem (hP : Member.Kept P) {className : String} {declarations : List Declaration}
    {part : MemberSection} (hpart : part ∈ ofClass className declarations) {args : List Member}
    (hargs : part.docs.foldlM (fun args doc => doc.addToArgs args) [] = .ok args) :
    Member.Throughout P { part.member with args := optionsLast args } := by
  have hall : ∀ arg ∈ args, arg.Throughout P := by
    refine foldlM_preserves_of_mem (P := fun args => ∀ arg ∈ args, arg.Throughout P) ?_ (List.forall_mem_nil _) hargs
    intro doc hdoc before after hbefore hadd
    obtain ⟨declaration, -, hread⟩ := read_of_mem_docs hpart hdoc
    exact ArgumentDoc.throughout_addToArgs hP (ArgumentDoc.throughout_of_read hP hread)
      (ArgumentDoc.overrides_of_read hread) hbefore hadd
  obtain ⟨heading, content, doc, hread, hmember⟩ := read_of_mem hpart
  obtain ⟨hhere, hparts⟩ := Member.throughout_iff.1 (MemberDoc.throughout_of_read hP hread)
  rw [hmember]
  refine Member.throughout_iff.2 ⟨hP.withParts doc.member doc.member.type _ hhere, ?_⟩
  rintro inner ((harg | htype) | hinner)
  · exact hall inner ((optionsLast_perm args).mem_iff.1 harg)
  · exact hparts inner (.inl (.inr htype))
  · exact hparts inner (.inr hinner)

/-- What is true of members at every step of reading them is true of all that the members of a model carry. -/
theorem Model.Assembled.throughout (hP : Member.Kept P) {model : Model} (h : model.Assembled) :
    model.Everywhere (Member.Throughout P) := by
  refine h.everywhere hP.portable fun documents model hmodel cls hcls member hmember => ?_
  obtain ⟨part, hpart, args, hargs, rfl⟩ := related_of_mem_right (Model.given_ofDocuments hmodel hcls) hmember
  exact (Member.Relinked.inClass cls.name _).throughout hP.relinked (MemberSection.throughout_of_mem hP hpart hargs)

end

/-! ## Forms -/

/-- Only headings give forms, each for languages that it names. -/
theorem Member.kept_formsSettled : Member.Kept FormsSettled := by
  have hplain : ∀ member : Member, member.langs.overrides = .empty → member.FormsSettled :=
    fun member hnone lang form hform => by
      rw [hnone, PerLang.get?_empty] at hform
      cases hform
  refine {
    ofName := fun _ _ _ => hplain _ rfl
    withDocs := fun _ _ => id
    describe := fun _ _ h _ => hplain _ h.overrides
    withParts := fun _ _ _ => id
    withManner := fun _ _ _ => id
    withForms := ?_
    relinked := ?_ }
  · intro first form langs hfirst halone honly lang given hgiven
    rw [PerLang.get?_foldl_insert] at hgiven
    split at hgiven
    · rename_i hnamed
      cases hgiven
      refine ⟨?_, halone⟩
      rw [LangRules.includes, honly]
      exact hnamed
    · exact hfirst lang given hgiven
  · intro member linked h hmember
    unfold FormsSettled
    rw [h.langs_eq]
    exact hmember

/-- All forms that members carry are forms for their languages. -/
theorem Model.Assembled.settled {model : Model} (h : model.Assembled) : model.Everywhere Member.Settled :=
  h.throughout Member.kept_formsSettled

/-- All forms that members carry are for languages that have them. -/
theorem Model.Assembled.fits {model : Model} (h : model.Assembled) : model.Everywhere Member.Fits :=
  fun cls hcls member hmember => (h.settled cls hcls member hmember).fits

end RefPages
