/-
The model of a language, seen in that language again. What a language has in place of common parts stays
attached to them, so that it takes their place a second time, and a form for a language has no other form
there. Links put options in order and change nothing else. So where options are not expanded, the second
look at a model finds what the first one left.
-/
import RefPages.Api.Equality
import RefPages.Proofs.Api.Available

namespace RefPages

/-! ## Parts of what is settled -/

/-- All properties of the type and of the types in it are settled. -/
def ApiType.Settled (type : ApiType) : Prop := ∀ property, type.HasProperty property → property.Settled

namespace ApiType.Settled

variable {type : ApiType} (h : type.Settled)

include h

theorem properties : ∀ property ∈ type.properties.getD [], property.Settled :=
  fun property hproperty => h property (hasProperty_iff.2 (.inl hproperty))

theorem nested {inner : ApiType} (hinner : type.Nests inner) : inner.Settled :=
  fun property hproperty => h property (hasProperty_iff.2 (.inr ⟨inner, hinner, hproperty⟩))

end ApiType.Settled

namespace Member.Settled

variable {member : Member} (h : member.Settled)

include h

theorem args : ∀ arg ∈ member.args, arg.Settled := fun _ harg => h.of_holds (.inl harg)

theorem type : ∀ type ∈ member.type, type.Settled :=
  fun type htype _ hproperty => h.of_holds (.inr ⟨type, htype, hproperty⟩)

theorem form {lang : Lang} {form : Member} (hform : member.langs.overrides.get? lang = some form) :
    IsForm lang form ∧ form.Settled :=
  ⟨(settled_iff.1 h).1 lang form hform, (settled_iff.1 h).2 form (.inr ⟨lang, .inl hform⟩)⟩

end Member.Settled

/-! ## Lists that are seen as they are -/

section

variable {lang : Lang}

/-- A language sees properties as they are when it has each of them and sees it as it is. -/
theorem membersForLang_eq_self_iff {members : List Member} :
    membersForLang lang members = members ↔
      ∀ member ∈ members, member.langs.includes lang = true ∧ member.forLang lang = member := by
  rw [Member.membersForLang_eq]
  constructor
  · intro h
    -- the list would be shorter if one of them were left out
    have hlength := congrArg List.length h
    rw [List.length_map, List.length_filter_eq_length_iff] at hlength
    rw [List.filter_eq_self.2 hlength] at h
    have hseen : ∀ member ∈ members, member.forLang lang = id member :=
      List.map_eq_map_iff.1 (h.trans (List.map_id members).symm)
    exact fun member hmember => ⟨hlength member hmember, hseen member hmember⟩
  · intro h
    rw [List.filter_eq_self.2 fun member hmember => (h member hmember).1]
    exact (List.map_congr_left fun member hmember => (h member hmember).2).trans (List.map_id members)

/-- A language sees arguments as they are when it sees each of them so. -/
theorem Member.inSignature?_of_args {args : List Member} (h : argsForLang lang args = args) :
    ∀ arg ∈ args, arg.inSignature? lang = some arg := by
  rw [argsForLang_eq] at h
  induction args with
  | nil => exact List.forall_mem_nil _
  | cons arg args ih =>
    rw [List.filterMap_cons] at h
    split at h
    · have hlength := List.length_filterMap_le (inSignature? lang) args
      rw [h] at hlength
      exact absurd hlength (Nat.not_succ_le_self _)
    · rename_i shown hshown
      obtain ⟨rfl, hrest⟩ := List.cons.inj h
      exact List.forall_mem_cons.2 ⟨hshown, ih hrest⟩

/-- What a language has of an argument is all that it has of it when it sees what it has. -/
theorem Member.inSignature?_shown {arg shown : Member} (harg : (arg.forLang lang).forLang lang = arg.forLang lang)
    (hform : ∀ form, arg.langs.overrides.get? lang = some form →
      IsForm lang form ∧ (form.forLang lang).forLang lang = form.forLang lang)
    (h : arg.inSignature? lang = some shown) : shown.inSignature? lang = some shown := by
  obtain ⟨hlang, rfl, hoptions⟩ := inSignature?_eq_some.1 h
  refine inSignature?_eq_some.2 ⟨?_, ?_, hoptions⟩
  · cases hown : arg.langs.overrides.get? lang with
    | none => exact (congrArg (·.includes lang) (forLang_langs lang arg)).trans hlang
    | some form => exact (congrArg (·.includes lang) (forLang_langs lang form)).trans (hform form hown).1.included
  · cases hown : arg.langs.overrides.get? lang with
    | none =>
      rw [Option.map_none, Option.getD_none, forLang_langs, hown]
      exact harg
    | some form =>
      -- nothing takes the place of the form in turn
      rw [Option.map_some, Option.getD_some, forLang_langs, (hform form hown).1.overrides, PerLang.get?_empty]
      exact (hform form hown).2

end

/-! ## Types and members -/

section

variable (lang : Lang)

mutual

theorem ApiType.forLang_forLang : ∀ type : ApiType, type.Settled →
    (type.forLang lang).forLang lang = type.forLang lang
  | { properties, union, args, returns, templates, .. }, h => by
    rw [ApiType.forLang, ApiType.forLang, membersForLang?_membersForLang? properties h.properties,
      typesForLang?_typesForLang? union fun inner hinner => h.nested (.inl (.inl hinner)),
      typesForLang?_typesForLang? args fun inner hinner => h.nested (.inl (.inr (.inl hinner))),
      typeForLang?_typeForLang? returns fun inner hinner => h.nested (.inr hinner),
      typesForLang?_typesForLang? templates fun inner hinner => h.nested (.inl (.inr (.inr hinner)))]

theorem typeForLang?_typeForLang? : ∀ type : Option ApiType, (∀ inner ∈ type, inner.Settled) →
    typeForLang? lang (typeForLang? lang type) = typeForLang? lang type
  | none, _ => rfl
  | some type, h => by rw [typeForLang?, typeForLang?, ApiType.forLang_forLang type (h type rfl)]

theorem typesForLang?_typesForLang? : ∀ types : Option (List ApiType), (∀ type ∈ types.getD [], type.Settled) →
    typesForLang? lang (typesForLang? lang types) = typesForLang? lang types
  | none, _ => rfl
  | some types, h => by rw [typesForLang?, typesForLang?, typesForLang_typesForLang types h]

theorem typesForLang_typesForLang : ∀ types : List ApiType, (∀ type ∈ types, type.Settled) →
    typesForLang lang (typesForLang lang types) = typesForLang lang types
  | [], _ => rfl
  | type :: types, h => by
    rw [List.forall_mem_cons] at h
    rw [typesForLang, typesForLang, ApiType.forLang_forLang type h.1, typesForLang_typesForLang types h.2]

theorem membersForLang?_membersForLang? : ∀ members : Option (List Member),
    (∀ member ∈ members.getD [], member.Settled) →
    membersForLang? lang (membersForLang? lang members) = membersForLang? lang members
  | none, _ => rfl
  | some members, h => by
    rw [membersForLang?, membersForLang?, membersForLang_membersForLang members h]

theorem membersForLang_membersForLang : ∀ members : List Member, (∀ member ∈ members, member.Settled) →
    membersForLang lang (membersForLang lang members) = membersForLang lang members
  | [], _ => rfl
  | member :: members, h => by
    rw [List.forall_mem_cons] at h
    rw [membersForLang]
    split
    · rename_i hlang
      rw [membersForLang, Member.forLang_langs, if_pos hlang, Member.forLang_forLang member h.1,
        membersForLang_membersForLang members h.2]
    · exact membersForLang_membersForLang members h.2

theorem Member.forLang_forLang : ∀ member : Member, member.Settled →
    (member.forLang lang).forLang lang = member.forLang lang
  | { label, type, args, langs := { labels, types, .. }, .. }, h => by
    rw [Member.forLang, Member.forLang, argsForLang_argsForLang args h.args]
    have htype := typeForLang?_typeForLang? type h.type
    -- the label and the type that the language has of its own take the place of what they gave before
    cases labels.get? lang <;> cases chosenType? lang types <;> simp [htype]

theorem argsForLang_argsForLang : ∀ args : List Member, (∀ arg ∈ args, arg.Settled) →
    argsForLang lang (argsForLang lang args) = argsForLang lang args
  | [], _ => rfl
  | arg :: args, h => by
    rw [List.forall_mem_cons] at h
    have hforms := Member.override?_forLang arg h.1
    have hagain : ∀ shown, arg.inSignature? lang = some shown → shown.inSignature? lang = some shown := by
      refine fun shown => Member.inSignature?_shown (Member.forLang_forLang arg h.1) fun form hform => ?_
      rw [Member.override?_eq, hform] at hforms
      exact ⟨(h.1.form hform).1, Option.some.inj hforms⟩
    have hrest := argsForLang_argsForLang args h.2
    simp only [argsForLang_eq] at hrest ⊢
    rw [List.filterMap_cons]
    cases hshown : arg.inSignature? lang with
    | none => exact hrest
    | some shown => rw [List.filterMap_cons, hagain shown hshown, hrest]

theorem Member.override?_forLang : ∀ arg : Member, arg.Settled →
    (arg.override? lang).map (Member.forLang lang) = arg.override? lang
  | { langs := { overrides, .. }, .. }, h => by
    rw [Member.override?]
    exact chosenMember?_forLang overrides fun form hform => (h.form hform).2

theorem chosenMember?_forLang : ∀ forms : PerLang Member, (∀ form, forms.get? lang = some form → form.Settled) →
    (chosenMember? lang forms).map (Member.forLang lang) = chosenMember? lang forms
  | { js, python, java, csharp }, h => by
    have hjs := memberForLang?_forLang js
    have hpython := memberForLang?_forLang python
    have hjava := memberForLang?_forLang java
    have hcsharp := memberForLang?_forLang csharp
    cases lang with
    | js => exact hjs h
    | python => exact hpython h
    | java => exact hjava h
    | csharp => exact hcsharp h

theorem memberForLang?_forLang : ∀ form : Option Member, (∀ given, form = some given → given.Settled) →
    (memberForLang? lang form).map (Member.forLang lang) = memberForLang? lang form
  | none, _ => rfl
  | some form, h => by rw [memberForLang?, Option.map_some, Member.forLang_forLang form (h form rfl)]

end

end

/-! ## Links -/

namespace Member

variable {lang : Lang}

theorem forLang_belongingTo (className : String) (method : Option String) (member : Member) :
    (member.belongingTo className method).forLang lang = (member.forLang lang).belongingTo className method := by
  rw [forLang_eq, forLang_eq]
  rfl

/-- A type that is seen as it is is seen so with its options in order and linked. -/
theorem forLang_linkOptions {type : ApiType} (h : type.forLang lang = type) (className : String)
    (method : Option String) :
    (linkOptions className method type).forLang lang = linkOptions className method type := by
  obtain ⟨name, properties, union, args, returns, templates, expression⟩ := type
  rw [ApiType.forLang, ApiType.mk.injEq] at h
  obtain ⟨-, hproperties, hunion, hargs, hreturns, htemplates, -⟩ := h
  cases properties with
  | none => rw [linkOptions, Option.map_none, ApiType.forLang, hunion, hargs, hreturns, htemplates, membersForLang?]
  | some options =>
    have hseen := membersForLang_eq_self_iff.1 (Option.some.inj hproperties)
    -- each option is seen as it is by itself, wherever it stands among the others
    have hlinked : membersForLang lang ((ApiType.sortByName options).map (belongingTo className method)) =
        (ApiType.sortByName options).map (belongingTo className method) := by
      refine membersForLang_eq_self_iff.2 fun linked hlinked => ?_
      obtain ⟨option, hoption, rfl⟩ := List.mem_map.1 hlinked
      obtain ⟨hlang, hsame⟩ := hseen option (List.mem_mergeSort.1 hoption)
      exact ⟨hlang, by rw [forLang_belongingTo, hsame]⟩
    rw [linkOptions, Option.map_some, ApiType.forLang, hunion, hargs, hreturns, htemplates, membersForLang?, hlinked]

/-- A member is seen as it is when its label, its type and its arguments are. -/
theorem forLang_eq_self_iff {member : Member} :
    member.forLang lang = member ↔ (member.langs.labels.get? lang).getD member.label = member.label ∧
      ((chosenType? lang member.langs.types).orElse fun _ => typeForLang? lang member.type) = member.type ∧
      argsForLang lang member.args = member.args := by
  rw [forLang_eq]
  cases member
  simp

/-- An argument that is seen as it is is seen so with links, but for a type that the language has of its own:
that comes without links, and is linked again. -/
theorem linkArg_forLang_linkArg {arg : Member} (h : arg.forLang lang = arg) (className : String)
    (method : Option String) :
    linkArg className method ((linkArg className method arg).forLang lang) = linkArg className method arg := by
  obtain ⟨hlabel, htype, hargs⟩ := forLang_eq_self_iff.1 h
  by_cases hname : arg.name = "options"
  · have hlinked : linkArg className method arg =
        { arg.belongingTo className method with type := arg.type.map (linkOptions className method) } := if_pos hname
    cases hchosen : chosenType? lang arg.langs.types with
    | some own =>
      -- the options of the common type were linked, and are not looked at
      have hsame : (linkArg className method arg).forLang lang = (arg.belongingTo className method).forLang lang := by
        rw [hlinked, forLang_eq, forLang_eq lang (arg.belongingTo className method)]
        simp [belongingTo, hchosen]
      rw [hsame, forLang_belongingTo, h]
      rfl
    | none =>
      rw [hchosen] at htype
      rw [forLang_eq_self_iff.2, linkArg_linkArg]
      rw [hlinked]
      refine ⟨hlabel, ?_, hargs⟩
      show ((chosenType? lang arg.langs.types).orElse fun _ =>
        typeForLang? lang (arg.type.map (linkOptions className method))) = arg.type.map (linkOptions className method)
      rw [hchosen]
      cases hown : arg.type with
      | none => rfl
      | some type =>
        rw [hown] at htype
        exact congrArg some (forLang_linkOptions (Option.some.inj htype) className method)
  · have hlinked : linkArg className method arg = arg.belongingTo className method := if_neg hname
    rw [hlinked, forLang_belongingTo, h, ← hlinked, linkArg_linkArg]

/-- What a language has of an argument, with links, is all that it has of it when it sees what it has. -/
theorem inSignature?_linkArg {arg : Member} (h : arg.inSignature? lang = some arg) (className : String)
    (method : Option String) :
    ((linkArg className method arg).inSignature? lang).map (linkArg className method) =
      some (linkArg className method arg) := by
  obtain ⟨hlang, hsame, hoptions⟩ := inSignature?_eq_some.1 h
  have hlinked : linkArg className method
      ((((linkArg className method arg).langs.overrides.get? lang).map (forLang lang)).getD
        ((linkArg className method arg).forLang lang)) = linkArg className method arg := by
    rw [linkArg_langs]
    cases hform : arg.langs.overrides.get? lang with
    | none =>
      rw [hform] at hsame
      exact linkArg_forLang_linkArg hsame className method
    | some form =>
      rw [hform] at hsame
      exact congrArg (linkArg className method) hsame
  have hincluded : (linkArg className method arg).langs.includes lang = true := by rw [linkArg_langs, hlang]
  rw [inSignature?_eq_some.2 ⟨hincluded, rfl, fun hempty => hoptions ?_⟩, Option.map_some, hlinked]
  -- options that are linked are as many as before
  rwa [← isEmptyOptions_linkArg className method, hlinked, isEmptyOptions_linkArg] at hempty

/-- In the class that a member is linked to, only other arguments are linked. -/
theorem inClass_withArgs (className : String) (member : Member) (args : List Member) :
    inClass className { member.inClass className with args } =
      { member.inClass className with args := args.map (linkArg className (member.methodIn className)) } := by
  by_cases hmethod : member.kind = .method <;> simp [inClass, relink, methodIn, qualifiedName, isMethod, hmethod]

/-- A member that is seen as it is is seen so in a class. -/
theorem inClass_forLang_inClass {member : Member} (h : member.forLang lang = member) (className : String) :
    ((member.inClass className).forLang lang).inClass className = member.inClass className := by
  obtain ⟨hlabel, htype, hargs⟩ := forLang_eq_self_iff.1 h
  have hseen : (member.inClass className).forLang lang =
      { member.inClass className with args := argsForLang lang (member.inClass className).args } := by
    rw [forLang_eq]
    simp only [Member.mk.injEq, and_true, true_and]
    exact ⟨hlabel, htype⟩
  have hlinked :
      (argsForLang lang (member.inClass className).args).map (linkArg className (member.methodIn className)) =
      (member.inClass className).args := by
    rw [inClass_args, argsForLang_eq, List.map_filterMap, List.filterMap_map, ← List.filterMap_eq_map]
    exact List.filterMap_congr fun arg harg => inSignature?_linkArg (inSignature?_of_args hargs arg harg) _ _
  rw [hseen]
  exact (inClass_withArgs className member _).trans
    (congrArg (fun args => { member.inClass className with args }) hlinked)

end Member

/-! ## Classes and models -/

namespace ApiClass

variable {lang : Lang} {style : OverloadStyle} {cls kept : ApiClass}

/-- Where options are not expanded, a class can always be seen in a language. -/
theorem inLang_of_ne (hlang : lang ≠ .csharp) (cls : ApiClass) :
    cls.inLang lang style = .ok (relink
      { cls with
        label := (cls.langs.labels.get? lang).getD cls.label
        members := (cls.members.filter (·.langs.includes lang)).map (Member.forLang lang) }) := by
  have hmembers : (cls.members.filter (·.langs.includes lang)).mapM (Member.inLang lang style) =
      .ok ((cls.members.filter (·.langs.includes lang)).map (Member.forLang lang)) := by
    refine mapM_eq_ok.2 (List.forall₂_map_right_iff.2 (List.forall₂_same.2 fun member _ => ?_))
    exact if_neg fun hexpand => hlang hexpand.1
  rw [inLang, hmembers]
  rfl

/-- The members that a language has of a class, it has again and sees as they are, links aside. -/
theorem seen_of_inLang (hlang : lang ≠ .csharp) (hsettled : cls.Everywhere Member.Settled)
    (h : cls.inLang lang style = .ok kept) : ∀ seen ∈ kept.members,
      seen.langs.includes lang = true ∧ (seen.forLang lang).inClass kept.name = seen := by
  rw [inLang_of_ne hlang] at h
  cases h
  intro seen hseen
  obtain ⟨_, hshown, rfl⟩ := List.mem_map.1 hseen
  obtain ⟨member, hmember, rfl⟩ := List.mem_map.1 hshown
  obtain ⟨hmember, hincluded⟩ := List.mem_filter.1 hmember
  have hlangs : ((member.forLang lang).inClass cls.name).langs = member.langs := Member.forLang_langs lang member
  exact ⟨hlangs ▸ hincluded,
    Member.inClass_forLang_inClass (Member.forLang_forLang lang member (hsettled member hmember)) cls.name⟩

/-- A class as a language sees it is one that the language has, and it is seen so again. -/
theorem inLang_inLang (hlang : lang ≠ .csharp) (hsettled : cls.Everywhere Member.Settled)
    (h : cls.inLang lang style = .ok kept) : kept.langs = cls.langs ∧ kept.inLang lang style = .ok kept := by
  have hseen := seen_of_inLang hlang hsettled h
  have hmembers : ((kept.members.filter (·.langs.includes lang)).map (Member.forLang lang)).map
      (Member.inClass kept.name) = kept.members := by
    rw [List.filter_eq_self.2 fun seen hmem => (hseen seen hmem).1, List.map_map]
    exact (List.map_congr_left fun seen hmem => (hseen seen hmem).2).trans (List.map_id _)
  obtain ⟨hlangs, hlabel⟩ : kept.langs = cls.langs ∧
      (kept.langs.labels.get? lang).getD kept.label = kept.label := by
    rw [inLang_of_ne hlang] at h
    cases h
    refine ⟨rfl, ?_⟩
    show (cls.langs.labels.get? lang).getD ((cls.langs.labels.get? lang).getD cls.label) = _
    cases cls.langs.labels.get? lang <;> rfl
  refine ⟨hlangs, ?_⟩
  rw [inLang_of_ne hlang, relink]
  dsimp only
  rw [hmembers, hlabel]

end ApiClass

namespace Model

/-- Outside of C#, what a language has of the model that it has is that model. -/
theorem inLang_idempotent {model filtered : Model} {lang : Lang} {style : OverloadStyle} (hmodel : model.Assembled)
    (hlang : lang ≠ .csharp) (h : model.inLang lang style = .ok filtered) :
    filtered.inLang lang style = .ok filtered := by
  have hseen : ∀ kept ∈ filtered.classes, kept.langs.includes lang = true ∧ kept.inLang lang style = .ok kept := by
    intro kept hkept
    obtain ⟨cls, hcls, hinLang⟩ := related_of_mem_right (inLang_eq_ok h) hkept
    obtain ⟨hmem, hincluded⟩ := List.mem_filter.1 hcls
    obtain ⟨hlangs, hagain⟩ := ApiClass.inLang_inLang hlang (hmodel.settled cls hmem) hinLang
    exact ⟨hlangs ▸ hincluded, hagain⟩
  have hclasses : (filtered.classes.filter (·.langs.includes lang)).mapM (ApiClass.inLang lang style) =
      .ok filtered.classes := by
    rw [List.filter_eq_self.2 fun kept hkept => (hseen kept hkept).1]
    exact mapM_eq_ok.2 (List.forall₂_same.2 fun kept hkept => (hseen kept hkept).2)
  have hlinked : ∀ kept ∈ filtered.classes, kept.Linked :=
    fun kept hkept => ApiClass.linked_of_inLang (hseen kept hkept).2
  rw [inLang, hclasses]
  exact congrArg Except.ok (relink_eq_self hlinked)

/-- Java has the form of the argument once more, without the property for JavaScript. -/
theorem inLang_idempotent_form :
    Model.ofDocuments [formDocument] = .ok (formModel formInCommon) ∧
      (formModel formInCommon).inLang .java .separate = .ok (formModel (formArg [formProperty "z" .everywhere])) ∧
      (formModel (formArg [formProperty "z" .everywhere])).inLang .java .separate =
        .ok (formModel (formArg [formProperty "z" .everywhere])) := by
  have hmodel : Model.ofDocuments [formDocument] = .ok (formModel formInCommon) := by decide +kernel
  have hfiltered : (formModel formInCommon).inLang .java .separate =
      .ok (formModel (formArg [formProperty "z" .everywhere])) := by decide +kernel
  exact ⟨hmodel, hfiltered, inLang_idempotent (.ofDocuments hmodel) (by decide) hfiltered⟩

end Model

end RefPages
