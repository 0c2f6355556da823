/-
References in a model with comments blacked out. When all references of a model can be resolved,
those outside of what is blacked out can, to the same texts.
-/
import RefPages.Proofs.Api.Recomment
import RefPages.Proofs.Api.Resolved

namespace RefPages

open Markup

/-- The texts of links say nothing about comments. -/
structure LinkRenderer.Ignores (render : LinkRenderer) (change : List Node → List Node) : Prop where
  toClass : ∀ cls, render (.toClass (cls.recomment change)) = render (.toClass cls)
  toMember : ∀ member, render (.toMember (member.recomment change)) = render (.toMember member)

/-! ## Tables -/

section

variable {change : List Node → List Node}

theorem Member.referenceKey_recomment (member : Member) :
    (member.recomment change).referenceKey = member.referenceKey := by
  rw [referenceKey, referenceKey, recomment_kind, recomment_qualifiedName]

/-- The table of links is the same when comments are changed. -/
theorem LinkTable.ofModel_recomment {render : LinkRenderer} (h : render.Ignores change) (model : Model) :
    ofModel render (model.recomment change) = ofModel render model := by
  have hclasses : (model.recomment change).classes = model.classes.map (ApiClass.recomment change) := rfl
  have hmembers : (model.classes.map (ApiClass.recomment change)).flatMap (·.members) =
      (model.classes.flatMap (·.members)).map (Member.recomment change) := by
    rw [List.flatMap_map, List.map_flatMap]
    rfl
  unfold ofModel
  dsimp only
  rw [hclasses, hmembers, List.filterMap_map, List.filterMap_map, List.map_map]
  simp only [Function.comp_def, h.toClass, h.toMember, Member.referenceKey_recomment]
  rfl

theorem Member.optionProperties_recomment (method : Member) :
    (method.recomment change).optionProperties = method.optionProperties.map (Member.recomment change) := by
  have harg : (method.recomment change).arg? "options" = (method.arg? "options").map (recomment change) := by
    unfold arg? lastNamed?
    rw [recomment_args, List.filter_map, List.getLast?_map]
    simp only [Function.comp_def, recomment_name]
  unfold optionProperties
  rw [harg]
  cases method.arg? "options" with
  | none => rfl
  | some arg =>
    show ((arg.recomment change).type.bind (·.properties)).getD [] = _
    rw [recomment_type]
    cases htype : arg.type with
    | none => simp [htype]
    | some type =>
      cases hproperties : type.properties <;> simp [htype, hproperties]

/-- References within a method mean the same when comments are changed. -/
theorem LinkContext.ofMethod_recomment (method : Member) :
    ofMethod (method.recomment change) = ofMethod method := by
  unfold ofMethod
  dsimp only
  rw [Member.optionProperties_recomment, Member.recomment_qualifiedName, Member.recomment_args, List.map_map,
    List.filterMap_map, List.map_map]
  simp only [Function.comp_def, Member.recomment_name, Member.recomment_label, Member.recomment_overloadOf]

end

/-! ## Blacked out comments -/

section

variable {lang : Lang}

theorem redactAll_comp (lang : Lang) : redactAll lang ∘ redactAll lang = redactAll lang :=
  funext redactAll_redactAll

/-- The member with all comments in it blacked out for a language. -/
def Member.redact (lang : Lang) : Member → Member := recomment (redactAll lang)

/-- The type with all comments in it blacked out for a language. -/
def ApiType.redact (lang : Lang) : ApiType → ApiType := recomment (redactAll lang)

/-- The class with all comments in it blacked out for a language. -/
def ApiClass.redact (lang : Lang) : ApiClass → ApiClass := recomment (redactAll lang)

/-- The model with all comments blacked out for a language. -/
def Model.redact (lang : Lang) : Model → Model := recomment (redactAll lang)

theorem Member.redact_redact (member : Member) : (member.redact lang).redact lang = member.redact lang := by
  unfold redact
  rw [recomment_recomment, redactAll_comp]

theorem ApiType.redact_redact (type : ApiType) : (type.redact lang).redact lang = type.redact lang := by
  unfold redact
  rw [recomment_recomment, redactAll_comp]

theorem Member.redact_eq (member : Member) :
    member.redact lang =
      { member with
        docs := redactAll lang member.docs
        type := member.type.map (ApiType.redact lang)
        args := member.args.map (redact lang)
        deprecated := false
        langs := member.langs.recomment (redactAll lang) } :=
  recomment_eq _ member

theorem ApiType.redact_eq (type : ApiType) :
    type.redact lang =
      { type with
        properties := type.properties.map (·.map (Member.redact lang))
        union := type.union.map (·.map (redact lang))
        args := type.args.map (·.map (redact lang))
        returns := type.returns.map (redact lang)
        templates := type.templates.map (·.map (redact lang)) } :=
  recomment_eq _ type

theorem Member.redact_withDocs (member : Member) (docs : List Node) :
    ({ member with docs } : Member).redact lang = { member.redact lang with docs := redactAll lang docs } := by
  rw [redact_eq, redact_eq]

theorem Member.redact_withArgs (member : Member) (args : List Member) :
    ({ member with args } : Member).redact lang = { member.redact lang with args := args.map (redact lang) } := by
  rw [redact_eq, redact_eq]

theorem ApiType.redact_withProperties (type : ApiType) (properties : Option (List Member)) :
    ({ type with properties } : ApiType).redact lang =
      { type.redact lang with properties := properties.map (·.map (Member.redact lang)) } := by
  rw [redact_eq, redact_eq]

theorem Member.redact_docs (member : Member) : (member.redact lang).docs = redactAll lang member.docs :=
  recomment_docs member

/-! ## References in blacked out comments -/

variable (lang)

section

variable {render : LinkRenderer} {model : Model} {context : Option LinkContext} (hrender : render.Marked)

include hrender

theorem resolveNodes_redactAll {nodes nodes' : List Node}
    (h : resolveNodes render (.ofModel render model) context nodes = .ok nodes') :
    ∃ kept, resolveNodes render (.ofModel render model) context (redactAll lang nodes) = .ok kept ∧
      redactAll lang kept = redactAll lang nodes' :=
  (settled_resolveText hrender).tryMapAllTexts_redactAll h

theorem resolveDocs_redact (member member' : Member)
    (h : resolveDocs render (.ofModel render model) context member = .ok member') :
    ∃ kept, resolveDocs render (.ofModel render model) context (member.redact lang) = .ok kept ∧
      kept.redact lang = member'.redact lang := by
  obtain ⟨docs, hdocs, rfl⟩ := resolveDocs_eq_ok.1 h
  obtain ⟨kept, hkept, hsame⟩ := resolveNodes_redactAll lang hrender hdocs
  refine ⟨{ member.redact lang with docs := kept }, resolveDocs_eq_ok.2 ⟨kept, ?_, rfl⟩, ?_⟩
  · rwa [Member.redact_docs]
  · rw [Member.redact_withDocs, Member.redact_withDocs, Member.redact_redact, hsame]

theorem resolveProperties_redact {type type' : ApiType}
    (h : type.resolveProperties render (.ofModel render model) context = .ok type') :
    ∃ kept, (type.redact lang).resolveProperties render (.ofModel render model) context = .ok kept ∧
      kept.redact lang = type'.redact lang := by
  have hown : (type.redact lang).properties = type.properties.map (·.map (Member.redact lang)) :=
    ApiType.recomment_properties type
  cases hproperties : type.properties with
  | none =>
    rw [hproperties] at hown
    cases (ApiType.resolveProperties_none hproperties).symm.trans h
    exact ⟨type.redact lang, ApiType.resolveProperties_none hown, type.redact_redact⟩
  | some properties =>
    rw [hproperties] at hown
    obtain ⟨resolved, hresolved, rfl⟩ := (ApiType.resolveProperties_some hproperties).1 h
    obtain ⟨others, hothers, hviews⟩ := mapM_mirrored (resolveDocs_redact lang hrender) hresolved
    refine ⟨_, (ApiType.resolveProperties_some hown).2 ⟨others, hothers, rfl⟩, ?_⟩
    rw [ApiType.redact_withProperties, ApiType.redact_withProperties, ApiType.redact_redact, Option.map_some,
      Option.map_some, hviews]

theorem resolveArg_redact (arg arg' : Member)
    (h : resolveArg render (.ofModel render model) context arg = .ok arg') :
    ∃ kept, resolveArg render (.ofModel render model) context (arg.redact lang) = .ok kept ∧
      kept.redact lang = arg'.redact lang := by
  have htype : (arg.redact lang).type = arg.type.map (ApiType.redact lang) := Member.recomment_type arg
  obtain ⟨docs, type, hdocs, hresolved, rfl⟩ := resolveArg_eq_ok.1 h
  obtain ⟨keptDocs, hkeptDocs, hsame⟩ := resolveNodes_redactAll lang hrender hdocs
  have hkeptType : ∃ keptType,
      resolveType? render (.ofModel render model) context (arg.redact lang).type = .ok keptType ∧
      keptType.map (ApiType.redact lang) = type.map (ApiType.redact lang) := by
    rw [htype]
    cases harg : arg.type with
    | none =>
      rw [harg] at hresolved
      exact ⟨none, rfl, by cases hresolved; rfl⟩
    | some own =>
      rw [harg] at hresolved
      obtain ⟨own', hown, hresolved⟩ := bind_eq_ok.1 hresolved
      cases hresolved
      obtain ⟨kept, hkept, hview⟩ := resolveProperties_redact lang hrender hown
      exact ⟨some kept, bind_eq_ok.2 ⟨kept, hkept, rfl⟩, congrArg some hview⟩
  obtain ⟨keptType, hkeptType, hview⟩ := hkeptType
  refine ⟨{ arg.redact lang with docs := keptDocs, type := keptType }, ?_, ?_⟩
  · refine resolveArg_eq_ok.2 ⟨keptDocs, keptType, ?_, hkeptType, rfl⟩
    rwa [Member.redact_docs]
  · have hparts : ∀ (member : Member) (docs : List Node) (type : Option ApiType),
        ({ member with docs, type } : Member).redact lang =
          { member.redact lang with docs := redactAll lang docs, type := type.map (ApiType.redact lang) } := by
      intro member docs type
      rw [Member.redact_eq, Member.redact_eq]
    rw [hparts, hparts, Member.redact_redact, hsame, hview]

end

/-- When the references of a member can be resolved, those outside of what is blacked out can. -/
theorem Member.resolveLinks_redact {render : LinkRenderer} {model : Model} (hrender : render.Marked)
    (member member' : Member) (h : member.resolveLinks render (.ofModel render model) = .ok member') :
    ∃ kept, (member.redact lang).resolveLinks render (.ofModel render model) = .ok kept ∧
      kept.redact lang = member'.redact lang := by
  unfold resolveLinks at h ⊢
  dsimp only at h ⊢
  have hcontext : LinkContext.ofMethod (member.redact lang) = LinkContext.ofMethod member :=
    LinkContext.ofMethod_recomment member
  have hmethod : (member.redact lang).isMethod = member.isMethod := recomment_isMethod member
  rw [hcontext, hmethod]
  generalize (if member.isMethod = true then some (LinkContext.ofMethod member) else none) = context at h ⊢
  obtain ⟨described, hdescribed, h⟩ := bind_eq_ok.1 h
  obtain ⟨args, hargs, h⟩ := bind_eq_ok.1 h
  cases h
  obtain ⟨kept, hkept, hsame⟩ := resolveDocs_redact lang hrender member described hdescribed
  have hown : kept.args = described.args.map (redact lang) := by
    obtain ⟨docs, -, rfl⟩ := resolveDocs_eq_ok.1 hdescribed
    obtain ⟨docs', -, rfl⟩ := resolveDocs_eq_ok.1 hkept
    exact recomment_args member
  obtain ⟨others, hothers, hviews⟩ := mapM_mirrored (resolveArg_redact lang hrender) hargs
  refine ⟨{ kept with args := others }, ?_, ?_⟩
  · rw [hkept]
    show (do
      let args ← kept.args.mapM _
      pure _) = Except.ok _
    rw [hown, hothers]
    rfl
  · rw [redact_withArgs, redact_withArgs, hsame, hviews]

theorem ApiClass.resolveLinks_redact {render : LinkRenderer} {model : Model} (hrender : render.Marked)
    (cls cls' : ApiClass) (h : cls.resolveLinks render (.ofModel render model) = .ok cls') :
    ∃ kept, (cls.redact lang).resolveLinks render (.ofModel render model) = .ok kept ∧
      kept.redact lang = cls'.redact lang := by
  obtain ⟨docs, hdocs, h⟩ := bind_eq_ok.1 h
  obtain ⟨members, hmembers, h⟩ := bind_eq_ok.1 h
  cases h
  obtain ⟨keptDocs, hkeptDocs, hsame⟩ := resolveNodes_redactAll lang hrender hdocs
  obtain ⟨others, hothers, hviews⟩ := mapM_mirrored (Member.resolveLinks_redact lang hrender) hmembers
  have hownDocs : (cls.redact lang).docs = redactAll lang cls.docs := rfl
  have hownMembers : (cls.redact lang).members = cls.members.map (Member.redact lang) := rfl
  refine ⟨relink { cls.redact lang with docs := keptDocs, members := others }, ?_, ?_⟩
  · unfold resolveLinks
    rw [hownDocs, hownMembers, hkeptDocs, hothers]
    rfl
  · have hparts : ({ cls.redact lang with docs := keptDocs, members := others } : ApiClass).redact lang =
        ({ cls with docs, members } : ApiClass).redact lang := by
      show ({ cls with docs := redactAll lang keptDocs, members := others.map (Member.redact lang) } : ApiClass) =
        { cls with docs := redactAll lang docs, members := members.map (Member.redact lang) }
      rw [hsame, hviews]
    show (relink _).recomment _ = (relink _).recomment _
    rw [← recomment_relink, ← recomment_relink]
    exact congrArg relink hparts

/-- When the references of a model can be resolved, those outside of what is blacked out can, and the
models are the same but for what is blacked out. -/
theorem Model.resolveLinks_redact {render : LinkRenderer} (hrender : render.Marked)
    (hignores : render.Ignores (redactAll lang)) {model model' : Model} (h : model.resolveLinks render = .ok model') :
    ∃ kept, (model.redact lang).resolveLinks render = .ok kept ∧ kept.redact lang = model'.redact lang := by
  obtain ⟨classes, hclasses, h⟩ := bind_eq_ok.1 h
  cases h
  obtain ⟨others, hothers, hviews⟩ := mapM_mirrored (ApiClass.resolveLinks_redact lang hrender) hclasses
  have htable : LinkTable.ofModel render (model.redact lang) = LinkTable.ofModel render model :=
    LinkTable.ofModel_recomment hignores model
  refine ⟨⟨others⟩, ?_, congrArg Model.mk hviews⟩
  unfold resolveLinks
  rw [htable]
  show (do
    let classes ← (model.classes.map (ApiClass.redact lang)).mapM _
    pure _) = Except.ok _
  rw [hothers]
  rfl

end

end RefPages
