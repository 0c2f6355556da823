/-
How many forms a member has. All that matters of it are its name and its kind, whether it is
experimental, and of each argument whether it is experimental or required and which alternatives
its type has. The passes that make the model of a language treat two members alike when these are
the same.
-/
import RefPages.Api.Link
import RefPages.Dialect.Signature
import RefPages.Proofs.Api.Options
import RefPages.Proofs.Api.Origins

namespace RefPages

/-! ## Alternatives -/

namespace ApiType

/-- The names of the alternatives of a type, if it is a union. -/
def alternativeNames (type : ApiType) : Option (List String) := type.union.map (·.map (·.name))

theorem name_forLang (lang : Lang) (type : ApiType) : (type.forLang lang).name = type.name := by
  cases type
  rfl

theorem name_stable (type : ApiType) : type.stable.name = type.name := by
  cases type
  rfl

theorem typesForLang_eq (lang : Lang) (types : List ApiType) : typesForLang lang types = types.map (forLang lang) := by
  induction types with
  | nil => rfl
  | cons type types ih => rw [typesForLang, ih, List.map_cons]

@[simp] theorem alternativeNames_forLang (lang : Lang) (type : ApiType) :
    (type.forLang lang).alternativeNames = type.alternativeNames := by
  obtain ⟨name, properties, union, args, returns, templates, expression⟩ := type
  cases union with
  | none => rfl
  | some union =>
    show some ((typesForLang lang union).map (·.name)) = some (union.map (·.name))
    rw [typesForLang_eq, List.map_map]
    exact congrArg some (List.map_congr_left fun type _ => name_forLang lang type)

@[simp] theorem alternativeNames_stable (type : ApiType) : type.stable.alternativeNames = type.alternativeNames := by
  obtain ⟨name, properties, union, args, returns, templates, expression⟩ := type
  cases union with
  | none => rfl
  | some union =>
    show some ((stableTypes union).map (·.name)) = some (union.map (·.name))
    rw [stableTypes_eq, List.map_map]
    exact congrArg some (List.map_congr_left fun type _ => name_stable type)

/-- Whether alternatives of these names are unrelated: neither literals nor one type and null. -/
def areMixed (names : List String) : Bool :=
  !(names.length = 2 && (names.filter (· = "null")).length = 1) && !names.any isQuoted

/-- Whether a type is a union of unrelated types is decided by the names of its alternatives. -/
theorem isMixedUnion_eq (type : ApiType) : type.isMixedUnion = (type.alternativeNames.map areMixed).getD false := by
  unfold isMixedUnion alternativeNames isNullable
  cases type.union with
  | none => rfl
  | some union =>
    simp only [Option.map_some, Option.getD_some, areMixed, List.length_map, List.filter_map, List.any_map]
    rfl

end ApiType

/-! ## Arguments -/

namespace Member

/-- What decides whether an argument is kept, and how many forms it gives a method. -/
structure Shape where
  experimental : Bool
  required : Bool
  alternatives : Option (List String)

/-- The shape of an argument. -/
def shape (arg : Member) : Shape where
  experimental := arg.experimental
  required := arg.required
  alternatives := arg.type.bind (·.alternativeNames)

@[simp] theorem shape_linkArg (className : String) (method : Option String) (arg : Member) :
    (linkArg className method arg).shape = arg.shape := by
  unfold linkArg
  dsimp only
  split
  · cases htype : arg.type <;> simp [shape, belongingTo, linkOptions, htype, ApiType.alternativeNames]
  · rfl

theorem shape_stable (arg : Member) : arg.stable.shape = arg.shape := by
  have hrequired : arg.stable.required = arg.required := by
    cases arg
    rfl
  unfold shape
  rw [experimental_stable, hrequired, type_stable]
  cases arg.type with
  | none => rfl
  | some type => simp

theorem shape_inForm {lang : Lang} {style : OverloadStyle} {method arg form : Member}
    (h : inForm lang style method arg = .ok form) : form.shape = arg.shape := by
  unfold inForm expandArg at h
  split at h
  · split at h
    · split at h
      · cases h
        rfl
      · obtain ⟨options, -, h⟩ := bind_eq_ok.1 h
        cases h
        unfold shape
        cases arg.type <;> rfl
    · cases h
      rfl
  · cases h
    rfl

theorem membersForLang_eq (lang : Lang) (members : List Member) :
    membersForLang lang members = (members.filter (·.langs.includes lang)).map (forLang lang) := by
  induction members with
  | nil => rfl
  | cons member members ih =>
    rw [membersForLang, ih]
    cases h : member.langs.includes lang <;> simp [h]

theorem forLang_type (lang : Lang) (arg : Member) :
    (arg.forLang lang).type =
      (chosenType? lang arg.langs.types).orElse fun _ => typeForLang? lang arg.type := by
  rw [forLang_eq]

theorem shape_forLang (lang : Lang) (arg : Member) :
    (arg.forLang lang).shape =
      { arg.shape with
        alternatives :=
          match chosenType? lang arg.langs.types with
          | some type => type.alternativeNames
          | none => arg.shape.alternatives } := by
  unfold shape
  rw [forLang_type, forLang_eq]
  cases chosenType? lang arg.langs.types with
  | some type => rfl
  | none =>
    cases arg.type with
    | none => rfl
    | some type => simp [typeForLang?]

/-- Without a type of its own for an argument, a language has no options exactly when it has none of the
common ones. -/
theorem options_forLang_eq_nil {lang : Lang} {arg : Member} (hcommon : chosenType? lang arg.langs.types = none) :
    (arg.forLang lang).options = [] ↔ ∀ option ∈ arg.options, option.langs.includes lang = false := by
  unfold options
  rw [forLang_type, hcommon]
  rcases arg.type with _ | ⟨name, _ | properties, union, args, returns, templates, expression⟩
  · exact ⟨fun _ => nofun, fun _ => rfl⟩
  · exact ⟨fun _ => nofun, fun _ => rfl⟩
  · show membersForLang lang properties = [] ↔ ∀ option ∈ properties, _
    rw [membersForLang_eq, List.map_eq_nil_iff, List.filter_eq_nil_iff]
    simp only [Bool.not_eq_true]

/-- Linking an argument changes neither whether a language has it nor its shape there. -/
theorem shape_inSignature?_linkArg (lang : Lang) (className : String) (method : Option String) (arg : Member) :
    ((linkArg className method arg).inSignature? lang).map shape = (arg.inSignature? lang).map shape := by
  unfold inSignature?
  rw [linkArg_langs]
  split
  · rw [override?_eq, override?_eq, linkArg_langs]
    cases arg.langs.overrides.get? lang with
    | some form => rfl
    | none =>
      simp only [Option.map_none, Option.getD_none]
      have hempty : ((linkArg className method arg).forLang lang).isEmptyOptions = true ↔
          (arg.forLang lang).isEmptyOptions = true := by
        rw [isEmptyOptions_iff, isEmptyOptions_iff, forLang_name, forLang_name, linkArg_name]
        refine and_congr_right fun hname => ?_
        cases hchosen : chosenType? lang arg.langs.types with
        | some type =>
          unfold options
          rw [forLang_type, forLang_type, linkArg_langs, hchosen]
          rfl
        | none =>
          rw [options_forLang_eq_nil hchosen, options_forLang_eq_nil (by rwa [linkArg_langs]), options_linkArg hname]
          simp [ApiType.sortByName, List.mem_mergeSort, belongingTo]
      have hshape : ((linkArg className method arg).forLang lang).shape = (arg.forLang lang).shape := by
        rw [shape_forLang, shape_forLang, linkArg_langs, shape_linkArg]
      by_cases h : (arg.forLang lang).isEmptyOptions = true
      · rw [if_pos h, if_pos (hempty.2 h)]
      · rw [if_neg h, if_neg (fun hlinked => h (hempty.1 hlinked))]
        exact congrArg some hshape
  · rfl

/-! ## Members -/

/-- What decides whether a member is kept, and which forms it has. -/
structure Outline where
  name : String
  kind : MemberKind
  experimental : Bool
  args : List Shape

/-- The outline of a member. -/
def outline (member : Member) : Outline where
  name := member.name
  kind := member.kind
  experimental := member.experimental
  args := member.args.map shape

@[simp] theorem outline_inClass (className : String) (member : Member) :
    (inClass className member).outline = member.outline := by
  unfold outline
  rw [inClass_args, List.map_map]
  simp only [Function.comp_def, shape_linkArg]
  rfl

/-- The arguments that a language has of a member, in the shapes that they have there. -/
def shapesForLang (lang : Lang) (member : Member) : List Shape := (argsForLang lang member.args).map shape

theorem shapesForLang_copyFrom (lang : Lang) (className base : String) (own : Member) :
    (copyFrom className base own).shapesForLang lang = own.shapesForLang lang := by
  have hshapes : ∀ args : List Member, (args.filterMap (inSignature? lang)).map shape =
      args.filterMap fun arg => (arg.inSignature? lang).map shape := fun args => List.map_filterMap ..
  unfold shapesForLang copyFrom
  rw [inClass_args, argsForLang_eq, argsForLang_eq, hshapes, hshapes, List.filterMap_map]
  exact List.filterMap_congr fun arg _ => shape_inSignature?_linkArg lang className _ arg

/-- What a language makes of a member, in outline. -/
theorem outline_inLang {lang : Lang} {style : OverloadStyle} {member seen : Member} (hargs : ArgsDistinct member.args)
    (h : member.inLang lang style = .ok seen) :
    seen.outline = { member.outline with args := member.shapesForLang lang } ∧
      seen.inheritedFrom = member.inheritedFrom := by
  obtain ⟨args, hforms, hclass⟩ := inLang_inClass hargs h
  have hshapes : args.map shape = member.shapesForLang lang := by
    exact map_eq_of_mapM (fun _ _ hform => shape_inForm hform) hforms
  constructor
  · rw [← outline_inClass member.className seen, hclass, outline_inClass, ← hshapes, forLang_eq]
    rfl
  · rw [← inClass_inheritedFrom member.className seen, hclass, inClass_inheritedFrom, forLang_eq]

theorem outline_stable (member : Member) :
    member.stable.outline = { member.outline with args := member.outline.args.filter (!·.experimental) } := by
  have hargs : member.stable.args = stableMembers member.args := by
    cases member
    rfl
  have hrest : member.stable.name = member.name ∧ member.stable.kind = member.kind := by
    cases member
    exact ⟨rfl, rfl⟩
  unfold outline
  rw [hargs, hrest.1, hrest.2, experimental_stable, stableMembers_eq, List.map_map, List.filter_map]
  simp only [Function.comp_def, shape_stable]
  rfl

/-! ## Resolved references -/

theorem shape_resolveArg {render : LinkRenderer} {table : LinkTable} {context : Option LinkContext} {arg arg' : Member}
    (h : resolveArg render table context arg = .ok arg') : arg'.shape = arg.shape := by
  obtain ⟨withDocs, hdocs, h⟩ := bind_eq_ok.1 h
  obtain ⟨docs, -, hdocs⟩ := bind_eq_ok.1 hdocs
  cases hdocs
  dsimp only at h
  split at h
  · rename_i type htype
    split at h
    · obtain ⟨properties, -, h⟩ := bind_eq_ok.1 h
      cases h
      unfold shape
      rw [htype]
      rfl
    · cases h
      rfl
  · cases h
    rfl

theorem outline_resolveLinks {render : LinkRenderer} {table : LinkTable} {member member' : Member}
    (h : member.resolveLinks render table = .ok member') :
    member'.outline = member.outline ∧ member'.inheritedFrom = member.inheritedFrom := by
  unfold resolveLinks at h
  obtain ⟨withDocs, hdocs, h⟩ := bind_eq_ok.1 h
  obtain ⟨docs, -, hdocs⟩ := bind_eq_ok.1 hdocs
  cases hdocs
  obtain ⟨args, hargs, h⟩ := bind_eq_ok.1 h
  cases h
  have hshapes := map_eq_of_mapM (fun _ _ harg => shape_resolveArg harg) hargs
  exact ⟨by unfold outline; rw [hshapes], rfl⟩

/-! ## Forms -/

theorem isOverloaded_eq (arg : Member) :
    Dialect.isOverloaded arg = (arg.shape.required && (arg.shape.alternatives.map ApiType.areMixed).getD false) := by
  unfold Dialect.isOverloaded shape
  cases arg.type with
  | none => rfl
  | some type =>
    rw [Option.map_some, Option.getD_some, ApiType.isMixedUnion_eq]
    rfl

theorem length_alternatives (arg : Member) :
    ((arg.type.bind (·.union)).getD []).length = (arg.shape.alternatives.getD []).length := by
  unfold shape
  cases arg.type with
  | none => rfl
  | some type =>
    show (type.union.getD []).length = (type.alternativeNames.getD []).length
    unfold ApiType.alternativeNames
    cases type.union <;> simp

end Member

namespace Dialect

theorem length_overloads_congr {args args' : List Member} (h : args.map Member.shape = args'.map Member.shape) :
    (overloads args).length = (overloads args').length := by
  induction args generalizing args' with
  | nil =>
    obtain rfl := List.map_eq_nil_iff.1 h.symm
    rfl
  | cons arg args ih =>
    cases args' with
    | nil => cases h
    | cons arg' args' =>
      obtain ⟨hshape, hrest⟩ := List.cons.inj h
      have hoverloaded : isOverloaded arg = isOverloaded arg' := by
        rw [Member.isOverloaded_eq, Member.isOverloaded_eq, hshape]
      rw [overloads, overloads, hoverloaded]
      split
      · rw [List.length_map, List.length_map, Member.length_alternatives, Member.length_alternatives, hshape]
      · rw [List.length_map, List.length_map, ih hrest]

/-- Members with the same outline have the same number of forms. -/
theorem length_forms_congr (dialect : Dialect) {member member' : Member} (h : member.outline = member'.outline) :
    (dialect.forms member).length = (dialect.forms member').length := by
  unfold forms
  rw [List.length_map, List.length_map]
  split
  · exact length_overloads_congr (congrArg Member.Outline.args h)
  · rfl

end Dialect

end RefPages
