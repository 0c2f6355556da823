/-
Comments changed everywhere in a model. Everything else that is done with a model on the way to a
language leaves comments alone, so that it does not matter whether comments are changed before or
after.
-/
import RefPages.Api.ForLang
import RefPages.Api.Stable
import RefPages.Proofs.Api.Forms
import RefPages.Proofs.Api.Stable

namespace RefPages

open Markup (Node)

section

variable (change : List Node → List Node)

/-! ## Changing comments -/

mutual

/-- The type with the comments in it changed. -/
def ApiType.recomment : ApiType → ApiType
  | { name, properties, union, args, returns, templates, expression } =>
    { name
      properties := recommentMembers? properties
      union := recommentTypes? union
      args := recommentTypes? args
      returns := recommentType? returns
      templates := recommentTypes? templates
      expression }

/-- The type, if there is one, with the comments in it changed. -/
def recommentType? : Option ApiType → Option ApiType
  | none => none
  | some type => some type.recomment

/-- The types, if there are any, with the comments in them changed. -/
def recommentTypes? : Option (List ApiType) → Option (List ApiType)
  | none => none
  | some types => some (recommentTypes types)

/-- The types with the comments in them changed. -/
def recommentTypes : List ApiType → List ApiType
  | [] => []
  | type :: types => type.recomment :: recommentTypes types

/-- The members, if there are any, with their comments changed. -/
def recommentMembers? : Option (List Member) → Option (List Member)
  | none => none
  | some members => some (recommentMembers members)

/-- The members with their comments changed. -/
def recommentMembers : List Member → List Member
  | [] => []
  | member :: members => member.recomment :: recommentMembers members

/-- The member with its comment and those in it changed. Whether the comment says that the member
is deprecated is left open. -/
def Member.recomment : Member → Member
  | member@{ docs, type, args, langs := { only, labels, types, overrides }, .. } =>
    { member with
      docs := change docs
      type := recommentType? type
      args := recommentMembers args
      deprecated := false
      langs := { only, labels, types := recommentTypeEach types, overrides := recommentMemberEach overrides } }

/-- The member, if there is one, with its comment changed. -/
def recommentMember? : Option Member → Option Member
  | none => none
  | some member => some member.recomment

/-- The types of languages with the comments in them changed. -/
def recommentTypeEach : PerLang ApiType → PerLang ApiType
  | { js, python, java, csharp } =>
    { js := recommentType? js
      python := recommentType? python
      java := recommentType? java
      csharp := recommentType? csharp }

/-- The members of languages with their comments changed. -/
def recommentMemberEach : PerLang Member → PerLang Member
  | { js, python, java, csharp } =>
    { js := recommentMember? js
      python := recommentMember? python
      java := recommentMember? java
      csharp := recommentMember? csharp }

end

/-- The class with all comments changed. -/
def ApiClass.recomment (cls : ApiClass) : ApiClass :=
  { cls with docs := change cls.docs, members := cls.members.map (Member.recomment change) }

/-- The model with all comments changed. -/
def Model.recomment (model : Model) : Model := ⟨model.classes.map (ApiClass.recomment change)⟩

/-! ## Parts -/

theorem recommentTypes_eq (types : List ApiType) :
    recommentTypes change types = types.map (ApiType.recomment change) := by
  induction types with
  | nil => rfl
  | cons type types ih => rw [recommentTypes, ih, List.map_cons]

theorem recommentMembers_eq (members : List Member) :
    recommentMembers change members = members.map (Member.recomment change) := by
  induction members with
  | nil => rfl
  | cons member members ih => rw [recommentMembers, ih, List.map_cons]

theorem recommentType?_eq (type : Option ApiType) :
    recommentType? change type = type.map (ApiType.recomment change) := by
  cases type <;> rfl

theorem recommentMembers?_eq (members : Option (List Member)) :
    recommentMembers? change members = members.map (·.map (Member.recomment change)) := by
  cases members with
  | none => rfl
  | some members => rw [recommentMembers?, recommentMembers_eq, Option.map_some]

theorem recommentTypes?_eq (types : Option (List ApiType)) :
    recommentTypes? change types = types.map (·.map (ApiType.recomment change)) := by
  cases types with
  | none => rfl
  | some types => rw [recommentTypes?, recommentTypes_eq, Option.map_some]

theorem ApiType.recomment_eq (type : ApiType) :
    type.recomment change =
      { type with
        properties := type.properties.map (·.map (Member.recomment change))
        union := type.union.map (·.map (ApiType.recomment change))
        args := type.args.map (·.map (ApiType.recomment change))
        returns := type.returns.map (ApiType.recomment change)
        templates := type.templates.map (·.map (ApiType.recomment change)) } := by
  obtain ⟨name, properties, union, args, returns, templates, expression⟩ := type
  rw [ApiType.recomment, recommentMembers?_eq, recommentTypes?_eq, recommentTypes?_eq, recommentTypes?_eq,
    recommentType?_eq]

/-- The rules with the comments in types and in other forms changed. -/
def LangRules.recomment (rules : LangRules) : LangRules :=
  { rules with
    types := recommentTypeEach change rules.types
    overrides := recommentMemberEach change rules.overrides }

theorem Member.recomment_eq (member : Member) :
    member.recomment change =
      { member with
        docs := change member.docs
        type := member.type.map (ApiType.recomment change)
        args := member.args.map (Member.recomment change)
        deprecated := false
        langs := member.langs.recomment change } := by
  obtain ⟨_, _, _, _, _, _, _, _, _, _, _, _, ⟨_, _, _, _⟩, _, _, _, _⟩ := member
  rw [Member.recomment, recommentMembers_eq, recommentType?_eq]
  rfl

end

/-! ## Changing comments twice -/

section

variable (first second : List Node → List Node)

mutual

theorem ApiType.recomment_recomment : ∀ type : ApiType,
    (type.recomment first).recomment second = type.recomment (second ∘ first)
  | { properties, union, args, returns, templates, .. } => by
    rw [ApiType.recomment, ApiType.recomment, ApiType.recomment, recommentMembers?_recomment properties,
      recommentTypes?_recomment union, recommentTypes?_recomment args, recommentType?_recomment returns,
      recommentTypes?_recomment templates]

theorem recommentType?_recomment : ∀ type : Option ApiType,
    recommentType? second (recommentType? first type) = recommentType? (second ∘ first) type
  | none => rfl
  | some type => by
    rw [recommentType?, recommentType?, recommentType?, ApiType.recomment_recomment type]

theorem recommentTypes?_recomment : ∀ types : Option (List ApiType),
    recommentTypes? second (recommentTypes? first types) = recommentTypes? (second ∘ first) types
  | none => rfl
  | some types => by
    rw [recommentTypes?, recommentTypes?, recommentTypes?, recommentTypes_recomment types]

theorem recommentTypes_recomment : ∀ types : List ApiType,
    recommentTypes second (recommentTypes first types) = recommentTypes (second ∘ first) types
  | [] => rfl
  | type :: types => by
    rw [recommentTypes, recommentTypes, recommentTypes, ApiType.recomment_recomment type,
      recommentTypes_recomment types]

theorem recommentMembers?_recomment : ∀ members : Option (List Member),
    recommentMembers? second (recommentMembers? first members) = recommentMembers? (second ∘ first) members
  | none => rfl
  | some members => by
    rw [recommentMembers?, recommentMembers?, recommentMembers?, recommentMembers_recomment members]

theorem recommentMembers_recomment : ∀ members : List Member,
    recommentMembers second (recommentMembers first members) = recommentMembers (second ∘ first) members
  | [] => rfl
  | member :: members => by
    rw [recommentMembers, recommentMembers, recommentMembers, Member.recomment_recomment member,
      recommentMembers_recomment members]

theorem Member.recomment_recomment : ∀ member : Member,
    (member.recomment first).recomment second = member.recomment (second ∘ first)
  | { type, args, langs := { types, overrides, .. }, .. } => by
    rw [Member.recomment, Member.recomment, Member.recomment, recommentType?_recomment type,
      recommentMembers_recomment args, recommentTypeEach_recomment types, recommentMemberEach_recomment overrides]
    rfl

theorem recommentMember?_recomment : ∀ member : Option Member,
    recommentMember? second (recommentMember? first member) = recommentMember? (second ∘ first) member
  | none => rfl
  | some member => by
    rw [recommentMember?, recommentMember?, recommentMember?, Member.recomment_recomment member]

theorem recommentTypeEach_recomment : ∀ types : PerLang ApiType,
    recommentTypeEach second (recommentTypeEach first types) = recommentTypeEach (second ∘ first) types
  | { js, python, java, csharp } => by
    rw [recommentTypeEach, recommentTypeEach, recommentTypeEach, recommentType?_recomment js,
      recommentType?_recomment python, recommentType?_recomment java, recommentType?_recomment csharp]

theorem recommentMemberEach_recomment : ∀ members : PerLang Member,
    recommentMemberEach second (recommentMemberEach first members) = recommentMemberEach (second ∘ first) members
  | { js, python, java, csharp } => by
    rw [recommentMemberEach, recommentMemberEach, recommentMemberEach, recommentMember?_recomment js,
      recommentMember?_recomment python, recommentMember?_recomment java, recommentMember?_recomment csharp]

end

end

/-! ## What comments do not matter for -/

section

variable {change : List Node → List Node}

namespace Member

@[simp] theorem recomment_kind (member : Member) : (member.recomment change).kind = member.kind := by
  rw [recomment_eq]

@[simp] theorem recomment_name (member : Member) : (member.recomment change).name = member.name := by
  rw [recomment_eq]

@[simp] theorem recomment_label (member : Member) : (member.recomment change).label = member.label := by
  rw [recomment_eq]

@[simp] theorem recomment_type (member : Member) :
    (member.recomment change).type = member.type.map (ApiType.recomment change) := by
  rw [recomment_eq]

@[simp] theorem recomment_args (member : Member) :
    (member.recomment change).args = member.args.map (recomment change) := by
  rw [recomment_eq]

@[simp] theorem recomment_docs (member : Member) : (member.recomment change).docs = change member.docs := by
  rw [recomment_eq]

@[simp] theorem recomment_required (member : Member) : (member.recomment change).required = member.required := by
  rw [recomment_eq]

@[simp] theorem recomment_isAsync (member : Member) : (member.recomment change).isAsync = member.isAsync := by
  rw [recomment_eq]

@[simp] theorem recomment_experimental (member : Member) :
    (member.recomment change).experimental = member.experimental := by
  rw [recomment_eq]

@[simp] theorem recomment_since (member : Member) : (member.recomment change).since = member.since := by
  rw [recomment_eq]

@[simp] theorem recomment_langs (member : Member) :
    (member.recomment change).langs = member.langs.recomment change := by
  rw [recomment_eq]

@[simp] theorem recomment_className (member : Member) :
    (member.recomment change).className = member.className := by
  rw [recomment_eq]

@[simp] theorem recomment_enclosingMethod (member : Member) :
    (member.recomment change).enclosingMethod = member.enclosingMethod := by
  rw [recomment_eq]

@[simp] theorem recomment_inheritedFrom (member : Member) :
    (member.recomment change).inheritedFrom = member.inheritedFrom := by
  rw [recomment_eq]

@[simp] theorem recomment_overloadOf (member : Member) :
    (member.recomment change).overloadOf = member.overloadOf := by
  rw [recomment_eq]

@[simp] theorem recomment_isMethod (member : Member) : (member.recomment change).isMethod = member.isMethod := by
  rw [isMethod, isMethod, recomment_kind]

@[simp] theorem recomment_qualifiedName (member : Member) :
    (member.recomment change).qualifiedName = member.qualifiedName := by
  rw [qualifiedName, qualifiedName, recomment_className, recomment_name]

end Member

namespace ApiType

@[simp] theorem recomment_name (type : ApiType) : (type.recomment change).name = type.name := by
  rw [recomment_eq]

@[simp] theorem recomment_properties (type : ApiType) :
    (type.recomment change).properties = type.properties.map (·.map (Member.recomment change)) := by
  rw [recomment_eq]

@[simp] theorem recomment_union (type : ApiType) :
    (type.recomment change).union = type.union.map (·.map (recomment change)) := by
  rw [recomment_eq]

@[simp] theorem recomment_args (type : ApiType) :
    (type.recomment change).args = type.args.map (·.map (recomment change)) := by
  rw [recomment_eq]

@[simp] theorem recomment_returns (type : ApiType) :
    (type.recomment change).returns = type.returns.map (recomment change) := by
  rw [recomment_eq]

@[simp] theorem recomment_templates (type : ApiType) :
    (type.recomment change).templates = type.templates.map (·.map (recomment change)) := by
  rw [recomment_eq]

end ApiType

@[simp] theorem LangRules.recomment_only (rules : LangRules) : (rules.recomment change).only = rules.only := rfl

@[simp] theorem LangRules.recomment_labels (rules : LangRules) :
    (rules.recomment change).labels = rules.labels := rfl

@[simp] theorem LangRules.includes_recomment (rules : LangRules) (lang : Lang) :
    (rules.recomment change).includes lang = rules.includes lang := rfl

@[simp] theorem Member.isEmptyOptions_recomment (arg : Member) :
    (arg.recomment change).isEmptyOptions = arg.isEmptyOptions := by
  unfold isEmptyOptions
  rw [recomment_name, recomment_type]
  cases arg.type with
  | none => rfl
  | some type => cases hproperties : type.properties <;> simp [hproperties]

theorem Model.class?_recomment (model : Model) (name : String) :
    (model.recomment change).class? name = (model.class? name).map (ApiClass.recomment change) :=
  class?_map (f := ApiClass.recomment change) (fun _ => rfl) model name

/-! ## Taking what a language has -/

section

variable (lang : Lang)

theorem recommentType?_orElse (first second : Option ApiType) :
    (recommentType? change first).orElse (fun _ => recommentType? change second) =
      recommentType? change (first.orElse fun _ => second) := by
  cases first <;> rfl

mutual

theorem ApiType.forLang_recomment : ∀ type : ApiType,
    (type.recomment change).forLang lang = (type.forLang lang).recomment change
  | { properties, union, args, returns, templates, .. } => by
    rw [ApiType.recomment, ApiType.forLang, ApiType.forLang, ApiType.recomment,
      membersForLang?_recomment properties, typesForLang?_recomment union, typesForLang?_recomment args,
      typeForLang?_recomment returns, typesForLang?_recomment templates]

theorem typeForLang?_recomment : ∀ type : Option ApiType,
    typeForLang? lang (recommentType? change type) = recommentType? change (typeForLang? lang type)
  | none => rfl
  | some type => by
    rw [recommentType?, typeForLang?, typeForLang?, recommentType?, ApiType.forLang_recomment type]

theorem typesForLang?_recomment : ∀ types : Option (List ApiType),
    typesForLang? lang (recommentTypes? change types) = recommentTypes? change (typesForLang? lang types)
  | none => rfl
  | some types => by
    rw [recommentTypes?, typesForLang?, typesForLang?, recommentTypes?, typesForLang_recomment types]

theorem typesForLang_recomment : ∀ types : List ApiType,
    typesForLang lang (recommentTypes change types) = recommentTypes change (typesForLang lang types)
  | [] => rfl
  | type :: types => by
    rw [recommentTypes, typesForLang, typesForLang, recommentTypes, ApiType.forLang_recomment type,
      typesForLang_recomment types]

theorem membersForLang?_recomment : ∀ members : Option (List Member),
    membersForLang? lang (recommentMembers? change members) =
      recommentMembers? change (membersForLang? lang members)
  | none => rfl
  | some members => by
    rw [recommentMembers?, membersForLang?, membersForLang?, recommentMembers?, membersForLang_recomment members]

theorem membersForLang_recomment : ∀ members : List Member,
    membersForLang lang (recommentMembers change members) = recommentMembers change (membersForLang lang members)
  | [] => rfl
  | member :: members => by
    rw [recommentMembers, membersForLang, membersForLang, Member.recomment_langs, LangRules.includes_recomment,
      membersForLang_recomment members]
    split
    · rw [recommentMembers, Member.forLang_recomment member]
    · rfl

theorem Member.forLang_recomment : ∀ member : Member,
    (member.recomment change).forLang lang = (member.forLang lang).recomment change
  | { type, args, langs := { types, .. }, .. } => by
    rw [Member.recomment, Member.forLang, Member.forLang, Member.recomment, chosenType?_recomment types,
      typeForLang?_recomment type, argsForLang_recomment args, recommentType?_orElse]

theorem argsForLang_recomment : ∀ args : List Member,
    argsForLang lang (recommentMembers change args) = recommentMembers change (argsForLang lang args)
  | [] => rfl
  | arg :: args => by
    have hshown : ((arg.recomment change).override? lang).getD ((arg.recomment change).forLang lang) =
        ((arg.override? lang).getD (arg.forLang lang)).recomment change := by
      rw [Member.override?_recomment arg, Member.forLang_recomment arg]
      cases arg.override? lang <;> rfl
    rw [recommentMembers, argsForLang, argsForLang, Member.recomment_langs, LangRules.includes_recomment,
      argsForLang_recomment args, hshown]
    split
    · dsimp only
      rw [Member.isEmptyOptions_recomment]
      split
      · rfl
      · rw [recommentMembers]
    · rfl

theorem Member.override?_recomment : ∀ arg : Member,
    (arg.recomment change).override? lang = recommentMember? change (arg.override? lang)
  | { langs := { overrides, .. }, .. } => by
    rw [Member.recomment, Member.override?, Member.override?, chosenMember?_recomment overrides]

theorem chosenType?_recomment : ∀ types : PerLang ApiType,
    chosenType? lang (recommentTypeEach change types) = recommentType? change (chosenType? lang types)
  | { js, python, java, csharp } => by
    have hjs := typeForLang?_recomment js
    have hpython := typeForLang?_recomment python
    have hjava := typeForLang?_recomment java
    have hcsharp := typeForLang?_recomment csharp
    rw [recommentTypeEach]
    cases lang with
    | js => exact hjs
    | python => exact hpython
    | java => exact hjava
    | csharp => exact hcsharp

theorem chosenMember?_recomment : ∀ members : PerLang Member,
    chosenMember? lang (recommentMemberEach change members) = recommentMember? change (chosenMember? lang members)
  | { js, python, java, csharp } => by
    have hjs := memberForLang?_recomment js
    have hpython := memberForLang?_recomment python
    have hjava := memberForLang?_recomment java
    have hcsharp := memberForLang?_recomment csharp
    rw [recommentMemberEach]
    cases lang with
    | js => exact hjs
    | python => exact hpython
    | java => exact hjava
    | csharp => exact hcsharp

theorem memberForLang?_recomment : ∀ member : Option Member,
    memberForLang? lang (recommentMember? change member) = recommentMember? change (memberForLang? lang member)
  | none => rfl
  | some member => by
    rw [recommentMember?, memberForLang?, memberForLang?, recommentMember?, Member.forLang_recomment member]

end

end

/-! ## Leaving out what is experimental -/

mutual

theorem ApiType.stable_recomment : ∀ type : ApiType,
    (type.recomment change).stable = type.stable.recomment change
  | { properties, union, args, templates, .. } => by
    rw [ApiType.recomment, ApiType.stable, ApiType.stable, ApiType.recomment,
      stableMembers?_recomment properties, stableTypes?_recomment union, stableTypes?_recomment args,
      stableTypes?_recomment templates]

theorem stableTypes?_recomment : ∀ types : Option (List ApiType),
    stableTypes? (recommentTypes? change types) = recommentTypes? change (stableTypes? types)
  | none => rfl
  | some types => by
    rw [recommentTypes?, stableTypes?, stableTypes?, recommentTypes?, stableTypes_recomment types]

theorem stableTypes_recomment : ∀ types : List ApiType,
    stableTypes (recommentTypes change types) = recommentTypes change (stableTypes types)
  | [] => rfl
  | type :: types => by
    rw [recommentTypes, stableTypes, stableTypes, recommentTypes, ApiType.stable_recomment type,
      stableTypes_recomment types]

theorem stableMembers?_recomment : ∀ members : Option (List Member),
    stableMembers? (recommentMembers? change members) = recommentMembers? change (stableMembers? members)
  | none => rfl
  | some members => by
    rw [recommentMembers?, stableMembers?, stableMembers?, recommentMembers?, stableMembers_recomment members]

theorem stableMembers_recomment : ∀ members : List Member,
    stableMembers (recommentMembers change members) = recommentMembers change (stableMembers members)
  | [] => rfl
  | member :: members => by
    rw [recommentMembers, stableMembers, stableMembers, Member.recomment_experimental,
      stableMembers_recomment members]
    split
    · rfl
    · rw [recommentMembers, Member.stable_recomment member]

theorem Member.stable_recomment : ∀ member : Member,
    (member.recomment change).stable = member.stable.recomment change
  | { type := none, args, langs := { .. }, .. } => by
    rw [Member.recomment, Member.stable, Member.stable, Member.recomment, stableMembers_recomment args]
    rfl
  | { type := some type, args, langs := { .. }, .. } => by
    rw [Member.recomment, Member.stable, Member.stable, Member.recomment, stableMembers_recomment args,
      recommentType?, stableType?, stableType?, recommentType?, ApiType.stable_recomment type]

end

/-! ## Links -/

namespace Member

theorem recomment_belongingTo (className : String) (method : Option String) (member : Member) :
    (member.recomment change).belongingTo className method =
      (member.belongingTo className method).recomment change := by
  rw [recomment_eq, recomment_eq]
  rfl

theorem recomment_linkOptions (className : String) (method : Option String) (type : ApiType) :
    linkOptions className method (type.recomment change) =
      (linkOptions className method type).recomment change := by
  have hlink : ∀ options : List Member,
      (ApiType.sortByName (options.map (recomment change))).map (belongingTo className method) =
        ((ApiType.sortByName options).map (belongingTo className method)).map (recomment change) := by
    intro options
    rw [ApiType.sortByName_map recomment_name, List.map_map, List.map_map]
    exact List.map_congr_left fun option _ => recomment_belongingTo className method option
  rw [ApiType.recomment_eq, ApiType.recomment_eq]
  unfold linkOptions
  cases type.properties with
  | none => rfl
  | some options => simp only [Option.map_some, hlink]

theorem recomment_linkArg (className : String) (method : Option String) (arg : Member) :
    linkArg className method (arg.recomment change) = (linkArg className method arg).recomment change := by
  have hname : ((arg.recomment change).belongingTo className method).name = arg.name := recomment_name arg
  have hname' : (arg.belongingTo className method).name = arg.name := rfl
  unfold linkArg
  dsimp only
  rw [hname, hname']
  split
  · rw [recomment_belongingTo, recomment_eq, recomment_eq]
    dsimp only [belongingTo]
    rw [Option.map_map, Option.map_map]
    congr 1
    exact congrArg (Option.map · arg.type) (funext (recomment_linkOptions className method))
  · exact recomment_belongingTo className method arg

theorem recomment_relink (member : Member) : (member.recomment change).relink = member.relink.recomment change := by
  unfold relink
  dsimp only
  rw [recomment_isMethod, recomment_qualifiedName, recomment_args, recomment_className, List.map_map]
  rw [recomment_eq, recomment_eq]
  dsimp only
  rw [List.map_map]
  congr 1
  exact List.map_congr_left fun arg _ => recomment_linkArg _ _ arg

theorem recomment_inClass (className : String) (member : Member) :
    (member.recomment change).inClass className = (member.inClass className).recomment change := by
  have hclass : ({ member.recomment change with className } : Member) =
      ({ member with className } : Member).recomment change := by
    rw [recomment_eq, recomment_eq]
  rw [inClass, inClass, hclass, recomment_relink]

end Member

theorem ApiClass.recomment_relink (cls : ApiClass) :
    (cls.recomment change).relink = cls.relink.recomment change := by
  unfold relink recomment
  dsimp only
  rw [List.map_map, List.map_map]
  congr 1
  exact List.map_congr_left fun member _ => Member.recomment_inClass cls.name member

theorem Model.recomment_relink (model : Model) : (model.recomment change).relink = model.relink.recomment change := by
  unfold relink recomment
  rw [List.map_map, List.map_map]
  exact congrArg Model.mk (List.map_congr_left fun cls _ => ApiClass.recomment_relink cls)

/-! ## Expanding options -/

namespace ApiType

@[simp] theorem isLiteral_recomment (type : ApiType) : (type.recomment change).isLiteral = type.isLiteral := by
  rw [isLiteral, isLiteral, recomment_name]

@[simp] theorem isMixedUnion_recomment (type : ApiType) :
    (type.recomment change).isMixedUnion = type.isMixedUnion := by
  unfold isMixedUnion isNullable
  rw [recomment_union]
  cases type.union with
  | none => rfl
  | some union => simp [List.filter_map, Function.comp_def]

end ApiType

namespace Member

theorem alternatives?_recomment (option : Member) :
    (option.recomment change).alternatives? = option.alternatives?.map (·.map (ApiType.recomment change)) := by
  unfold alternatives?
  rw [recomment_type]
  cases option.type with
  | none => rfl
  | some type =>
    simp only [Option.map_some, ApiType.isMixedUnion_recomment, ApiType.recomment_union]
    split
    · cases type.union with
      | none => rfl
      | some union => simp [List.filter_map, Function.comp_def]
    · rfl

theorem overload_recomment (option : Member) (alternative : ApiType) (suffix : String) :
    (option.recomment change).overload (alternative.recomment change) suffix =
      (option.overload alternative suffix).recomment change := by
  rw [recomment_eq, recomment_eq]
  rfl

theorem expandOption_recomment (style : OverloadStyle) (option : Member) :
    expandOption style (option.recomment change) =
      (expandOption style option).map (·.map (recomment change)) := by
  unfold expandOption
  rw [alternatives?_recomment, recomment_name, recomment_label]
  cases option.alternatives? with
  | none => rfl
  | some alternatives =>
    have hsuffixes : (alternatives.map (ApiType.recomment change)).mapM (overloadSuffix option.name) =
        alternatives.mapM (overloadSuffix option.name) := by
      rw [List.mapM_map]
      congr 1
      funext alternative
      show overloadSuffix option.name (alternative.recomment change) = overloadSuffix option.name alternative
      unfold overloadSuffix
      rw [ApiType.recomment_name]
    simp only [Option.map_some, hsuffixes]
    cases alternatives.mapM (overloadSuffix option.name) with
    | error fault => rfl
    | ok suffixes =>
      cases style with
      | joined =>
        show Except.ok [_] = Except.ok [_]
        rw [recomment_eq, recomment_eq]
      | separate =>
        show Except.ok _ = Except.ok _
        dsimp only
        rw [List.zipWith_map_left, List.map_zipWith]
        congr 2
        funext alternative suffix
        exact overload_recomment option alternative suffix

theorem expandOptions_recomment (style : OverloadStyle) (options : List Member) :
    expandOptions style (options.map (recomment change)) =
      (expandOptions style options).map (·.map (recomment change)) := by
  unfold expandOptions
  rw [mapM_map_eq (expandOption_recomment style)]
  cases options.mapM (expandOption style) with
  | error fault => rfl
  | ok groups => exact congrArg Except.ok List.map_flatten.symm

theorem firstOptions?_recomment (args : List Member) :
    firstOptions? (args.map (recomment change)) = (firstOptions? args).map (·.map (recomment change)) := by
  unfold firstOptions?
  rw [List.find?_map]
  simp only [Function.comp_def, recomment_name]
  cases args.find? (·.name = "options") with
  | none => rfl
  | some arg => cases htype : arg.type <;> simp [htype]

theorem withOptions_recomment (options args : List Member) :
    withOptions (options.map (recomment change)) (args.map (recomment change)) =
      (withOptions options args).map (recomment change) := by
  induction args with
  | nil => rfl
  | cons arg args ih =>
    rw [List.map_cons, withOptions, withOptions, recomment_name]
    split
    · rw [List.map_cons]
      congr 1
      rw [recomment_eq, recomment_eq]
      dsimp only
      congr 1
      cases arg.type with
      | none => rfl
      | some type =>
        simp only [Option.map_some]
        rw [ApiType.recomment_eq, ApiType.recomment_eq]
        rfl
    · rw [List.map_cons, ih]

theorem expandOverloads_recomment (style : OverloadStyle) (method : Member) :
    (method.recomment change).expandOverloads style = (method.expandOverloads style).map (recomment change) := by
  unfold expandOverloads
  rw [recomment_args, firstOptions?_recomment]
  cases firstOptions? method.args with
  | none => rfl
  | some options =>
    simp only [Option.map_some, expandOptions_recomment]
    cases expandOptions style options with
    | error fault => rfl
    | ok options' =>
      show Except.ok _ = Except.ok _
      rw [← recomment_relink, withOptions_recomment]
      congr 2
      rw [recomment_eq, recomment_eq]

/-! ## Models of languages -/

theorem inLang_recomment (lang : Lang) (style : OverloadStyle) (member : Member) :
    (member.recomment change).inLang lang style = (member.inLang lang style).map (recomment change) := by
  unfold inLang
  dsimp only
  rw [forLang_recomment, recomment_isMethod]
  split
  · exact expandOverloads_recomment style _
  · rfl

end Member

theorem ApiClass.inLang_recomment (lang : Lang) (style : OverloadStyle) (cls : ApiClass) :
    (cls.recomment change).inLang lang style = (cls.inLang lang style).map (recomment change) := by
  have hfilter : (cls.recomment change).members.filter (·.langs.includes lang) =
      (cls.members.filter (·.langs.includes lang)).map (Member.recomment change) := by
    rw [recomment, List.filter_map]
    simp only [Function.comp_def, Member.recomment_langs, LangRules.includes_recomment]
  unfold inLang
  rw [hfilter, mapM_map_eq (Member.inLang_recomment lang style)]
  cases (cls.members.filter (·.langs.includes lang)).mapM (Member.inLang lang style) with
  | error fault => rfl
  | ok members =>
    show Except.ok _ = Except.ok _
    rw [← recomment_relink]
    rfl

theorem Model.inLang_recomment (lang : Lang) (style : OverloadStyle) (model : Model) :
    (model.recomment change).inLang lang style = (model.inLang lang style).map (recomment change) := by
  have hfilter : (model.recomment change).classes.filter (·.langs.includes lang) =
      (model.classes.filter (·.langs.includes lang)).map (ApiClass.recomment change) := by
    rw [recomment, List.filter_map]
    rfl
  unfold inLang
  rw [hfilter, mapM_map_eq (ApiClass.inLang_recomment lang style)]
  cases (model.classes.filter (·.langs.includes lang)).mapM (ApiClass.inLang lang style) with
  | error fault => rfl
  | ok classes =>
    show Except.ok _ = Except.ok _
    rw [← recomment_relink]
    rfl

theorem Model.stable_recomment (model : Model) : (model.recomment change).stable = model.stable.recomment change := by
  unfold stable
  rw [← recomment_relink]
  unfold recomment
  rw [List.filter_map, List.map_map, List.map_map]
  congr 2
  refine List.map_congr_left fun cls _ => ?_
  have hmembers : stableMembers (cls.members.map (Member.recomment change)) =
      (stableMembers cls.members).map (Member.recomment change) := by
    rw [← recommentMembers_eq, stableMembers_recomment, recommentMembers_eq]
  show ApiClass.updateMembers stableMembers (cls.recomment change) = (cls.updateMembers stableMembers).recomment change
  rw [ApiClass.updateMembers, ApiClass.updateMembers, ← ApiClass.recomment_relink]
  unfold ApiClass.recomment
  dsimp only
  rw [hmembers]

end

end RefPages
