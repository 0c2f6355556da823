/-
Whether two types, members, classes or models are the same is decided by recursion on both of them,
so that what a language is left with can be computed and compared.
-/
import RefPages.Api.Basic

namespace RefPages

/-! ## Types and members -/

mutual

/-- Whether two types are the same. -/
def ApiType.same : ApiType → ApiType → Bool
  | ⟨name, properties, union, args, returns, templates, expression⟩,
    ⟨name', properties', union', args', returns', templates', expression'⟩ =>
    name == name' && sameProperties properties properties' && sameParts union union' && sameParts args args' &&
      sameType? returns returns' && sameParts templates templates' && expression == expression'
termination_by structural type => type

/-- Whether there are two types that are the same, or none on either side. -/
def sameType? : Option ApiType → Option ApiType → Bool
  | none, none => true
  | some type, some type' => type.same type'
  | _, _ => false
termination_by structural type => type

/-- Whether two lists of types are the same. -/
def sameTypes : List ApiType → List ApiType → Bool
  | [], [] => true
  | type :: types, type' :: types' => type.same type' && sameTypes types types'
  | _, _ => false
termination_by structural types => types

/-- Whether there are two lists of types that are the same, or none on either side. -/
def sameParts : Option (List ApiType) → Option (List ApiType) → Bool
  | none, none => true
  | some types, some types' => sameTypes types types'
  | _, _ => false
termination_by structural types => types

/-- Whether the types for each language are the same. -/
def sameTypeByLang : PerLang ApiType → PerLang ApiType → Bool
  | ⟨js, python, java, csharp⟩, ⟨js', python', java', csharp'⟩ =>
    sameType? js js' && sameType? python python' && sameType? java java' && sameType? csharp csharp'
termination_by structural types => types

/-- Whether two members are the same. -/
def Member.same : Member → Member → Bool
  | ⟨kind, name, label, overloadIndex, type, args, docs, required, isAsync, deprecated, experimental, since,
      langs, className, enclosingMethod, inheritedFrom, overloadOf⟩, other =>
    kind == other.kind && name == other.name && label == other.label && overloadIndex == other.overloadIndex &&
      sameType? type other.type && sameMembers args other.args && docs == other.docs &&
      required == other.required && isAsync == other.isAsync && deprecated == other.deprecated &&
      experimental == other.experimental && since == other.since && langs.same other.langs &&
      className == other.className && enclosingMethod == other.enclosingMethod &&
      inheritedFrom == other.inheritedFrom && overloadOf == other.overloadOf
termination_by structural member => member

/-- Whether there are two members that are the same, or none on either side. -/
def sameMember? : Option Member → Option Member → Bool
  | none, none => true
  | some member, some member' => member.same member'
  | _, _ => false
termination_by structural member => member

/-- Whether two lists of members are the same. -/
def sameMembers : List Member → List Member → Bool
  | [], [] => true
  | member :: members, member' :: members' => member.same member' && sameMembers members members'
  | _, _ => false
termination_by structural members => members

/-- Whether there are two lists of properties that are the same, or none on either side. -/
def sameProperties : Option (List Member) → Option (List Member) → Bool
  | none, none => true
  | some members, some members' => sameMembers members members'
  | _, _ => false
termination_by structural members => members

/-- Whether the members for each language are the same. -/
def sameMemberByLang : PerLang Member → PerLang Member → Bool
  | ⟨js, python, java, csharp⟩, ⟨js', python', java', csharp'⟩ =>
    sameMember? js js' && sameMember? python python' && sameMember? java java' && sameMember? csharp csharp'
termination_by structural members => members

/-- Whether the same holds in some languages only. -/
def LangRules.same : LangRules → LangRules → Bool
  | ⟨only, labels, types, overrides⟩, ⟨only', labels', types', overrides'⟩ =>
    only == only' && labels == labels' && sameTypeByLang types types' && sameMemberByLang overrides overrides'
termination_by structural rules => rules

end

mutual

theorem ApiType.same_iff : ∀ type type' : ApiType, type.same type' = true ↔ type = type'
  | ⟨_, properties, union, args, returns, templates, _⟩,
    ⟨_, properties', union', args', returns', templates', _⟩ => by
    simp only [ApiType.same, Bool.and_eq_true, beq_iff_eq, ApiType.mk.injEq,
      sameProperties_iff properties properties', sameParts_iff union union', sameParts_iff args args',
      sameType?_iff returns returns', sameParts_iff templates templates']
    constructor <;> intro h <;> simp only [h, and_self]
termination_by structural type => type

theorem sameType?_iff : ∀ type type' : Option ApiType, sameType? type type' = true ↔ type = type'
  | none, type' => by cases type' <;> simp [sameType?]
  | some type, none => by simp [sameType?]
  | some type, some type' => by simp [sameType?, type.same_iff type']
termination_by structural type => type

theorem sameTypes_iff : ∀ types types' : List ApiType, sameTypes types types' = true ↔ types = types'
  | [], types' => by cases types' <;> simp [sameTypes]
  | type :: types, [] => by simp [sameTypes]
  | type :: types, type' :: types' => by simp [sameTypes, type.same_iff type', sameTypes_iff types types']
termination_by structural types => types

theorem sameParts_iff : ∀ types types' : Option (List ApiType), sameParts types types' = true ↔ types = types'
  | none, types' => by cases types' <;> simp [sameParts]
  | some types, none => by simp [sameParts]
  | some types, some types' => by simp [sameParts, sameTypes_iff types types']
termination_by structural types => types

theorem sameTypeByLang_iff : ∀ types types' : PerLang ApiType, sameTypeByLang types types' = true ↔ types = types'
  | ⟨js, python, java, csharp⟩, ⟨js', python', java', csharp'⟩ => by
    simp [sameTypeByLang, and_assoc, sameType?_iff js js', sameType?_iff python python',
      sameType?_iff java java', sameType?_iff csharp csharp']
termination_by structural types => types

theorem Member.same_iff : ∀ member member' : Member, member.same member' = true ↔ member = member'
  | ⟨_, _, _, _, type, args, _, _, _, _, _, _, langs, _, _, _, _⟩,
    ⟨_, _, _, _, type', args', _, _, _, _, _, _, langs', _, _, _, _⟩ => by
    simp only [Member.same, Bool.and_eq_true, beq_iff_eq, Member.mk.injEq,
      sameType?_iff type type', sameMembers_iff args args', langs.same_iff langs']
    constructor <;> intro h <;> simp only [h, and_self]
termination_by structural member => member

theorem sameMember?_iff : ∀ member member' : Option Member, sameMember? member member' = true ↔ member = member'
  | none, member' => by cases member' <;> simp [sameMember?]
  | some member, none => by simp [sameMember?]
  | some member, some member' => by simp [sameMember?, member.same_iff member']
termination_by structural member => member

theorem sameMembers_iff : ∀ members members' : List Member, sameMembers members members' = true ↔ members = members'
  | [], members' => by cases members' <;> simp [sameMembers]
  | member :: members, [] => by simp [sameMembers]
  | member :: members, member' :: members' => by
    simp [sameMembers, member.same_iff member', sameMembers_iff members members']
termination_by structural members => members

theorem sameProperties_iff : ∀ members members' : Option (List Member),
    sameProperties members members' = true ↔ members = members'
  | none, members' => by cases members' <;> simp [sameProperties]
  | some members, none => by simp [sameProperties]
  | some members, some members' => by simp [sameProperties, sameMembers_iff members members']
termination_by structural members => members

theorem sameMemberByLang_iff : ∀ members members' : PerLang Member,
    sameMemberByLang members members' = true ↔ members = members'
  | ⟨js, python, java, csharp⟩, ⟨js', python', java', csharp'⟩ => by
    simp [sameMemberByLang, and_assoc, sameMember?_iff js js', sameMember?_iff python python',
      sameMember?_iff java java', sameMember?_iff csharp csharp']
termination_by structural members => members

theorem LangRules.same_iff : ∀ rules rules' : LangRules, rules.same rules' = true ↔ rules = rules'
  | ⟨_, _, types, overrides⟩, ⟨_, _, types', overrides'⟩ => by
    simp [LangRules.same, and_assoc, sameTypeByLang_iff types types', sameMemberByLang_iff overrides overrides']
termination_by structural rules => rules

end

instance : DecidableEq ApiType := fun type type' => decidable_of_iff (type.same type' = true) (type.same_iff type')

instance : DecidableEq Member := fun member member' =>
  decidable_of_iff (member.same member' = true) (member.same_iff member')

instance : DecidableEq LangRules := fun rules rules' =>
  decidable_of_iff (rules.same rules' = true) (rules.same_iff rules')

/-! ## Classes and models -/

deriving instance DecidableEq for ApiClass, Model

end RefPages
