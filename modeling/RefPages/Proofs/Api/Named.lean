/-
How the types of an expression are named. The checks look at expressions and not at types: they see the
quotes of a literal before brackets are taken off it, and they never see the name of an enum. What they
do not see is all that can go wrong.
-/
import RefPages.Api.Equality
import RefPages.Proofs.Api.Carries

namespace RefPages

open Relation Text TypeExpr

/-! ## What a type is made from -/

namespace TypeExpr

/-- The parts of an expression that its type is made from, as a whole or, when `alone`, without the
alternatives that they link to. -/
inductive Taken (expr : TypeExpr) : Bool → TypeExpr → Prop
  | whole : Taken expr false expr
  | first {part : TypeExpr} (h : Taken expr false part) : Taken expr true part
  /-- An enum among the alternatives is a union in itself. -/
  | alternative {part other : TypeExpr} (h : Taken expr true part) (hunion : part.union = some other) :
    Taken expr other.unionName.isNone other
  | argument {part first entry : TypeExpr} (h : Taken expr true part) (hargs : part.args = some first)
      (hentry : entry ∈ first.entries) (hname : entry.name ≠ "") : Taken expr false entry
  | result {part result : TypeExpr} (h : Taken expr true part) (hreturns : part.returns = some result) :
    Taken expr false result
  | parameter {part first entry : TypeExpr} (h : Taken expr true part) (hargs : part.args = none)
      (hreturns : part.returns = none) (htemplate : part.template = some first) (hentry : entry ∈ first.entries) :
    Taken expr false entry

theorem Formed.taken {expr part : TypeExpr} {alone : Bool} (h : Formed expr) (hpart : Taken expr alone part) :
    Formed part := by
  induction hpart with
  | whole => exact h
  | first _ ih => exact ih
  | alternative _ hunion ih => exact ih.union hunion
  | argument _ hargs hentry _ ih => exact (ih.args hargs).entry hentry
  | result _ hreturns ih => exact ih.returns hreturns
  | parameter _ _ _ htemplate hentry ih => exact (ih.template htemplate).entry hentry

/-- The name of the type of an expression without the alternatives that it links to. -/
def typeName (expr : TypeExpr) : String :=
  if expr.args.isSome || expr.returns.isSome then "function" else ApiType.withoutBrackets expr.name

/-- The names of the types of an alternative and those behind it. -/
def typeNames : TypeExpr → List String
  | ⟨name, args, returns, template, union, next, unionName⟩ =>
    match unionName with
    | some enum => [ApiType.withoutBrackets enum]
    | none =>
      typeName ⟨name, args, returns, template, union, next, none⟩ ::
        match union with
        | some other => other.typeNames
        | none => []

theorem typeNames_of_enum {expr : TypeExpr} {enum : String} (h : expr.unionName = some enum) :
    expr.typeNames = [ApiType.withoutBrackets enum] := by
  obtain ⟨name, args, returns, template, union, next, unionName⟩ := expr
  cases h
  rw [typeNames]

theorem typeNames_of_none {expr : TypeExpr} (h : expr.unionName = none) :
    expr.typeNames = expr.typeName :: match expr.union with
      | some other => other.typeNames
      | none => [] := by
  obtain ⟨name, args, returns, template, union, next, unionName⟩ := expr
  cases h
  cases union <;> rfl

/-- A union with a name is not called `number`, and one without has an alternative that is no literal. -/
structure WellNamed (expr : TypeExpr) : Prop where
  enum : ∀ other, expr.union = some other → ApiType.withoutBrackets (expr.unionName.getD "") = "" →
    ∃ name ∈ expr.typeName :: other.typeNames, isQuoted name = false
  number : ∀ enum, expr.unionName = some enum → ApiType.withoutBrackets enum ≠ "number"

end TypeExpr

namespace ApiType

/-- A union of literals has a name, and the name tells which kind of number is meant. -/
structure WellNamed (type : ApiType) : Prop where
  enum : type.isLiteralUnion = true → type.name ≠ ""
  number : type.name ≠ "number"

/-! ## Parts and types -/

section

variable {expr part : TypeExpr} {type inner : ApiType}

/-- The arguments and the result of a function, or else the parameters, are made from parts. -/
theorem made_of_headType (h : headType expr = .ok type) :
    (∀ first, expr.args = some first → ∀ entry ∈ first.entries, entry.name ≠ "" →
        ∃ inner, type.Nests inner ∧ ofExpr false entry = .ok inner) ∧
      (∀ result, expr.returns = some result → ∃ inner, type.Nests inner ∧ ofExpr false result = .ok inner) ∧
      (expr.args = none → expr.returns = none → ∀ first, expr.template = some first → ∀ entry ∈ first.entries,
        ∃ inner, type.Nests inner ∧ ofExpr false entry = .ok inner) := by
  unfold headType at h
  split at h
  · rename_i hfunction
    obtain ⟨args, hargs, h⟩ := bind_eq_ok.1 h
    obtain ⟨returns, hreturns, h⟩ := bind_eq_ok.1 h
    cases h
    refine ⟨fun first hfirst entry hentry hname => ?_, fun result hresult => ?_, fun hargs hreturns => ?_⟩
    · rw [hfirst, argumentsOf_some, mapM_eq_ok] at hargs
      have hmem : entry ∈ first.entries.filter (·.name ≠ "") := List.mem_filter.2 ⟨hentry, decide_eq_true hname⟩
      obtain ⟨inner, hinner, hmade⟩ := related_of_mem_left hargs hmem
      exact ⟨inner, .inl (.inr (.inl hinner)), hmade⟩
    · rw [hresult, ofExpr?] at hreturns
      obtain ⟨inner, hmade, rfl⟩ := map_eq_ok.1 hreturns
      exact ⟨inner, .inr rfl, hmade⟩
    · rw [hargs, hreturns] at hfunction
      cases hfunction
  · rename_i hplain
    simp only [Bool.or_eq_true, Option.isSome_iff_ne_none, ne_eq, not_or, not_not] at hplain
    rw [hplain.1, hplain.2]
    refine ⟨forall_none, forall_none, fun _ _ first hfirst entry hentry => ?_⟩
    rw [hfirst, Option.isSome_some, if_pos rfl] at h
    obtain ⟨bare, -, h⟩ := bind_eq_ok.1 h
    obtain ⟨templates, htemplates, h⟩ := bind_eq_ok.1 h
    cases h
    rw [entriesOf_some, mapM_eq_ok] at htemplates
    obtain ⟨inner, hinner, hmade⟩ := related_of_mem_left htemplates hentry
    exact ⟨inner, .inl (.inr (.inr hinner)), hmade⟩

/-- Every part is made into a type in the type of the expression, and so are the alternatives that are yet
to come. -/
theorem made_of_taken (h : ofExpr false expr = .ok type) {alone : Bool} (hpart : Taken expr alone part) :
    ∃ made, ofExpr alone part = .ok made ∧ ReflTransGen Nests type made ∧
      (alone = true → ∃ others, alternativesOf part.union = .ok others ∧
        ∀ other ∈ others, ReflTransGen Nests type other) := by
  induction hpart with
  | whole => exact ⟨type, h, .refl, nofun⟩
  | @first part _ ih =>
    obtain ⟨made, hmade, hpath, -⟩ := ih
    rw [ofExpr_true]
    cases hunion : part.union with
    | none =>
      rw [ofExpr_single hunion] at hmade
      exact ⟨made, hmade, hpath, fun _ => ⟨[], by rw [alternativesOf], List.forall_mem_nil _⟩⟩
    | some other =>
      obtain ⟨first, others, hfirst, hothers, -, rfl⟩ := (ofExpr_union hunion).1 hmade
      have hnested : ∀ alternative ∈ first :: others, ReflTransGen Nests type alternative := fun alternative hmem =>
        hpath.tail (.inl (.inl hmem))
      rw [List.forall_mem_cons] at hnested
      exact ⟨first, hfirst, hnested.1, fun _ => ⟨others, hothers, hnested.2⟩⟩
  | @alternative part other _ hunion ih =>
    obtain ⟨-, -, -, hothers⟩ := ih
    obtain ⟨types, htypes, hpaths⟩ := hothers rfl
    rw [hunion] at htypes
    rcases alternativesOf_some.1 htypes with ⟨henum, made, hmade, rfl⟩ | ⟨hnone, first, others, hfirst, hothers, rfl⟩
    · rw [← Option.not_isSome, henum]
      exact ⟨made, hmade, hpaths made List.mem_cons_self, nofun⟩
    · rw [List.forall_mem_cons] at hpaths
      rw [hnone, Option.isNone_none, ofExpr_true]
      exact ⟨first, hfirst, hpaths.1, fun _ => ⟨others, hothers, hpaths.2⟩⟩
  | argument _ hargs hentry hname ih =>
    obtain ⟨made, hmade, hpath, -⟩ := ih
    rw [ofExpr_true] at hmade
    obtain ⟨inner, hinner, hmade⟩ := (made_of_headType hmade).1 _ hargs _ hentry hname
    exact ⟨inner, hmade, hpath.tail hinner, nofun⟩
  | result _ hreturns ih =>
    obtain ⟨made, hmade, hpath, -⟩ := ih
    rw [ofExpr_true] at hmade
    obtain ⟨inner, hinner, hmade⟩ := (made_of_headType hmade).2.1 _ hreturns
    exact ⟨inner, hmade, hpath.tail hinner, nofun⟩
  | parameter _ hargs hreturns htemplate hentry ih =>
    obtain ⟨made, hmade, hpath, -⟩ := ih
    rw [ofExpr_true] at hmade
    obtain ⟨inner, hinner, hmade⟩ := (made_of_headType hmade).2.2 hargs hreturns _ htemplate _ hentry
    exact ⟨inner, hmade, hpath.tail hinner, nofun⟩

/-- The types in a type without alternatives are made from parts. -/
theorem taken_of_headType (hpart : Taken expr true part) (h : headType part = .ok type) (hinner : type.Nests inner) :
    ∃ entry, Taken expr false entry ∧ ofExpr false entry = .ok inner := by
  unfold headType at h
  split at h
  · obtain ⟨args, hargs, h⟩ := bind_eq_ok.1 h
    obtain ⟨returns, hreturns, h⟩ := bind_eq_ok.1 h
    cases h
    rcases hinner with (hinner | hinner | hinner) | hinner
    · cases hinner
    · cases hfirst : part.args with
      | none =>
        rw [hfirst, argumentsOf] at hargs
        cases hargs
        cases hinner
      | some first =>
        rw [hfirst, argumentsOf_some, mapM_eq_ok] at hargs
        obtain ⟨entry, hentry, hmade⟩ := related_of_mem_right hargs hinner
        obtain ⟨hentry, hname⟩ := List.mem_filter.1 hentry
        exact ⟨entry, hpart.argument hfirst hentry (of_decide_eq_true hname), hmade⟩
    · cases hinner
    · cases hinner
      cases hresult : part.returns with
      | none =>
        rw [hresult, ofExpr?] at hreturns
        cases hreturns
      | some result =>
        rw [hresult, ofExpr?] at hreturns
        obtain ⟨inner, hmade, hsame⟩ := map_eq_ok.1 hreturns
        cases hsame
        exact ⟨result, hpart.result hresult, hmade⟩
  · rename_i hplain
    simp only [Bool.or_eq_true, Option.isSome_iff_ne_none, ne_eq, not_or, not_not] at hplain
    have hbare : ∀ {name : String} {bare : ApiType}, named name = .ok bare → ¬bare.Nests inner := by
      intro name bare hnamed hinner
      rw [(named_eq_ok hnamed).1] at hinner
      rcases hinner with (hinner | hinner | hinner) | hinner <;> cases hinner
    split at h
    · rename_i hsome
      obtain ⟨first, hfirst⟩ := Option.isSome_iff_exists.1 hsome
      obtain ⟨bare, hnamed, h⟩ := bind_eq_ok.1 h
      obtain ⟨templates, htemplates, h⟩ := bind_eq_ok.1 h
      cases h
      rw [hfirst, entriesOf_some, mapM_eq_ok] at htemplates
      rcases hinner with (hinner | hinner | hinner) | hinner
      · exact absurd (.inl (.inl hinner)) (hbare hnamed)
      · exact absurd (.inl (.inr (.inl hinner))) (hbare hnamed)
      · obtain ⟨entry, hentry, hmade⟩ := related_of_mem_right htemplates hinner
        exact ⟨entry, hpart.parameter hplain.1 hplain.2 hfirst hentry, hmade⟩
      · exact absurd (.inr hinner) (hbare hnamed)
    · exact absurd hinner (hbare h)

/-- The alternatives of a union are made from parts. -/
theorem taken_of_alternatives {others : List ApiType} (hpart : Taken expr true part)
    (h : alternativesOf part.union = .ok others) (hinner : inner ∈ others) :
    ∃ alone other, Taken expr alone other ∧ ofExpr alone other = .ok inner := by
  induction part using alternatives_induction generalizing others with
  | last part hunion =>
    rw [hunion, alternativesOf] at h
    cases h
    cases hinner
  | more part other hunion ih =>
    have hother := hpart.alternative hunion
    rw [hunion] at h
    rcases alternativesOf_some.1 h with ⟨henum, type, htype, rfl⟩ | ⟨hnone, first, others, hfirst, hothers, rfl⟩
    · rw [← Option.not_isSome, henum] at hother
      rw [List.mem_singleton.1 hinner]
      exact ⟨false, other, hother, htype⟩
    · rw [hnone, Option.isNone_none] at hother
      rcases List.mem_cons.1 hinner with rfl | hinner
      · exact ⟨true, other, hother, (ofExpr_true other).trans hfirst⟩
      · exact ih hother hothers hinner

/-- Every type in the type of an expression is made from a part. -/
theorem taken_of_nests (h : ofExpr false expr = .ok type) (hpath : ReflTransGen Nests type inner) :
    ∃ alone part, Taken expr alone part ∧ ofExpr alone part = .ok inner := by
  induction hpath with
  | refl => exact ⟨false, expr, .whole, h⟩
  | @tail outer inner _ hinner ih =>
    obtain ⟨alone, part, hpart, hmade⟩ := ih
    have hentry : headType part = .ok outer → Taken expr true part →
        ∃ alone part, Taken expr alone part ∧ ofExpr alone part = .ok inner := fun hmade hpart =>
      ⟨false, taken_of_headType hpart hmade hinner⟩
    cases alone with
    | true => exact hentry ((ofExpr_true part).symm.trans hmade) hpart
    | false =>
      cases hunion : part.union with
      | none => exact hentry ((ofExpr_single hunion).symm.trans hmade) hpart.first
      | some other =>
        obtain ⟨first, others, hfirst, hothers, -, rfl⟩ := (ofExpr_union hunion).1 hmade
        rcases hinner with (hinner | hinner | hinner) | hinner
        · rcases List.mem_cons.1 hinner with rfl | hinner
          · exact ⟨true, part, hpart.first, (ofExpr_true part).trans hfirst⟩
          · exact taken_of_alternatives hpart.first (hunion ▸ hothers) hinner
        · cases hinner
        · cases hinner
        · cases hinner

end

/-! ## Names -/

section

variable {expr : TypeExpr} {type : ApiType}

/-- A type without alternatives is no union, and the name tells which kind of number is meant. -/
theorem name_of_headType (h : headType expr = .ok type) :
    type.name = expr.typeName ∧ type.union = none ∧ type.name ≠ "number" := by
  unfold headType at h
  unfold typeName
  split at h
  · rename_i hfunction
    obtain ⟨args, -, h⟩ := bind_eq_ok.1 h
    obtain ⟨returns, -, h⟩ := bind_eq_ok.1 h
    cases h
    have hnumber : "function" ≠ "number" := by decide
    rw [if_pos hfunction]
    exact ⟨rfl, rfl, hnumber⟩
  · rename_i hplain
    rw [if_neg hplain]
    split at h
    · obtain ⟨bare, hnamed, h⟩ := bind_eq_ok.1 h
      obtain ⟨templates, -, h⟩ := bind_eq_ok.1 h
      cases h
      obtain ⟨hbare, hnumber, hname⟩ := named_eq_ok hnamed
      exact ⟨hname, by rw [hbare]; rfl, hnumber⟩
    · obtain ⟨hbare, hnumber, hname⟩ := named_eq_ok h
      exact ⟨hname, by rw [hbare]; rfl, hnumber⟩

theorem wellNamed_of_headType (h : headType expr = .ok type) : type.WellNamed := by
  obtain ⟨-, hunion, hnumber⟩ := name_of_headType h
  refine ⟨fun henum => ?_, hnumber⟩
  rw [isLiteralUnion, hunion] at henum
  cases henum

/-- The name of a union is that of the enum, if it is one. -/
theorem name_of_enum {enum : String} (hformed : Formed expr) (henum : expr.unionName = some enum)
    (h : ofExpr false expr = .ok type) : type.name = withoutBrackets enum := by
  have hliterals := hformed.fits.enum (Option.isSome_iff_exists.2 ⟨enum, henum⟩)
  obtain ⟨other, hunion⟩ := Option.isSome_iff_exists.1 (Bool.and_eq_true_iff.1 hliterals).1
  obtain ⟨first, others, -, -, -, rfl⟩ := (ofExpr_union hunion).1 h
  rw [henum]
  rfl

theorem names_of_alternatives {types : List ApiType} (hformed : Formed expr)
    (h : alternativesOf (some expr) = .ok types) : types.map (·.name) = expr.typeNames := by
  induction expr using alternatives_induction generalizing types with
  | last expr hunion =>
    rcases alternativesOf_some.1 h with ⟨henum, type, htype, rfl⟩ | ⟨hnone, first, others, hfirst, hothers, rfl⟩
    · obtain ⟨enum, henum⟩ := Option.isSome_iff_exists.1 henum
      rw [typeNames_of_enum henum, List.map_singleton, name_of_enum hformed henum htype]
    · rw [hunion, alternativesOf] at hothers
      cases hothers
      rw [typeNames_of_none hnone, hunion, List.map_singleton, (name_of_headType hfirst).1]
  | more expr other hunion ih =>
    rcases alternativesOf_some.1 h with ⟨henum, type, htype, rfl⟩ | ⟨hnone, first, others, hfirst, hothers, rfl⟩
    · obtain ⟨enum, henum⟩ := Option.isSome_iff_exists.1 henum
      rw [typeNames_of_enum henum, List.map_singleton, name_of_enum hformed henum htype]
    · have hother := hformed.union hunion
      rw [hunion] at hothers
      rw [typeNames_of_none hnone, hunion, List.map_cons, (name_of_headType hfirst).1, ih hother hothers]

/-- Whether a type is well named shows in the expression. -/
theorem wellNamed_iff (hformed : Formed expr) (h : ofExpr false expr = .ok type) :
    type.WellNamed ↔ expr.WellNamed := by
  cases hunion : expr.union with
  | none =>
    have hnone : expr.unionName = none := by
      rw [← Option.not_isSome_iff_eq_none]
      intro henum
      have hliterals := hformed.fits.enum henum
      rw [TypeExpr.isLiteralUnion, hunion] at hliterals
      cases hliterals
    rw [ofExpr_single hunion] at h
    refine iff_of_true (wellNamed_of_headType h) ⟨?_, ?_⟩
    · rw [hunion]
      exact forall_none
    · rw [hnone]
      exact forall_none
  | some other =>
    obtain ⟨first, others, hfirst, hothers, -, rfl⟩ := (ofExpr_union hunion).1 h
    have hother := hformed.union hunion
    have hnames : (first :: others).map (·.name) = expr.typeName :: other.typeNames := by
      rw [List.map_cons, (name_of_headType hfirst).1, names_of_alternatives hother hothers]
    have hliterals :
        (ofAlternatives (withoutBrackets (expr.unionName.getD "")) (first :: others)).isLiteralUnion = false ↔
        ∃ name ∈ expr.typeName :: other.typeNames, isQuoted name = false := by
      have hall : (ofAlternatives (withoutBrackets (expr.unionName.getD "")) (first :: others)).isLiteralUnion =
          (first :: others).all isLiteral := rfl
      rw [← hnames, hall, List.all_eq_false]
      simp only [List.mem_map, exists_exists_and_eq_and, Bool.not_eq_true, isLiteral]
    have hnumber : withoutBrackets (expr.unionName.getD "") ≠ "number" ↔
        ∀ enum, expr.unionName = some enum → withoutBrackets enum ≠ "number" := by
      cases expr.unionName with
      | none => exact iff_of_true (by decide) forall_none
      | some enum => simp
    constructor
    · intro hnamed
      refine ⟨fun other' hother' hblank => ?_, hnumber.1 hnamed.number⟩
      cases hunion.symm.trans hother'
      exact hliterals.1 (Bool.eq_false_iff.2 fun hall => hnamed.enum hall hblank)
    · intro hnamed
      refine ⟨fun hall hblank => ?_, hnumber.2 hnamed.number⟩
      rw [hliterals.2 (hnamed.enum other hunion hblank)] at hall
      cases hall

/-- All types in the type of an expression are well named when every part of it that is taken as a whole
is. -/
theorem throughout_wellNamed_iff (hformed : Formed expr) (h : ofExpr false expr = .ok type) :
    Throughout WellNamed type ↔ ∀ part, Taken expr false part → part.WellNamed := by
  constructor
  · intro hall part hpart
    obtain ⟨made, hmade, hpath, -⟩ := made_of_taken h hpart
    exact (wellNamed_iff (hformed.taken hpart) hmade).1 (hall made hpath)
  · intro hall inner hpath
    obtain ⟨alone, part, hpart, hmade⟩ := taken_of_nests h hpath
    cases alone with
    | true => exact wellNamed_of_headType ((ofExpr_true part).symm.trans hmade)
    | false => exact (wellNamed_iff (hformed.taken hpart) hmade).2 (hall part hpart)

end

/-! ## Documented properties -/

section

variable {type : ApiType}

theorem wellNamed_attach (documented : List Member) : (type.attach documented).WellNamed ↔ type.WellNamed := by
  obtain ⟨name, properties, union, args, returns, templates, expression⟩ := type
  have hname : ∀ type : ApiType, (type.attach documented).isLiteral = type.isLiteral := by
    rintro ⟨name, properties, union, args, returns, templates, expression⟩
    rw [attach]
    rfl
  have hunion : (attach documented ⟨name, properties, union, args, returns, templates, expression⟩).isLiteralUnion =
      isLiteralUnion ⟨name, properties, union, args, returns, templates, expression⟩ := by
    rw [attach, isLiteralUnion, isLiteralUnion]
    cases union with
    | none => rfl
    | some types => simp [attachAll?, attachAll_eq, Function.comp_def, hname]
  constructor
  · rintro ⟨henum, hnumber⟩
    rw [hunion] at henum
    exact ⟨henum, hnumber⟩
  · rintro ⟨henum, hnumber⟩
    rw [← hunion] at henum
    exact ⟨henum, hnumber⟩

/-- What does not depend on documented properties holds throughout a type with them or without. -/
theorem throughout_attach {P : ApiType → Prop} {documented : List Member}
    (hP : ∀ type : ApiType, P (type.attach documented) ↔ P type) :
    Throughout P (type.attach documented) ↔ Throughout P type := by
  constructor
  · intro h inner hpath
    refine (hP inner).1 (h _ (hpath.lift (attach documented) fun outer inner hinner => ?_))
    exact nests_attach.2 ⟨inner, hinner, rfl⟩
  · intro h inner hpath
    obtain ⟨before, hbefore, rfl⟩ := path_attach hpath
    exact (hP before).2 (h before hbefore)

theorem throughout_wellNamed_expression (expression : Option String) :
    Throughout WellNamed { type with expression } ↔ Throughout WellNamed type := by
  have hhere : WellNamed { type with expression } ↔ WellNamed type :=
    ⟨fun h => ⟨h.enum, h.number⟩, fun h => ⟨h.enum, h.number⟩⟩
  exact throughout_iff.trans ((and_congr_left fun _ => hhere).trans throughout_iff.symm)

end

/-- A type that was read comes from the expression, with the documented properties if there are any. -/
theorem exists_of_parse {text : String} {documented : List Member} {type : ApiType}
    (h : parse text documented = .ok type) :
    ∃ made, ofExpr false (TypeExpr.read (TypeExpr.unescape text)) = .ok made ∧
      (type = { made with expression := some text } ∨
        type = { made.attach documented with expression := some text }) := by
  unfold parse at h
  split at h
  · cases h
  · cases h
  · cases h
  · rename_i made hmade
    refine ⟨made, hmade, ?_⟩
    split at h
    · cases h
      exact .inl rfl
    · split at h
      · cases h
        exact .inr rfl
      · cases h

/-! ## Types that are read -/

/-- What the checks ensure, and what they leave open: no part is a union of quoted literals without a name,
none is the mere name of a number, and the types are all well named exactly when no enum is called `number`
and none of the unions without a name turns out to be made of literals once brackets are taken off. -/
theorem parse_wellNamed_iff {text : String} {documented : List Member} {type : ApiType}
    (h : parse text documented = .ok type) :
    (∀ part, Taken (TypeExpr.read (TypeExpr.unescape text)) false part → part.unionName = none →
        part.isLiteralUnion = false) ∧
      (∀ part, Taken (TypeExpr.read (TypeExpr.unescape text)) true part → part.typeName ≠ "number") ∧
      (Throughout WellNamed type ↔
        ∀ part, Taken (TypeExpr.read (TypeExpr.unescape text)) false part → part.WellNamed) := by
  obtain ⟨made, hmade, htype⟩ := exists_of_parse h
  refine ⟨fun part hpart hnone => ?_, fun part hpart => ?_, ?_⟩
  · obtain ⟨inner, hinner, -⟩ := made_of_taken hmade hpart
    have hnamed := not_anonymous hinner
    rwa [hnone, Option.isNone_none, Bool.true_and] at hnamed
  · obtain ⟨inner, hinner, -⟩ := made_of_taken hmade hpart
    obtain ⟨hname, -, hnumber⟩ := name_of_headType ((ofExpr_true part).symm.trans hinner)
    rwa [hname] at hnumber
  · rw [← throughout_wellNamed_iff (formed_read _) hmade]
    rcases htype with rfl | rfl
    · exact throughout_wellNamed_expression _
    · exact (throughout_wellNamed_expression _).trans (throughout_attach fun _ => wellNamed_attach documented)

/-- An enum or null. -/
def colorOrNull : ApiType :=
  ofAlternatives "" [plain "null", ofAlternatives "Color" [plain "\"red\"", plain "\"blue\""]]

/-- An enum as an alternative: all is well named. -/
theorem parse_wellNamed_iff_enum :
    parse "null|Color<\"red\"|\"blue\">" [] =
        .ok { colorOrNull with expression := some "null|Color<\"red\"|\"blue\">" } ∧
      ∀ part, Taken (TypeExpr.read (TypeExpr.unescape "null|Color<\"red\"|\"blue\">")) false part → part.WellNamed := by
  have hread : parse "null|Color<\"red\"|\"blue\">" [] =
      .ok { colorOrNull with expression := some "null|Color<\"red\"|\"blue\">" } := by decide +kernel
  have hplain : ∀ name, name ≠ "number" → Throughout WellNamed (plain name) := fun name hname =>
    throughout_of_parts ⟨fun henum => (by cases henum), hname⟩ (List.forall_mem_nil _) (List.forall_mem_nil _)
      (List.forall_mem_nil _) forall_none
  have hunion : ∀ name types, WellNamed (ofAlternatives name types) → (∀ type ∈ types, Throughout WellNamed type) →
      Throughout WellNamed (ofAlternatives name types) := fun name types hhere htypes =>
    throughout_of_parts hhere htypes (List.forall_mem_nil _) (List.forall_mem_nil _) forall_none
  have hcolor : Throughout WellNamed (ofAlternatives "Color" [plain "\"red\"", plain "\"blue\""]) :=
    hunion _ _ ⟨fun _ => by decide, by decide⟩ (by
      simp only [List.forall_mem_cons]
      exact ⟨hplain _ (by decide), hplain _ (by decide), List.forall_mem_nil _⟩)
  have hall : Throughout WellNamed colorOrNull :=
    hunion _ _ ⟨fun h => absurd h (by decide), by decide⟩ (by
      simp only [List.forall_mem_cons]
      exact ⟨hplain _ (by decide), hcolor, List.forall_mem_nil _⟩)
  exact ⟨hread, (parse_wellNamed_iff hread).2.2.1 ((throughout_wellNamed_expression _).2 hall)⟩

/-- A union of two literals. -/
def literalsAB (name : String) : ApiType := ofAlternatives name [plain "\"a\"", plain "\"b\""]

/-- What the checks let through: literals in brackets, an enum with an empty name, and an enum called
`number`. -/
theorem parse_misnamed :
    (∃ type, parse "[\"a\"]|[\"b\"]" [] = .ok type ∧ type.isLiteralUnion = true ∧ type.name = "") ∧
      (∃ type, parse "<\"a\"|\"b\">" [] = .ok type ∧ type.isLiteralUnion = true ∧ type.name = "") ∧
      ∃ type, parse "number<\"a\"|\"b\">" [] = .ok type ∧ type.name = "number" := by
  refine ⟨?_, ?_, ?_⟩
  · exact ⟨{ literalsAB "" with expression := some "[\"a\"]|[\"b\"]" }, by decide +kernel, by decide, rfl⟩
  · exact ⟨{ literalsAB "" with expression := some "<\"a\"|\"b\">" }, by decide +kernel, by decide, rfl⟩
  · exact ⟨{ literalsAB "number" with expression := some "number<\"a\"|\"b\">" }, by decide +kernel, rfl⟩

end ApiType

end RefPages
