/-
The types that expressions mean. Whatever the text, unions stand last in lists, and an alternative
before the last is no function with a result: reading cannot give anything else, the enums aside.
-/
import RefPages.Proofs.Api.Holds
import RefPages.Proofs.Api.TypeLists
import RefPages.Proofs.TypeExpr.Formed
import RefPages.Text.Letter

namespace RefPages

open Relation Text TypeExpr

/-! ## Parts of expressions -/

namespace TypeExpr

/-- The expressions that the type of an expression is made from: its alternatives, its arguments and its
result or else its parameters. -/
inductive Part (expr : TypeExpr) : TypeExpr → Prop
  | alternative {other : TypeExpr} (h : expr.union = some other) : Part expr other
  | argument {first entry : TypeExpr} (h : expr.args = some first) (hentry : entry ∈ first.entries)
      (hname : entry.name ≠ "") : Part expr entry
  | result {result : TypeExpr} (h : expr.returns = some result) : Part expr result
  | parameter {first entry : TypeExpr} (hargs : expr.args = none) (hreturns : expr.returns = none)
      (h : expr.template = some first) (hentry : entry ∈ first.entries) : Part expr entry

/-- No literal of an enum in the expression has an argument list. -/
def PlainEnums (expr : TypeExpr) : Prop :=
  ∀ part, ReflTransGen Part expr part → part.unionName.isSome → ∀ literal ∈ part.alternatives, literal.args = none

theorem plainEnums_iff {expr : TypeExpr} :
    PlainEnums expr ↔
      (expr.unionName.isSome → ∀ literal ∈ expr.alternatives, literal.args = none) ∧
        ∀ part, Part expr part → PlainEnums part := by
  refine ⟨fun h => ⟨h expr .refl, fun part hpart inner hinner => h inner (.head hpart hinner)⟩,
    fun ⟨hhere, hparts⟩ part hpath => ?_⟩
  rcases hpath.cases_head with rfl | ⟨next, hnext, hpath⟩
  · exact hhere
  · exact hparts next hnext part hpath

theorem plainEnums_of_parts {expr : TypeExpr} (hhere : expr.unionName = none)
    (hunion : ∀ other ∈ expr.union, PlainEnums other)
    (hargs : ∀ first ∈ expr.args, ∀ entry ∈ first.entries, PlainEnums entry)
    (hreturns : ∀ result ∈ expr.returns, PlainEnums result)
    (htemplate : ∀ first ∈ expr.template, ∀ entry ∈ first.entries, PlainEnums entry) : PlainEnums expr := by
  refine plainEnums_iff.2 ⟨fun h => ?_, fun part hpart => ?_⟩
  · rw [hhere] at h
    cases h
  · cases hpart with
    | alternative h => exact hunion part h
    | argument h hentry => exact hargs _ h part hentry
    | result h => exact hreturns part h
    | parameter _ _ h hentry => exact htemplate _ h part hentry

theorem PlainEnums.part {expr part : TypeExpr} (h : PlainEnums expr) (hpart : Part expr part) : PlainEnums part :=
  (plainEnums_iff.1 h).2 part hpart

theorem alternatives_eq (expr : TypeExpr) :
    expr.alternatives = expr :: match expr.union with
      | some other => other.alternatives
      | none => [] := by
  cases expr with
  | mk name args returns template union next unionName => cases union <;> rfl

theorem sizeOf_parts (expr : TypeExpr) :
    (∀ other, expr.args = some other → sizeOf other < sizeOf expr) ∧
      (∀ other, expr.returns = some other → sizeOf other < sizeOf expr) ∧
      (∀ other, expr.template = some other → sizeOf other < sizeOf expr) ∧
      (∀ other, expr.union = some other → sizeOf other < sizeOf expr) ∧
      ∀ other, expr.next = some other → sizeOf other < sizeOf expr := by
  obtain ⟨name, args, returns, template, union, next, unionName⟩ := expr
  refine ⟨?_, ?_, ?_, ?_, ?_⟩ <;>
  · rintro other ⟨⟩
    simp only [mk.sizeOf_spec, Option.some.sizeOf_spec]
    omega

/-- An induction over the entries of a list. -/
theorem entries_induction {P : TypeExpr → Prop} (last : ∀ expr, expr.next = none → P expr)
    (more : ∀ expr other, expr.next = some other → P other → P expr) : ∀ expr, P expr
  | ⟨_, _, _, _, _, none, _⟩ => last _ rfl
  | ⟨_, _, _, _, _, some other, _⟩ => more _ other rfl (entries_induction last more other)

/-- An induction over the alternatives of a union. -/
theorem alternatives_induction {P : TypeExpr → Prop} (last : ∀ expr, expr.union = none → P expr)
    (more : ∀ expr other, expr.union = some other → P other → P expr) : ∀ expr, P expr
  | ⟨_, _, _, _, none, _, _⟩ => last _ rfl
  | ⟨_, _, _, _, some other, _, _⟩ => more _ other rfl (alternatives_induction last more other)

theorem sizeOf_entry {expr entry : TypeExpr} (h : entry ∈ expr.entries) : sizeOf entry ≤ sizeOf expr := by
  induction expr using entries_induction with
  | last expr hnext =>
    rw [entries_eq, hnext, List.mem_singleton] at h
    rw [h]
  | more expr other hnext ih =>
    rw [entries_eq, hnext] at h
    rcases List.mem_cons.1 h with rfl | h
    · exact Nat.le_refl _
    · exact Nat.le_trans (ih h) (Nat.le_of_lt ((sizeOf_parts expr).2.2.2.2 other hnext))

theorem Formed.entry {expr entry : TypeExpr} (h : Formed expr) (hentry : entry ∈ expr.entries) : Formed entry := by
  induction expr using entries_induction with
  | last expr hnext =>
    rw [entries_eq, hnext, List.mem_singleton] at hentry
    rwa [hentry]
  | more expr other hnext ih =>
    rw [entries_eq, hnext] at hentry
    rcases List.mem_cons.1 hentry with rfl | hentry
    · exact h
    · exact ih (h.next hnext) hentry

/-- An entry before the last leads to the one after it. -/
theorem next_of_mem_dropLast {expr entry : TypeExpr} (hentry : entry ∈ expr.entries.dropLast) :
    entry.next.isSome := by
  induction expr using entries_induction with
  | last expr hnext =>
    rw [entries_eq, hnext] at hentry
    cases hentry
  | more expr other hnext ih =>
    have hne : other.entries ≠ [] := by
      rw [entries_eq]
      exact List.cons_ne_nil _ _
    rw [entries_eq, hnext] at hentry
    simp only [List.dropLast_cons_of_ne_nil hne] at hentry
    rcases List.mem_cons.1 hentry with rfl | hentry
    · rw [hnext]
      rfl
    · exact ih hentry

end TypeExpr

/-! ## Types that can be written down -/

/-- A character of a word: a letter, a digit, an underscore or a dot. -/
def isWordChar (c : Char) : Bool := isAlphanumeric c || c = '_' || c = '.'

/-- A non-empty text of word characters. -/
def IsWord (cs : List Char) : Prop := cs ≠ [] ∧ ∀ c ∈ cs, isWordChar c = true

instance (cs : List Char) : Decidable (IsWord cs) :=
  decidable_of_iff (cs ≠ [] ∧ cs.all isWordChar = true) (and_congr_right fun _ => List.all_eq_true)

namespace ApiType

/-- The name is a word that is the same in JavaScript. -/
def IsName (name : String) : Prop := IsWord name.toList ∧ name ∉ ["int", "float", "path"]

instance (name : String) : Decidable (IsName name) := inferInstanceAs (Decidable (_ ∧ _))

/-- The name is a word in double quotes. -/
def IsQuotedName (name : String) : Prop := ∃ word, IsWord word ∧ name.toList = '"' :: (word ++ ['"'])

/-- A type with a name that JavaScript can spell, or a union that is no enum. -/
structure Regular (type : ApiType) : Prop where
  name : type.union = none → IsName type.name ∨ IsQuotedName type.name
  /-- No union is made of literals only. -/
  mixed : ∀ union, type.union = some union → ∃ alternative ∈ union, alternative.isLiteral = false
  /-- A function has an argument, or it is a mere name. -/
  function : type.name = "function" →
    (∃ args, type.args = some args ∧ args ≠ []) ∨
      type.args = none ∧ type.returns = none ∧ type.templates = none

/-- A regular type that is no literal with parameters: a literal is written without them. -/
structure Writable (type : ApiType) : Prop extends Regular type where
  literal : type.isLiteral = true → type.templates = none

/-- The type and all types in it are such. -/
def Throughout (P : ApiType → Prop) (type : ApiType) : Prop := ∀ inner, ReflTransGen Nests type inner → P inner

section

variable {P : ApiType → Prop} {type inner : ApiType}

theorem Throughout.here (h : Throughout P type) : P type := h type .refl

theorem Throughout.nested (h : Throughout P type) (hinner : Nests type inner) : Throughout P inner :=
  fun deeper hdeeper => h deeper (.head hinner hdeeper)

theorem throughout_iff : Throughout P type ↔ P type ∧ ∀ inner, Nests type inner → Throughout P inner := by
  refine ⟨fun h => ⟨h.here, fun inner => h.nested⟩, fun ⟨hhere, hnested⟩ inner hpath => ?_⟩
  rcases hpath.cases_head with rfl | ⟨next, hnext, hpath⟩
  · exact hhere
  · exact hnested next hnext inner hpath

theorem Throughout.mono {Q : ApiType → Prop} (hPQ : ∀ type, P type → Q type) (h : Throughout P type) :
    Throughout Q type := fun inner hinner => hPQ inner (h inner hinner)

theorem throughout_of_parts (hhere : P type) (hunion : ∀ inner ∈ type.union.getD [], Throughout P inner)
    (hargs : ∀ inner ∈ type.args.getD [], Throughout P inner)
    (htemplates : ∀ inner ∈ type.templates.getD [], Throughout P inner)
    (hreturns : ∀ inner ∈ type.returns, Throughout P inner) : Throughout P type := by
  refine throughout_iff.2 ⟨hhere, ?_⟩
  rintro inner ((h | h | h) | h)
  · exact hunion inner h
  · exact hargs inner h
  · exact htemplates inner h
  · exact hreturns inner h

theorem throughout_plain {name : String} (h : IsName name ∨ IsQuotedName name) : Throughout Writable (plain name) :=
  throughout_of_parts ⟨⟨fun _ => h, forall_none, fun _ => .inr ⟨rfl, rfl, rfl⟩⟩, fun _ => rfl⟩ (List.forall_mem_nil _)
    (List.forall_mem_nil _) (List.forall_mem_nil _) forall_none

/-- The expression that a type was read from does not matter. -/
theorem Throughout.bare (h : Throughout Writable type) : Throughout Writable type.bare :=
  throughout_iff.2 ⟨⟨⟨h.here.name, h.here.mixed, h.here.function⟩, h.here.literal⟩, fun _ hinner => h.nested hinner⟩

end

/-- What follows the type in a list is read as the next entry: it is no union, and neither is its
result. -/
def Closed : ApiType → Prop
  | { union, returns, .. } =>
    union = none ∧
      match returns with
      | some result => result.Closed
      | none => True

theorem closed_iff {type : ApiType} :
    type.Closed ↔ type.union = none ∧ ∀ result, type.returns = some result → result.Closed := by
  obtain ⟨name, properties, union, args, returns, templates, expression⟩ := type
  cases returns with
  | none => simp [Closed]
  | some result => simp [Closed]

/-- The type that a name means. An object begins without properties. -/
def ofName (name : String) : ApiType := { plain name with properties := if name = "Object" then some [] else none }

/-- The types that expressions mean, as far as JavaScript can spell them. -/
inductive Spelled : ApiType → Prop
  | name {name : String} (h : IsName name) (hnumber : name ≠ "number") : Spelled (ofName name)
  | literal {name : String} (h : IsQuotedName name) : Spelled (plain name)
  | parameters {name : String} {types : List ApiType} (h : IsName name) (hnumber : name ≠ "number")
      (hfunction : name ≠ "function") (hne : types ≠ []) (htypes : ∀ type ∈ types, Spelled type)
      (hclosed : ∀ type ∈ types.dropLast, Closed type) : Spelled { ofName name with templates := some types }
  | function {types : List ApiType} {returns : Option ApiType} (hne : types ≠ [])
      (htypes : ∀ type ∈ types, Spelled type) (hclosed : ∀ type ∈ types.dropLast, Closed type)
      (hreturns : ∀ result, returns = some result → Spelled result) :
      Spelled { plain "function" with args := some types, returns }
  | union {first : ApiType} {others : List ApiType} (hne : others ≠ [])
      (htypes : ∀ type ∈ first :: others, Spelled type)
      (hlone : ∀ type ∈ first :: others, type.union = none)
      (hresult : ∀ type ∈ (first :: others).dropLast, type.returns = none)
      (hmixed : ∃ type ∈ first :: others, type.isLiteral = false) :
      Spelled (ofAlternatives "" (first :: others))

/-! ## Literals and names -/

theorem isQuoted_iff {name : String} : isQuoted name = true ↔ ∃ word, name.toList = '"' :: (word ++ ['"']) := by
  unfold isQuoted
  constructor
  · intro h
    split at h
    · rename_i rest hname
      obtain ⟨word, rfl⟩ := List.getLast?_eq_some_iff.1 (of_decide_eq_true h)
      exact ⟨word, hname⟩
    · cases h
  · rintro ⟨word, hword⟩
    rw [hword]
    simp

/-- A name that does not begin and end with brackets is kept. -/
theorem withoutBrackets_of_quoted {name : String} (h : isQuoted name = true) : withoutBrackets name = name := by
  obtain ⟨word, hword⟩ := isQuoted_iff.1 h
  have htrim : trim name.toList = name.toList := by
    rw [hword]
    exact trim_between (by decide) (by decide) [] word
  have hafter : after? ['['] name.toList = none := by
    rw [hword]
    rfl
  have hbefore : before? [']'] name.toList = none := by
    rw [← Option.not_isSome_iff_eq_none, Option.isSome_iff_exists]
    rintro ⟨rest, hrest⟩
    rw [before?_eq_some_iff, hword, ← List.cons_append] at hrest
    exact absurd (List.append_inj' hrest rfl).2 (by decide)
  rw [withoutBrackets, htrim]
  simp only [hafter, Option.getD_none, hbefore, String.ofList_toList]

theorem named_eq_ok {name : String} {type : ApiType} (h : named name = .ok type) :
    type = ofName type.name ∧ type.name ≠ "number" ∧ type.name = withoutBrackets name := by
  unfold named at h
  dsimp only at h
  split at h
  · cases h
  · cases h
    exact ⟨rfl, ‹_›, rfl⟩

/-- A literal without arguments has the type of a literal. -/
theorem isLiteral_of_headType {expr : TypeExpr} {type : ApiType} (hfits : Fits expr) (hliteral : expr.isLiteral = true)
    (hargs : expr.args = none) (h : headType expr = .ok type) : type.isLiteral = true := by
  have hreturns : expr.returns = none := by
    rw [← Option.not_isSome_iff_eq_none]
    intro hsome
    have := hfits.result hsome
    rw [hargs] at this
    cases this
  have hname : ∀ {type}, named expr.name = .ok type → isQuoted type.name = true := by
    intro type htype
    rw [(named_eq_ok htype).2.2, withoutBrackets_of_quoted hliteral]
    exact hliteral
  rw [headType, hargs, hreturns] at h
  simp only [Option.isSome_none, Bool.or_self, Bool.false_eq_true, if_false] at h
  split at h
  · obtain ⟨type', htype, h⟩ := bind_eq_ok.1 h
    obtain ⟨templates, -, h⟩ := bind_eq_ok.1 h
    cases h
    have hquoted := hname htype
    exact hquoted
  · exact hname h

/-! ## Enums are made of literals -/

/-- The types of further alternatives: an enum is a union in itself, and the last. -/
theorem alternativesOf_some {expr : TypeExpr} {types : List ApiType} :
    alternativesOf (some expr) = .ok types ↔
      (expr.unionName.isSome = true ∧ ∃ type, ofExpr false expr = .ok type ∧ types = [type]) ∨
        expr.unionName = none ∧ ∃ first others, headType expr = .ok first ∧ alternativesOf expr.union = .ok others ∧
          types = first :: others := by
  obtain ⟨name, args, returns, template, union, next, unionName⟩ := expr
  rw [← ofExpr_true, alternativesOf]
  cases unionName with
  | none =>
    simp only [Option.isSome_none, Bool.false_eq_true, if_false, false_and, false_or, true_and, bind_eq_ok]
    constructor
    · rintro ⟨first, hfirst, others, hothers, h⟩
      cases h
      exact ⟨first, others, hfirst, hothers, rfl⟩
    · rintro ⟨first, others, hfirst, hothers, rfl⟩
      exact ⟨first, hfirst, others, hothers, rfl⟩
  | some unionName =>
    simp only [Option.isSome_some, if_true, bind_eq_ok]
    constructor
    · rintro ⟨type, htype, h⟩
      cases h
      exact .inl ⟨trivial, type, htype, rfl⟩
    · rintro (⟨-, type, htype, rfl⟩ | ⟨h, -⟩)
      · exact ⟨type, htype, rfl⟩
      · cases h

theorem not_writable_literals {name : String} {types : List ApiType} (h : ∀ type ∈ types, type.isLiteral = true) :
    ¬Throughout Writable (ofAlternatives name types) := by
  intro hwritable
  obtain ⟨alternative, hmem, hnot⟩ := hwritable.here.mixed types rfl
  rw [h alternative hmem] at hnot
  cases hnot

/-- Alternatives that are literals without arguments are literals, and they hold no enum: that would be a
union of literals only. -/
theorem literals_of_alternatives {expr : TypeExpr} {types : List ApiType} (hformed : Formed expr)
    (hliterals : ∀ literal ∈ expr.alternatives, literal.isLiteral = true ∧ literal.args = none)
    (h : alternativesOf (some expr) = .ok types) (hwritable : ∀ type ∈ types, Throughout Writable type) :
    ∀ type ∈ types, type.isLiteral = true := by
  induction expr using alternatives_induction generalizing types with
  | last expr hunion =>
    rw [alternatives_eq, hunion, List.forall_mem_singleton] at hliterals
    rcases alternativesOf_some.1 h with ⟨henum, -⟩ | ⟨-, first, others, hfirst, hothers, rfl⟩
    · -- an enum has another alternative
      have hliteral := hformed.fits.enum henum
      rw [TypeExpr.isLiteralUnion, hunion] at hliteral
      cases hliteral
    · rw [hunion, alternativesOf] at hothers
      cases hothers
      rw [List.forall_mem_singleton]
      exact isLiteral_of_headType hformed.fits hliterals.1 hliterals.2 hfirst
  | more expr other hunion ih =>
    rw [alternatives_eq, hunion, List.forall_mem_cons] at hliterals
    have hother := hformed.union hunion
    rcases alternativesOf_some.1 h with ⟨-, type, htype, rfl⟩ | ⟨-, first, others, hfirst, hothers, rfl⟩
    · obtain ⟨first, others, hfirst, hothers, -, rfl⟩ := (ofExpr_union hunion).1 htype
      rw [List.forall_mem_singleton] at hwritable
      have hall := ih hother hliterals.2 hothers fun type htype =>
        hwritable.nested (.inl (.inl (List.mem_cons_of_mem first htype)))
      exact absurd hwritable (not_writable_literals
        (List.forall_mem_cons.2 ⟨isLiteral_of_headType hformed.fits hliterals.1.1 hliterals.1.2 hfirst, hall⟩))
    · rw [hunion] at hothers
      rw [List.forall_mem_cons] at hwritable ⊢
      exact ⟨isLiteral_of_headType hformed.fits hliterals.1.1 hliterals.1.2 hfirst,
        ih hother hliterals.2 hothers hwritable.2⟩

/-- A writable type comes from no enum. -/
theorem unionName_eq_none {expr : TypeExpr} {type : ApiType} (hformed : Formed expr) (henums : PlainEnums expr)
    (h : ofExpr false expr = .ok type) (hwritable : Throughout Writable type) : expr.unionName = none := by
  rw [← Option.not_isSome_iff_eq_none]
  intro henum
  have hunion := hformed.fits.enum henum
  rw [TypeExpr.isLiteralUnion, Bool.and_eq_true, List.all_eq_true] at hunion
  have hargs := henums expr .refl henum
  obtain ⟨other, hother⟩ := Option.isSome_iff_exists.1 hunion.1
  rw [alternatives_eq, hother, List.forall_mem_cons] at hargs
  simp only [alternatives_eq expr, hother, List.forall_mem_cons] at hunion
  have hformedOther := hformed.union hother
  obtain ⟨first, others, hfirst, hothers, -, rfl⟩ := (ofExpr_union hother).1 h
  have hall := literals_of_alternatives hformedOther
    (fun literal hliteral => ⟨hunion.2.2 literal hliteral, hargs.2 literal hliteral⟩) hothers fun type htype =>
      hwritable.nested (.inl (.inl (List.mem_cons_of_mem first htype)))
  exact not_writable_literals
    (List.forall_mem_cons.2 ⟨isLiteral_of_headType hformed.fits hunion.2.1 hargs.1 hfirst, hall⟩) hwritable

/-! ## Types of expressions are spelled -/

/-- What an expression gives as a whole, when the type can be spelled. -/
def Gives (expr : TypeExpr) : Prop :=
  ∀ type, ofExpr false expr = .ok type → Throughout Writable type → Spelled type ∧ (expr.Shut → type.Closed)

theorem spelled_of_forall₂ {entries : List TypeExpr} {types : List ApiType} (hformed : ∀ entry ∈ entries, Formed entry)
    (hgives : ∀ entry ∈ entries, Gives entry) (hnext : ∀ entry ∈ entries.dropLast, entry.next.isSome)
    (h : List.Forall₂ (fun entry type => ofExpr false entry = .ok type) entries types)
    (hwritable : ∀ type ∈ types, Throughout Writable type) :
    (∀ type ∈ types, Spelled type) ∧ ∀ type ∈ types.dropLast, Closed type := by
  induction h with
  | nil => exact ⟨List.forall_mem_nil _, List.forall_mem_nil _⟩
  | @cons entry type entries types hentry hrest ih =>
    rw [List.forall_mem_cons] at hformed hgives hwritable
    have hfirst := hgives.1 type hentry hwritable.1
    cases hrest with
    | nil => exact ⟨List.forall_mem_singleton.2 hfirst.1, List.forall_mem_nil _⟩
    | cons =>
      rw [List.dropLast_cons_of_ne_nil (List.cons_ne_nil _ _), List.forall_mem_cons] at hnext
      obtain ⟨hspelled, hclosed⟩ := ih hformed.2 hgives.2 hnext.2 hwritable.2
      rw [List.dropLast_cons_of_ne_nil (List.cons_ne_nil _ _)]
      exact ⟨List.forall_mem_cons.2 ⟨hfirst.1, hspelled⟩,
        List.forall_mem_cons.2 ⟨hfirst.2 (hformed.1.fits.shut hnext.1), hclosed⟩⟩

/-- The parameters of a type. -/
theorem spelled_entries {expr : TypeExpr} {types : List ApiType} (hformed : Formed expr)
    (hgives : ∀ entry ∈ expr.entries, Gives entry) (h : entriesOf (some expr) = .ok types)
    (hwritable : ∀ type ∈ types, Throughout Writable type) :
    types ≠ [] ∧ (∀ type ∈ types, Spelled type) ∧ ∀ type ∈ types.dropLast, Closed type := by
  rw [entriesOf_some, mapM_eq_ok] at h
  refine ⟨?_, spelled_of_forall₂ (fun entry => hformed.entry) hgives (fun entry => next_of_mem_dropLast) h hwritable⟩
  rintro rfl
  rw [List.forall₂_nil_right_iff, entries_eq] at h
  cases h

/-- The arguments of a function. -/
theorem spelled_arguments {expr : TypeExpr} {types : List ApiType} (hformed : Formed expr)
    (hgives : ∀ entry ∈ expr.entries, entry.name ≠ "" → Gives entry) (h : argumentsOf (some expr) = .ok types)
    (hwritable : ∀ type ∈ types, Throughout Writable type) :
    (∀ type ∈ types, Spelled type) ∧ ∀ type ∈ types.dropLast, Closed type := by
  rw [argumentsOf_some, mapM_eq_ok] at h
  have hsub : (expr.entries.filter (·.name ≠ "")).dropLast.Sublist expr.entries.dropLast := by
    have htail := (List.filter_sublist (p := fun entry : TypeExpr => decide (entry.name ≠ ""))
      (l := expr.entries)).reverse.tail
    rwa [List.tail_reverse, List.tail_reverse, List.reverse_sublist] at htail
  refine spelled_of_forall₂ (fun entry hentry => hformed.entry (List.mem_filter.1 hentry).1) (fun entry hentry => ?_)
    (fun entry hentry => next_of_mem_dropLast (hsub.subset hentry)) h hwritable
  obtain ⟨hmem, hname⟩ := List.mem_filter.1 hentry
  exact hgives entry hmem (of_decide_eq_true hname)

/-- What an expression gives without the alternatives that it links to. -/
structure GivesAlone (expr : TypeExpr) (type : ApiType) : Prop where
  spelled : Spelled type
  union : type.union = none
  returns : expr.returns = none → type.returns = none
  closed : (∀ result, expr.returns = some result → result.Shut) → type.Closed

theorem IsQuotedName.isQuoted {name : String} (h : IsQuotedName name) : isQuoted name = true := by
  obtain ⟨word, -, hword⟩ := h
  exact isQuoted_iff.2 ⟨word, hword⟩

theorem IsQuotedName.ofName_eq {name : String} (h : IsQuotedName name) : ofName name = plain name := by
  have hobject : name ≠ "Object" := by
    rintro rfl
    exact absurd h.isQuoted (by decide)
  rw [ofName, if_neg hobject]
  rfl

section

variable {expr : TypeExpr} {type : ApiType}

/-- What holds of the expressions that are smaller than one. -/
def BelowGives (expr : TypeExpr) : Prop :=
  ∀ part, sizeOf part < sizeOf expr → Formed part → PlainEnums part → Gives part

theorem givesAlone (hformed : Formed expr) (henums : PlainEnums expr) (hbelow : BelowGives expr)
    (h : headType expr = .ok type) (hwritable : Throughout Writable type) : GivesAlone expr type := by
  obtain ⟨hargs, hreturns, htemplate, -, -⟩ := sizeOf_parts expr
  unfold headType at h
  split at h
  · -- a function, which has an argument
    obtain ⟨args, hargsOf, h⟩ := bind_eq_ok.1 h
    obtain ⟨returns, hreturnsOf, h⟩ := bind_eq_ok.1 h
    cases h
    have hne : args ≠ [] := by
      rcases hwritable.here.function rfl with ⟨args', hsome, hne⟩ | ⟨hnone, -⟩
      · cases hsome
        exact hne
      · cases hnone
    have hspelledArgs : (∀ type ∈ args, Spelled type) ∧ ∀ type ∈ args.dropLast, Closed type := by
      cases hfirst : expr.args with
      | none =>
        rw [hfirst, argumentsOf] at hargsOf
        cases hargsOf
        exact absurd rfl hne
      | some first =>
        rw [hfirst] at hargsOf
        have hformedFirst := hformed.args hfirst
        refine spelled_arguments hformedFirst (fun entry hentry hname => ?_) hargsOf fun type htype =>
          hwritable.nested (.inl (.inr (.inl htype)))
        exact hbelow entry (Nat.lt_of_le_of_lt (sizeOf_entry hentry) (hargs first hfirst)) (hformedFirst.entry hentry)
          (henums.part (.argument hfirst hentry hname))
    have hresult : ∀ result, returns = some result →
        ∃ before, expr.returns = some before ∧ Spelled result ∧ (before.Shut → result.Closed) := by
      rintro result rfl
      cases hbefore : expr.returns with
      | none =>
        rw [hbefore, ofExpr?] at hreturnsOf
        cases hreturnsOf
      | some before =>
        rw [hbefore, ofExpr?] at hreturnsOf
        obtain ⟨result', hresult, hsame⟩ := map_eq_ok.1 hreturnsOf
        cases hsame
        exact ⟨before, rfl, hbelow before (hreturns before hbefore) (hformed.returns hbefore)
          (henums.part (.result hbefore)) result hresult (hwritable.nested (.inr rfl))⟩
    refine ⟨.function hne hspelledArgs.1 hspelledArgs.2 fun result hsome => ?_, rfl, fun hnone => ?_, fun hshut => ?_⟩
    · obtain ⟨-, -, hspelled, -⟩ := hresult result hsome
      exact hspelled
    · rw [hnone, ofExpr?] at hreturnsOf
      cases hreturnsOf
      rfl
    · refine closed_iff.2 ⟨rfl, fun result hsome => ?_⟩
      obtain ⟨before, hbefore, -, hclosed⟩ := hresult result hsome
      exact hclosed (hshut before hbefore)
  · rename_i hnone
    simp only [Bool.or_eq_true, Option.isSome_iff_ne_none, ne_eq, not_or, not_not] at hnone
    split at h
    · -- a name with parameters, which is neither a literal nor that of a function
      rename_i hsome
      obtain ⟨first, hfirst⟩ := Option.isSome_iff_exists.1 hsome
      obtain ⟨type', htype, h⟩ := bind_eq_ok.1 h
      obtain ⟨types, htypes, h⟩ := bind_eq_ok.1 h
      cases h
      obtain ⟨hname, hnumber, -⟩ := named_eq_ok htype
      rw [hname] at hwritable ⊢
      have hfunction : type'.name ≠ "function" := by
        intro hfunction
        rcases hwritable.here.function hfunction with ⟨args, hargs, -⟩ | ⟨-, -, htemplates⟩
        · cases hargs
        · cases htemplates
      have hword : IsName type'.name := by
        rcases hwritable.here.name rfl with hword | hquoted
        · exact hword
        · cases hwritable.here.literal hquoted.isQuoted
      rw [hfirst] at htypes
      have hformedFirst := hformed.template hfirst
      obtain ⟨hne, hspelled, hclosed⟩ := spelled_entries hformedFirst (fun entry hentry =>
        hbelow entry (Nat.lt_of_le_of_lt (sizeOf_entry hentry) (htemplate first hfirst)) (hformedFirst.entry hentry)
          (henums.part (.parameter hnone.1 hnone.2 hfirst hentry))) htypes fun type htype =>
        hwritable.nested (.inl (.inr (.inr htype)))
      exact ⟨.parameters hword hnumber hfunction hne hspelled hclosed, rfl, fun _ => rfl,
        fun _ => closed_iff.2 ⟨rfl, forall_none⟩⟩
    · obtain ⟨hname, hnumber, -⟩ := named_eq_ok h
      rw [hname] at hwritable ⊢
      refine ⟨?_, rfl, fun _ => rfl, fun _ => closed_iff.2 ⟨rfl, forall_none⟩⟩
      rcases hwritable.here.name rfl with hword | hquoted
      · exact .name hword hnumber
      · have hquoted' : IsQuotedName type.name := hquoted
        rw [hquoted'.ofName_eq]
        exact .literal hquoted'

/-- The further alternatives of a union: only the last can be a function with a result. -/
theorem spelled_alternatives {types : List ApiType} (hformed : Formed expr) (henums : PlainEnums expr)
    (hbelow : BelowGives expr) (h : alternativesOf (some expr) = .ok types)
    (hwritable : ∀ type ∈ types, Throughout Writable type) :
    types ≠ [] ∧ (∀ type ∈ types, Spelled type ∧ type.union = none) ∧ ∀ type ∈ types.dropLast, type.returns = none := by
  induction expr using alternatives_induction generalizing types with
  | last expr hunion =>
    rcases alternativesOf_some.1 h with ⟨henum, type, htype, rfl⟩ | ⟨-, first, others, hfirst, hothers, rfl⟩
    · rw [List.forall_mem_singleton] at hwritable
      rw [unionName_eq_none hformed henums htype hwritable] at henum
      cases henum
    · rw [hunion, alternativesOf] at hothers
      cases hothers
      rw [List.forall_mem_singleton] at hwritable
      have hgives := givesAlone hformed henums hbelow hfirst hwritable
      exact ⟨List.cons_ne_nil _ _, List.forall_mem_singleton.2 ⟨hgives.spelled, hgives.union⟩,
        List.forall_mem_nil _⟩
  | more expr other hunion ih =>
    rcases alternativesOf_some.1 h with ⟨henum, type, htype, rfl⟩ | ⟨hname, first, others, hfirst, hothers, rfl⟩
    · rw [List.forall_mem_singleton] at hwritable
      rw [unionName_eq_none hformed henums htype hwritable] at henum
      cases henum
    · rw [hunion] at hothers
      rw [List.forall_mem_cons] at hwritable
      have hgives := givesAlone hformed henums hbelow hfirst hwritable.1
      have hsize := (sizeOf_parts expr).2.2.2.1 other hunion
      have hreturns := (hformed.fits.lone hname (by rw [hunion]; rfl)).1
      have hother := hformed.union hunion
      obtain ⟨hne, hspelled, hresult⟩ := ih hother (henums.part (.alternative hunion))
        (fun part hpart => hbelow part (Nat.lt_trans hpart hsize)) hothers hwritable.2
      rw [List.dropLast_cons_of_ne_nil hne]
      exact ⟨List.cons_ne_nil _ _, List.forall_mem_cons.2 ⟨⟨hgives.spelled, hgives.union⟩, hspelled⟩,
        List.forall_mem_cons.2 ⟨hgives.returns hreturns, hresult⟩⟩

/-- The type of an expression, when JavaScript can spell it. -/
theorem gives (hformed : Formed expr) (henums : PlainEnums expr) : Gives expr := by
  induction hn : sizeOf expr using Nat.strong_induction_on generalizing expr with
  | h n ih =>
    have hbelow : BelowGives expr := fun part hpart hformed henums =>
      ih (sizeOf part) (hn ▸ hpart) hformed henums rfl
    intro type h hwritable
    cases hunion : expr.union with
    | none =>
      rw [ofExpr_single hunion] at h
      have hgives := givesAlone hformed henums hbelow h hwritable
      exact ⟨hgives.spelled, fun hshut => hgives.closed (shut_iff.1 hshut).2⟩
    | some other =>
      have hname := unionName_eq_none hformed henums h hwritable
      obtain ⟨first, others, hfirst, hothers, -, rfl⟩ := (ofExpr_union hunion).1 h
      have hmixed := hwritable.here.mixed _ rfl
      have hparts : ∀ type ∈ first :: others, Throughout Writable type := fun type htype =>
        hwritable.nested (.inl (.inl htype))
      rw [List.forall_mem_cons] at hparts
      have hgives := givesAlone hformed henums hbelow hfirst hparts.1
      have hreturns := (hformed.fits.lone hname (by rw [hunion]; rfl)).1
      have hother := hformed.union hunion
      obtain ⟨hne, hspelled, hresult⟩ := spelled_alternatives hother (henums.part (.alternative hunion))
        (fun part hpart => hbelow part (Nat.lt_trans hpart ((sizeOf_parts expr).2.2.2.1 other hunion))) hothers hparts.2
      have hblank : withoutBrackets (expr.unionName.getD "") = "" := by
        rw [hname]
        decide
      rw [hblank]
      refine ⟨.union hne (List.forall_mem_cons.2 ⟨hgives.spelled, fun type htype => (hspelled type htype).1⟩)
        (List.forall_mem_cons.2 ⟨hgives.union, fun type htype => (hspelled type htype).2⟩) ?_ hmixed, fun hshut => ?_⟩
      · rw [List.dropLast_cons_of_ne_nil hne]
        exact List.forall_mem_cons.2 ⟨hgives.returns hreturns, hresult⟩
      · rw [(shut_iff.1 hshut).1 hname] at hunion
        cases hunion

end

end ApiType

end RefPages
