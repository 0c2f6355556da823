/-
The expressions that reading gives. The links of an expression are not independent of each other: what
follows a bar takes the rest of a list with it, and the result of a function hands the list on only when
nothing in it keeps the list.
-/
import RefPages.Proofs.TypeExpr.Entries

namespace RefPages.TypeExpr

open RefPages.Text

/-! ## Shapes -/

/-- What is said of a part that an expression does not have. -/
theorem forall_none {α : Type} {P : α → Prop} : ∀ part, (none : Option α) = some part → P part := nofun

/-- Nothing in the expression keeps what follows it: it is no union unless that is an enum, and so is
its result. -/
def Shut : TypeExpr → Prop
  | { returns, union, unionName, .. } =>
    (unionName = none → union = none) ∧
      match returns with
      | some result => result.Shut
      | none => True

/-- How the parts of an expression that was read go together. -/
structure Fits (expr : TypeExpr) : Prop where
  /-- A result follows an argument list. -/
  result : expr.returns.isSome → expr.args.isSome
  /-- A union that is no enum has no result and leads to no entry. -/
  lone : expr.unionName = none → expr.union.isSome → expr.returns = none ∧ expr.next = none
  /-- An enum is a union of literals. -/
  enum : expr.unionName.isSome → expr.isLiteralUnion = true
  /-- What leads to an entry keeps nothing. -/
  shut : expr.next.isSome → expr.Shut

/-- The expression and all expressions linked to it are put together in this way. -/
inductive Formed : TypeExpr → Prop
  | intro {expr : TypeExpr} (fits : Fits expr) (args : ∀ first, expr.args = some first → Formed first)
      (returns : ∀ result, expr.returns = some result → Formed result)
      (template : ∀ first, expr.template = some first → Formed first)
      (union : ∀ other, expr.union = some other → Formed other)
      (next : ∀ other, expr.next = some other → Formed other) : Formed expr

theorem Formed.fits {expr : TypeExpr} (h : Formed expr) : Fits expr := by
  cases h
  assumption

section

variable {expr other : TypeExpr}

theorem Formed.args (h : Formed expr) (hargs : expr.args = some other) : Formed other := by
  cases h with
  | intro _ args _ _ _ _ => exact args other hargs

theorem Formed.returns (h : Formed expr) (hreturns : expr.returns = some other) : Formed other := by
  cases h with
  | intro _ _ returns _ _ _ => exact returns other hreturns

theorem Formed.template (h : Formed expr) (htemplate : expr.template = some other) : Formed other := by
  cases h with
  | intro _ _ _ template _ _ => exact template other htemplate

theorem Formed.union (h : Formed expr) (hunion : expr.union = some other) : Formed other := by
  cases h with
  | intro _ _ _ _ union _ => exact union other hunion

theorem Formed.next (h : Formed expr) (hnext : expr.next = some other) : Formed other := by
  cases h with
  | intro _ _ _ _ _ next => exact next other hnext

end

theorem shut_iff {expr : TypeExpr} :
    expr.Shut ↔ (expr.unionName = none → expr.union = none) ∧ ∀ result, expr.returns = some result → result.Shut := by
  obtain ⟨name, args, returns, template, union, next, unionName⟩ := expr
  cases returns with
  | none => simp [Shut]
  | some result => simp [Shut]

theorem shut_next (expr : TypeExpr) (next : Option TypeExpr) : Shut { expr with next } ↔ Shut expr := by
  rw [shut_iff, shut_iff]

theorem isLiteralUnion_next (expr : TypeExpr) (unionName : Option String) (next : Option TypeExpr) :
    { expr with unionName, next }.isLiteralUnion = expr.isLiteralUnion := by
  obtain ⟨name, args, returns, template, union, next', unionName'⟩ := expr
  cases union <;> rfl

/-! ## Reading gives such expressions -/

section

variable {expr : TypeExpr}

/-- An expression without links to others. -/
theorem Formed.single {name : String} {args template next : Option TypeExpr}
    (hargs : ∀ first, args = some first → Formed first) (htemplate : ∀ first, template = some first → Formed first)
    (hnext : ∀ other, next = some other → Formed other) : Formed { named name with args, template, next } :=
  .intro ⟨fun h => (Bool.false_ne_true h).elim, fun _ h => (Bool.false_ne_true h).elim,
    fun h => (Bool.false_ne_true h).elim, fun _ => shut_iff.2 ⟨fun _ => rfl, forall_none⟩⟩ hargs
    forall_none htemplate forall_none hnext

/-- An expression that links to another alternative. -/
theorem Formed.alternative {name : String} {args template union : Option TypeExpr}
    (hargs : ∀ first, args = some first → Formed first) (htemplate : ∀ first, template = some first → Formed first)
    (hunion : ∀ other, union = some other → Formed other) : Formed { named name with args, template, union } :=
  .intro ⟨fun h => (Bool.false_ne_true h).elim, fun _ _ => ⟨rfl, rfl⟩, fun h => (Bool.false_ne_true h).elim,
    fun h => (Bool.false_ne_true h).elim⟩ hargs forall_none htemplate hunion forall_none

/-- A function hands the list on when its result does. -/
theorem Formed.function {name : String} {args result : TypeExpr} (hargs : Formed args) (hresult : Formed result) :
    Formed { named name with
      args := some args, returns := some { result with next := none }, next := result.next } := by
  cases hresult with
  | intro fits args' returns template union next =>
    have hwithout : Formed { result with next := none } := by
      refine .intro ⟨fits.result, fun hname hunion => ⟨(fits.lone hname hunion).1, rfl⟩, fun hname => ?_,
        fun h => (Bool.false_ne_true h).elim⟩ args' returns template union forall_none
      rw [isLiteralUnion_next]
      exact fits.enum hname
    refine .intro ⟨fun _ => rfl, fun _ h => (Bool.false_ne_true h).elim, fun h => (Bool.false_ne_true h).elim,
      fun hnext => shut_iff.2 ⟨fun _ => rfl, ?_⟩⟩ ?_ ?_ forall_none forall_none next
    · rintro result' ⟨⟩
      exact (shut_next result none).2 (fits.shut hnext)
    · rintro first ⟨⟩
      exact hargs
    · rintro result' ⟨⟩
      exact hwithout

theorem Formed.withTemplate {seen : List Char} {args union next : Option TypeExpr} {template : TypeExpr}
    (hargs : ∀ first, args = some first → Formed first) (htemplate : Formed template)
    (hunion : ∀ other, union = some other → Formed other) (hnext : ∀ other, next = some other → Formed other)
    (hlinks : union = none ∨ next = none) : Formed (withTemplate seen args template union next) := by
  unfold TypeExpr.withTemplate
  dsimp only
  split
  · -- literals alone: the enum keeps the alternatives, none of which is a function with a result
    rename_i henum
    rw [Bool.and_eq_true, Option.isNone_iff_eq_none] at henum
    cases htemplate with
    | intro fits args' returns' template' union' _ =>
      have hlone := fits.lone henum.1 (Bool.and_eq_true_iff.1 henum.2).1
      refine .intro ⟨fits.result, nofun, fun _ => ?_, fun _ => shut_iff.2 ⟨nofun, ?_⟩⟩ args'
        returns' template' union' hnext
      · rw [isLiteralUnion_next]
        exact henum.2
      · rintro result hresult
        rw [hlone.1] at hresult
        cases hresult
  · rcases hlinks with rfl | rfl
    · exact .single hargs (by rintro first ⟨⟩; exact htemplate) hnext
    · exact .alternative hargs (by rintro first ⟨⟩; exact htemplate) hunion

theorem readLinks_cases (rest : List Char) :
    readLinks rest = (none, none) ∨
      ∃ cs, cs.length < rest.length ∧ (readLinks rest = (some (readFrom [] none cs), none) ∨
        readLinks rest = (none, some (readFrom [] none cs))) := by
  cases rest with
  | nil => exact .inl readLinks_nil
  | cons c cs =>
    have hlength : (trim cs).length < (c :: cs).length := Nat.lt_succ_of_le (length_trim_le cs)
    by_cases hbar : c = '|'
    · exact .inr ⟨trim cs, hlength, .inl (hbar ▸ readLinks_bar cs)⟩
    by_cases hcomma : c = ','
    · exact .inr ⟨trim cs, hlength, .inr (hcomma ▸ readLinks_comma cs)⟩
    · exact .inl (readLinks_other hbar hcomma cs)

theorem formed_readFrom (seen rest : List Char) (args : Option (List Char × TypeExpr))
    (hargs : ∀ named, args = some named → Formed named.2) : Formed (readFrom seen args rest) := by
  induction hn : rest.length using Nat.strong_induction_on generalizing seen rest args with
  | h n ih =>
    have hinner : ∀ cs : List Char, cs.length < n → Formed (readFrom [] none cs) := fun cs hcs =>
      ih _ hcs [] cs none forall_none rfl
    have hlast : ∀ first, args.map (·.2) = some first → Formed first := by
      intro first hfirst
      obtain ⟨named, hnamed, rfl⟩ := Option.map_eq_some_iff.1 hfirst
      exact hargs named hnamed
    have hlinks : ∀ rest : List Char, rest.length ≤ n →
        (∀ other, (readLinks rest).1 = some other → Formed other) ∧
          (∀ other, (readLinks rest).2 = some other → Formed other) ∧
          ((readLinks rest).1 = none ∨ (readLinks rest).2 = none) := by
      intro rest hrest
      rcases readLinks_cases rest with h | ⟨cs, hcs, h | h⟩
      · rw [h]
        exact ⟨forall_none, forall_none, .inl rfl⟩
      · rw [h]
        refine ⟨?_, forall_none, .inr rfl⟩
        rintro other ⟨⟩
        exact hinner cs (Nat.lt_of_lt_of_le hcs hrest)
      · rw [h]
        refine ⟨forall_none, ?_, .inl rfl⟩
        rintro other ⟨⟩
        exact hinner cs (Nat.lt_of_lt_of_le hcs hrest)
    -- what is linked to without further text
    have hlinked : ∀ (name : String) (args : Option TypeExpr) (rest : List Char), rest.length ≤ n →
        (∀ first, args = some first → Formed first) →
        Formed { named name with args, union := (readLinks rest).1, next := (readLinks rest).2 } := by
      intro name args rest hrest hargs
      obtain ⟨hunion, hnext, hone⟩ := hlinks rest hrest
      rcases hone with hnone | hnone
      · rw [hnone]
        exact .single hargs forall_none hnext
      · rw [hnone]
        exact .alternative hargs forall_none hunion
    cases rest with
    | nil =>
      rw [readFrom_nil]
      exact .single hlast forall_none forall_none
    | cons c cs =>
      have hcs : cs.length < n := by
        rw [← hn]
        exact Nat.lt_succ_self _
      have hinside : ∀ opening closing, Formed (readFrom [] none (trim (bracketed opening closing cs).1)) :=
        fun opening closing => hinner _ (by
          have := length_trim_le (bracketed opening closing cs).1
          have := length_bracketed_le opening closing cs
          omega)
      rw [readFrom]
      split
      · have hrest : (bracketed '<' '>' cs).2.length ≤ n := by
          have := length_bracketed_le '<' '>' cs
          omega
        obtain ⟨hunion, hnext, hone⟩ := hlinks _ hrest
        exact .withTemplate hlast (hinside '<' '>') hunion hnext hone
      split
      · have hbracketed := length_bracketed_le '(' ')' cs
        dsimp only
        split
        · exact .single (by rintro first ⟨⟩; exact hinside '(' ')') forall_none forall_none
        · rename_i d more hmore
          rw [hmore, List.length_cons] at hbracketed
          split
          · have := length_trim_le more
            exact .function (hinside '(' ')') (hinner _ (by omega))
          split
          · exact hlinked _ _ _ (by rw [List.length_cons]; omega) (by rintro first ⟨⟩; exact hinside '(' ')')
          · refine ih (d :: more).length (by rw [List.length_cons]; omega) _ _ _ ?_ rfl
            rintro named ⟨⟩
            exact hinside '(' ')'
      split
      · exact hlinked _ _ _ (by rw [List.length_cons]; omega) hlast
      · exact ih cs.length hcs _ cs args hargs rfl

/-- Every text is read as such an expression. -/
theorem formed_read (text : String) : Formed (read text) := formed_readFrom _ _ _ forall_none

end

end RefPages.TypeExpr
