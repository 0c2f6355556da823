/-
Lists of type expressions: what the reader makes of an expression that a comma follows. The comma
links the expression to the next entry only when nothing keeps it from there: an alternative behind
a bar, or text behind a parameter list, takes the rest of the list with it.
-/
import RefPages.Api.Type
import RefPages.Proofs.Fallible
import RefPages.Proofs.TypeExpr.Outline

namespace RefPages

open Text TypeExpr

/-! ## What the type of an expression depends on -/

namespace ApiType

theorem ofExpr_next (alone : Bool) (expr : TypeExpr) (next : Option TypeExpr) :
    ofExpr alone { expr with next } = ofExpr alone expr := by
  obtain ⟨name, args, returns, template, union, next', unionName⟩ := expr
  cases union with
  | none => simp [ofExpr, TypeExpr.isLiteralUnion]
  | some other => simp [ofExpr, TypeExpr.isLiteralUnion, TypeExpr.alternatives, TypeExpr.isLiteral]

/-- A function is known from its arguments and its result, whatever stands before them. -/
theorem ofExpr_function (name : String) (args : TypeExpr) (returns next : Option TypeExpr) :
    ofExpr false { TypeExpr.named name with args := some args, returns, next } = do
      let args ← argumentsOf (some args)
      let returns ← ofExpr? returns
      return { plain "function" with args, returns } := by
  simp [ofExpr, TypeExpr.named, TypeExpr.isLiteralUnion]

end ApiType

namespace TypeExpr

/-! ## Expressions that a list goes on after -/

/-- Whether the list goes on after an expression with this outline: there is no further alternative,
and nothing stands behind a parameter list. -/
def HandsOn (outline : List Char) : Prop := '|' ∉ outline ∧ '>' ∉ outline.dropLast

instance (outline : List Char) : Decidable (HandsOn outline) := inferInstanceAs (Decidable (_ ∧ _))

section

variable {cs out rest after : List Char}

theorem handsOn_cons {c : Char} (hbar : c ≠ '|') (hangle : c ≠ '>') : HandsOn (c :: out) ↔ HandsOn out := by
  cases out with
  | nil => simp [HandsOn, Ne.symm hbar]
  | cons d out => simp [HandsOn, Ne.symm hbar, Ne.symm hangle]

theorem not_handsOn_bar (out : List Char) : ¬HandsOn ('|' :: out) := fun h => h.1 List.mem_cons_self

theorem handsOn_parens : HandsOn ('(' :: ')' :: out) ↔ HandsOn out := by
  rw [handsOn_cons (by decide) (by decide), handsOn_cons (by decide) (by decide)]

theorem handsOn_angles : HandsOn ('<' :: '>' :: out) ↔ out = [] := by
  cases out with
  | nil => simp [HandsOn]
  | cons d out => simp [HandsOn]

theorem withTemplate_next (seen : List Char) (args : Option TypeExpr) (template : TypeExpr)
    (union next : Option TypeExpr) :
    withTemplate seen args template union next = { withTemplate seen args template union none with next } := by
  unfold withTemplate
  dsimp only
  split
  · rfl
  · rfl

theorem Outlined.head_eq {d : Char} (h : Outlined (d :: cs) out) : ∃ out', out = d :: out' := by
  cases h with
  | char _ _ => exact ⟨_, rfl⟩
  | angles _ _ => exact ⟨_, rfl⟩
  | parens _ _ => exact ⟨_, rfl⟩

theorem Outlined.list (h : Outlined cs out) (hrest : Outlined rest after) :
    Outlined (cs ++ ',' :: rest) (out ++ ',' :: after) :=
  h.append (.char (by decide) hrest)

/-- The entry that a comma behind an expression leads to. -/
theorem next_readFrom (h : Outlined cs out) (hsingle : ',' ∉ out) (hrest : Outlined rest after) (seen : List Char)
    (args : Option (List Char × TypeExpr)) :
    (readFrom seen args (cs ++ ',' :: rest)).next = if HandsOn out then some (readFrom [] none rest) else none := by
  induction h using Outlined.reader_induction generalizing seen args with
  | nil _ =>
    rw [List.nil_append, readFrom_link (.inr rfl), readLinks_comma, readFrom_trim hrest, if_pos (by decide)]
  | char c cs out _ _ hc ih =>
    have hchar : c ∉ ['<', '(', '|', ','] := by simp_all
    have hon : HandsOn (c :: out) ↔ HandsOn out := handsOn_cons (by simp_all) (by simp_all)
    rw [List.cons_append, readFrom_char hchar, ih (fun hmem => hsingle (List.mem_cons_of_mem c hmem))]
    simp only [hon]
  | link c cs out _ hc _ =>
    obtain rfl | rfl := hc
    · rw [List.cons_append, readFrom_link (.inl rfl), readLinks_bar, if_neg (not_handsOn_bar out)]
    · exact absurd List.mem_cons_self hsingle
  | angles inside within cs out _ hinside h =>
    rw [List.cons_append, List.append_assoc, List.cons_append, readFrom_angles hinside, withTemplate_next]
    simp only [handsOn_angles]
    cases cs with
    | nil =>
      cases h
      rw [List.nil_append, readLinks_comma, readFrom_trim hrest, if_pos rfl]
    | cons d cs =>
      -- what stands behind the parameters is no comma, so that it is taken for nothing
      obtain ⟨out', rfl⟩ := h.head_eq
      have hcomma : d ≠ ',' := by
        rintro rfl
        simp at hsingle
      rw [List.cons_append, if_neg (List.cons_ne_nil d out')]
      by_cases hbar : d = '|'
      · rw [hbar, readLinks_bar]
      · rw [readLinks_other hbar hcomma]
  | parensNil inside within _ hinside =>
    rw [List.cons_append, List.append_assoc, List.singleton_append, readFrom_parens_link hinside (.inr rfl),
      readLinks_comma, readFrom_trim hrest, if_pos (by decide)]
  | parensReturns inside within cs out h _ hinside ih =>
    have hout : ',' ∉ out := by simp_all
    rw [List.cons_append, List.append_assoc, List.cons_append, List.cons_append, readFrom_parens_returns hinside,
      readFrom_trim (h.list hrest), ih hout]
    have hon : HandsOn ('(' :: ')' :: ':' :: out) ↔ HandsOn out :=
      handsOn_parens.trans (handsOn_cons (by decide) (by decide))
    simp only [hon]
  | parensLink d inside within cs out _ hd hinside _ =>
    obtain rfl | rfl := hd
    · rw [List.cons_append, List.append_assoc, List.cons_append, List.cons_append,
        readFrom_parens_link hinside (.inl rfl), readLinks_bar, if_neg]
      exact mt handsOn_parens.1 (not_handsOn_bar out)
    · simp at hsingle
  | parensMore d inside within cs out _ _ hd hinside ih =>
    have hout : ',' ∉ out := by simp_all
    have hmore := ih hout (seen ++ '(' :: (inside ++ [')'])) (some (seen, readFrom [] none (trim inside)))
    rw [List.cons_append] at hmore
    rw [List.cons_append, List.append_assoc, List.cons_append, List.cons_append, readFrom_parens_more hinside hd, hmore]
    simp only [handsOn_parens]

/-- An expression that no comma follows leads to no entry. -/
theorem next_readFrom_alone (h : Outlined cs out) (hsingle : ',' ∉ out) (seen : List Char)
    (args : Option (List Char × TypeExpr)) : (readFrom seen args cs).next = none := by
  induction h using Outlined.reader_induction generalizing seen args with
  | nil _ => rw [readFrom_nil]; rfl
  | char c cs out _ _ hc ih =>
    rw [readFrom_char (by simp_all)]
    exact ih (fun hmem => hsingle (List.mem_cons_of_mem c hmem)) _ _
  | link c cs out _ hc _ =>
    obtain rfl | rfl := hc
    · rw [readFrom_link (.inl rfl), readLinks_bar]
    · exact absurd List.mem_cons_self hsingle
  | angles inside within cs out _ hinside h =>
    rw [readFrom_angles hinside, withTemplate_next]
    cases cs with
    | nil => rw [readLinks_nil]
    | cons d cs =>
      obtain ⟨out', rfl⟩ := h.head_eq
      have hcomma : d ≠ ',' := by
        rintro rfl
        simp at hsingle
      by_cases hbar : d = '|'
      · rw [hbar, readLinks_bar]
      · rw [readLinks_other hbar hcomma]
  | parensNil inside within _ hinside => rw [readFrom_parens_nil hinside]; rfl
  | parensReturns inside within cs out h _ hinside ih =>
    rw [readFrom_parens_returns hinside, readFrom_trim h]
    exact ih (by simp_all) [] none
  | parensLink d inside within cs out _ hd hinside _ =>
    obtain rfl | rfl := hd
    · rw [readFrom_parens_link hinside (.inl rfl), readLinks_bar]
    · simp at hsingle
  | parensMore d inside within cs out _ _ hd hinside ih =>
    rw [readFrom_parens_more hinside hd]
    exact ih (by simp_all) _ _

/-- The name that an expression is read with does not depend on what follows a comma behind it. -/
theorem name_readFrom (h : Outlined cs out) (seen rest rest' : List Char) (args : Option (List Char × TypeExpr)) :
    (readFrom seen args (cs ++ ',' :: rest)).name = (readFrom seen args (cs ++ ',' :: rest')).name := by
  induction h using Outlined.reader_induction generalizing seen args with
  | nil _ => rw [List.nil_append, List.nil_append, readFrom_link (.inr rfl), readFrom_link (.inr rfl)]
  | char c cs out _ _ hc ih =>
    have hchar : c ∉ ['<', '(', '|', ','] := by simp_all
    rw [List.cons_append, List.cons_append, readFrom_char hchar, readFrom_char hchar, ih]
  | link c cs out _ hc _ => rw [List.cons_append, List.cons_append, readFrom_link hc, readFrom_link hc]
  | angles inside within cs out _ hinside h =>
    simp only [List.cons_append, List.append_assoc, readFrom_angles hinside, withTemplate]
    split
    · rfl
    · rfl
  | parensNil inside within _ hinside =>
    simp only [List.cons_append, List.append_assoc, List.nil_append, readFrom_parens_link hinside (.inr rfl)]
  | parensReturns inside within cs out h _ hinside ih =>
    simp only [List.cons_append, List.append_assoc, readFrom_parens_returns hinside]
  | parensLink d inside within cs out _ hd hinside _ =>
    simp only [List.cons_append, List.append_assoc, readFrom_parens_link hinside hd]
  | parensMore d inside within cs out _ _ hd hinside ih =>
    simp only [List.cons_append] at ih
    simp only [List.cons_append, List.append_assoc, readFrom_parens_more hinside hd]
    exact ih _ _

/-- An expression that the list goes on after has the type that it has alone. -/
theorem ofExpr_readFrom (h : Outlined cs out) (hsingle : ',' ∉ out) (hon : HandsOn out)
    (hrest : Outlined rest after) (seen : List Char) (args : Option (List Char × TypeExpr)) :
    ApiType.ofExpr false (readFrom seen args (cs ++ ',' :: rest)) = ApiType.ofExpr false (readFrom seen args cs) := by
  induction h using Outlined.reader_induction generalizing seen args with
  | nil _ =>
    rw [List.nil_append, readFrom_link (.inr rfl), readLinks_comma, readFrom_nil]
    cases args with
    | none => exact ApiType.ofExpr_next false (TypeExpr.named _) _
    | some before =>
      exact (ApiType.ofExpr_function _ before.2 none _).trans (ApiType.ofExpr_function _ before.2 none none).symm
  | char c cs out _ _ hc ih =>
    have hchar : c ∉ ['<', '(', '|', ','] := by simp_all
    rw [handsOn_cons (by simp_all) (by simp_all)] at hon
    rw [List.cons_append, readFrom_char hchar, readFrom_char hchar]
    exact ih (fun hmem => hsingle (List.mem_cons_of_mem c hmem)) hon _ _
  | link c cs out _ hc _ =>
    obtain rfl | rfl := hc
    · exact absurd hon (not_handsOn_bar out)
    · exact absurd List.mem_cons_self hsingle
  | angles inside within cs out _ hinside h =>
    rw [handsOn_angles] at hon
    subst hon
    cases h
    rw [List.cons_append, List.append_assoc, List.singleton_append, readFrom_angles hinside, readFrom_angles hinside,
      readLinks_comma, readLinks_nil, withTemplate_next, ApiType.ofExpr_next]
  | parensNil inside within _ hinside =>
    rw [List.cons_append, List.append_assoc, List.singleton_append, readFrom_parens_link hinside (.inr rfl),
      readLinks_comma, readFrom_parens_nil hinside]
    exact ApiType.ofExpr_next false { TypeExpr.named _ with args := some _ } _
  | parensReturns inside within cs out h _ hinside ih =>
    rw [handsOn_parens, handsOn_cons (by decide) (by decide)] at hon
    have hreturns := ih (by simp_all) hon [] none
    rw [List.cons_append, List.append_assoc, List.cons_append, List.cons_append, readFrom_parens_returns hinside,
      readFrom_parens_returns hinside, readFrom_trim (h.list hrest), readFrom_trim h, ApiType.ofExpr_function,
      ApiType.ofExpr_function]
    simp only [ApiType.ofExpr?, ApiType.ofExpr_next, hreturns]
  | parensLink d inside within cs out _ hd hinside _ =>
    obtain rfl | rfl := hd
    · exact absurd (handsOn_parens.1 hon) (not_handsOn_bar out)
    · simp at hsingle
  | parensMore d inside within cs out _ _ hd hinside ih =>
    rw [handsOn_parens] at hon
    have hmore := ih (by simp_all) hon (seen ++ '(' :: (inside ++ [')'])) (some (seen, readFrom [] none (trim inside)))
    rw [List.cons_append] at hmore
    rw [List.cons_append, List.append_assoc, List.cons_append, List.cons_append, readFrom_parens_more hinside hd,
      readFrom_parens_more hinside hd, hmore]

end

/-! ## Lists of expressions -/

/-- What is left of a text when everything between brackets is left out. -/
def outline (cs : List Char) : List Char := (outlineFrom [] cs).getD []

/-- A text that can be one entry of a list: its brackets are nested, and no comma stands outside of
them. -/
structure IsEntry (cs : List Char) : Prop where
  nested : (outlineFrom [] cs).isSome = true
  single : ',' ∉ outline cs

theorem IsEntry.outlined {cs : List Char} (h : IsEntry cs) : Outlined cs (outline cs) := by
  obtain ⟨out, hout⟩ := Option.isSome_iff_exists.1 h.nested
  rw [outline, hout]
  exact Outlined.outlineFrom_eq_some.1 hout

/-! ### Written lists -/

/-- Texts written as a list. -/
def listed (texts : List (List Char)) : List Char := [',', ' '].intercalate texts

theorem listed_cons (cs : List Char) {texts : List (List Char)} (hne : texts ≠ []) :
    listed (cs :: texts) = cs ++ ',' :: ' ' :: listed texts := by
  rw [listed, List.intercalate_cons_of_ne_nil hne, List.append_assoc]
  rfl

theorem exists_outlined_listed {texts : List (List Char)} (h : ∀ cs ∈ texts, IsEntry cs) :
    ∃ out, Outlined (listed texts) out := by
  induction texts with
  | nil => exact ⟨[], .nil⟩
  | cons cs texts ih =>
    rw [List.forall_mem_cons] at h
    obtain ⟨out, hout⟩ := ih h.2
    by_cases hne : texts = []
    · subst hne
      exact ⟨outline cs, by rw [listed, List.intercalate_singleton]; exact h.1.outlined⟩
    · rw [listed_cons cs hne]
      exact ⟨_, h.1.outlined.list (.char (by decide) hout)⟩

theorem entries_eq (expr : TypeExpr) :
    expr.entries = expr :: match expr.next with
      | some other => other.entries
      | none => [] := by
  cases expr with
  | mk name args returns template union next unionName => cases next <;> rfl

section

variable {cs : List Char} {texts : List (List Char)}

theorem entries_listed_single (h : IsEntry cs) :
    (readFrom [] none (listed [cs])).entries = [readFrom [] none cs] := by
  have hnext : (readFrom [] none cs).next = none := next_readFrom_alone h.outlined h.single [] none
  rw [listed, List.intercalate_singleton, entries_eq, hnext]

/-- The entries of a longer list: the list ends with its first entry unless that hands it on. -/
theorem entries_listed_cons (h : IsEntry cs) (htexts : ∀ cs ∈ texts, IsEntry cs) (hne : texts ≠ []) :
    (readFrom [] none (listed (cs :: texts))).entries =
      readFrom [] none (cs ++ ',' :: ' ' :: listed texts) ::
        if HandsOn (outline cs) then (readFrom [] none (listed texts)).entries else [] := by
  obtain ⟨out, hout⟩ := exists_outlined_listed htexts
  have hblank : ∀ c ∈ [' '], isBlank c = true := List.forall_mem_singleton.2 (by decide)
  have hspaced : Outlined (' ' :: listed texts) (' ' :: out) := .char (by decide) hout
  have hrest : readFrom [] none (' ' :: listed texts) = readFrom [] none (listed texts) := by
    rw [← readFrom_trim hspaced, ← readFrom_trim hout, ← List.singleton_append, trim_append hblank]
  rw [listed_cons cs hne, entries_eq, next_readFrom h.outlined h.single hspaced, hrest]
  split
  · rename_i hhands
    split at hhands
    · cases hhands
      rw [if_pos ‹_›]
    · cases hhands
  · rename_i hhands
    split at hhands
    · cases hhands
    · rw [if_neg ‹_›]

/-- When every expression before the last hands the list on, there is an entry for each, with the
type that the expression has alone. -/
theorem ofExpr_entries (htexts : ∀ cs ∈ texts, IsEntry cs) (hne : texts ≠ [])
    (hon : ∀ cs ∈ texts.dropLast, HandsOn (outline cs)) :
    List.Forall₂ (fun entry cs => ApiType.ofExpr false entry = ApiType.ofExpr false (readFrom [] none cs))
      (readFrom [] none (listed texts)).entries texts := by
  induction texts with
  | nil => exact absurd rfl hne
  | cons cs texts ih =>
    rw [List.forall_mem_cons] at htexts
    by_cases hrest : texts = []
    · subst hrest
      rw [entries_listed_single htexts.1]
      exact .cons rfl .nil
    · rw [List.dropLast_cons_of_ne_nil hrest, List.forall_mem_cons] at hon
      obtain ⟨out, hout⟩ := exists_outlined_listed htexts.2
      rw [entries_listed_cons htexts.1 htexts.2 hrest, if_pos hon.1]
      refine .cons ?_ (ih htexts.2 hrest hon.2)
      exact ofExpr_readFrom htexts.1.outlined htexts.1.single hon.1 (.char (by decide) hout) [] none

/-- When an expression before the last does not hand the list on, entries are lost. -/
theorem length_entries_lt (htexts : ∀ cs ∈ texts, IsEntry cs) (hlost : ∃ cs ∈ texts.dropLast, ¬HandsOn (outline cs)) :
    (readFrom [] none (listed texts)).entries.length < texts.length := by
  induction texts with
  | nil =>
    obtain ⟨cs, hcs, -⟩ := hlost
    cases hcs
  | cons cs texts ih =>
    rw [List.forall_mem_cons] at htexts
    have hrest : texts ≠ [] := by
      rintro rfl
      obtain ⟨cs, hcs, -⟩ := hlost
      cases hcs
    rw [entries_listed_cons htexts.1 htexts.2 hrest, List.length_cons, List.length_cons, Nat.succ_lt_succ_iff]
    split
    · rename_i hon
      rw [List.dropLast_cons_of_ne_nil hrest] at hlost
      obtain ⟨lost, hmem, hnot⟩ := hlost
      rcases List.mem_cons.1 hmem with rfl | hmem
      · exact absurd hon hnot
      · exact ih htexts.2 ⟨lost, hmem, hnot⟩
    · exact List.length_pos_of_ne_nil hrest

/-- The names that the entries are read with. -/
theorem name_entries (htexts : ∀ cs ∈ texts, IsEntry cs) (hon : ∀ cs ∈ texts.dropLast, HandsOn (outline cs))
    (hne : texts ≠ []) :
    (∀ entry ∈ (readFrom [] none (listed texts)).entries, entry.name ≠ "") ↔
      (∀ cs ∈ texts.dropLast, (readFrom [] none (cs ++ [','])).name ≠ "") ∧
        ∀ cs ∈ texts.getLast?, (readFrom [] none cs).name ≠ "" := by
  induction texts with
  | nil => exact absurd rfl hne
  | cons cs texts ih =>
    rw [List.forall_mem_cons] at htexts
    by_cases hrest : texts = []
    · subst hrest
      rw [entries_listed_single htexts.1]
      simp
    · rw [List.dropLast_cons_of_ne_nil hrest, List.forall_mem_cons] at hon
      have hname := name_readFrom htexts.1.outlined [] (' ' :: listed texts) [] none
      obtain ⟨next, more, rfl⟩ := List.exists_cons_of_ne_nil hrest
      rw [entries_listed_cons htexts.1 htexts.2 hrest, if_pos hon.1, List.forall_mem_cons, ih htexts.2 hon.2 hrest,
        List.dropLast_cons_of_ne_nil hrest, List.forall_mem_cons, List.getLast?_cons_cons, hname, and_assoc]

end

end TypeExpr

end RefPages
