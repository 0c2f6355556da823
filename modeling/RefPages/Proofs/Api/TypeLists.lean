/-
The parameters of a type and the arguments of a function: which of the types written between the
brackets the model keeps.
-/
import Mathlib
import RefPages.Proofs.TypeExpr.Entries

namespace RefPages

open Text TypeExpr

/-! ## Lists in brackets -/

namespace TypeExpr

theorem unescapeChars_cons {c : Char} (hc : c ≠ '\\') (cs : List Char) :
    unescapeChars (c :: cs) = c :: unescapeChars cs := by
  cases cs with
  | nil => rfl
  | cons d cs => rw [unescapeChars, if_neg (fun h => hc h.1)]

/-- Texts are unescaped one by one unless a backslash meets a parenthesis. -/
theorem unescapeChars_append {d : Char} {cs : List Char} (h : cs.getLast? ≠ some '\\' ∨ d ∉ ['(', ')'])
    (ds : List Char) : unescapeChars (cs ++ d :: ds) = unescapeChars cs ++ unescapeChars (d :: ds) := by
  fun_induction unescapeChars cs with
  | case1 => rfl
  | case2 c =>
    have hescape : ¬(c = '\\' ∧ (d = '(' ∨ d = ')')) := by
      rintro ⟨rfl, hparen⟩
      rcases h with h | h
      · exact h rfl
      · exact h (by simpa using hparen)
    rw [List.singleton_append, unescapeChars, if_neg hescape, List.singleton_append]
  | case3 c e cs hescape ih =>
    have hrest : cs.getLast? ≠ some '\\' ∨ d ∉ ['(', ')'] := by
      refine h.imp_left fun hlast => ?_
      cases cs with
      | nil => simp
      | cons f cs => rwa [List.getLast?_cons_cons, List.getLast?_cons_cons] at hlast
    rw [List.cons_append, List.cons_append, unescapeChars, if_pos hescape, ih hrest, List.cons_append]
  | case4 c e cs hescape ih =>
    rw [List.cons_append, List.cons_append, unescapeChars, if_neg hescape, List.cons_append, ← List.cons_append, ih]
    rwa [List.getLast?_cons_cons] at h

theorem mem_of_mem_unescapeChars {c : Char} {cs : List Char} (h : c ∈ unescapeChars cs) : c ∈ cs := by
  fun_induction unescapeChars cs with
  | case1 => exact h
  | case2 d => exact h
  | case3 d e cs _ ih =>
    exact List.mem_cons_of_mem d
      ((List.mem_cons.1 h).elim (· ▸ List.mem_cons_self) fun h => List.mem_cons_of_mem e (ih h))
  | case4 d e cs _ ih => exact (List.mem_cons.1 h).elim (· ▸ List.mem_cons_self) fun h => List.mem_cons_of_mem d (ih h)

/-- Without backslashes there is nothing to unescape. -/
theorem unescapeChars_eq_self {cs : List Char} (h : '\\' ∉ cs) : unescapeChars cs = cs := by
  induction cs with
  | nil => rfl
  | cons c cs ih =>
    rw [List.mem_cons, not_or] at h
    rw [unescapeChars_cons (Ne.symm h.1), ih h.2]

theorem unescapeChars_listed {texts : List (List Char)} (hne : texts ≠ []) :
    unescapeChars (listed texts) = listed (texts.map unescapeChars) := by
  induction texts with
  | nil => exact absurd rfl hne
  | cons cs texts ih =>
    by_cases hrest : texts = []
    · subst hrest
      rw [List.map_singleton, listed, listed, List.intercalate_singleton, List.intercalate_singleton]
    · rw [List.map_cons, listed_cons cs hrest, listed_cons _ (mt List.map_eq_nil_iff.1 hrest),
        unescapeChars_append (.inr (by decide)), unescapeChars_cons (by decide), unescapeChars_cons (by decide),
        ih hrest]

end TypeExpr

namespace ApiType

/-! ## The types of a list -/

theorem entriesOf_some : ∀ expr : TypeExpr, entriesOf (some expr) = expr.entries.mapM (ofExpr false)
  | ⟨name, args, returns, template, union, none, unionName⟩ => by
    rw [entries_eq, entriesOf, List.mapM_cons, List.mapM_nil, entriesOf]
    rfl
  | ⟨name, args, returns, template, union, some next, unionName⟩ => by
    rw [entries_eq, entriesOf, List.mapM_cons, entriesOf_some next]

/-- Arguments without a name are passed over. -/
theorem argumentsOf_some : ∀ expr : TypeExpr,
    argumentsOf (some expr) = (expr.entries.filter (·.name ≠ "")).mapM (ofExpr false)
  | ⟨name, args, returns, template, union, none, unionName⟩ => by
    rw [entries_eq, argumentsOf, argumentsOf]
    by_cases hname : name = ""
    · rw [if_pos hname, List.filter_cons_of_neg (by simpa using hname)]
      rfl
    · rw [if_neg hname, List.filter_cons_of_pos (by simpa using hname), List.filter_nil, List.mapM_cons, List.mapM_nil]
      rfl
  | ⟨name, args, returns, template, union, some next, unionName⟩ => by
    rw [entries_eq, argumentsOf, argumentsOf_some next]
    by_cases hname : name = ""
    · rw [if_pos hname, List.filter_cons_of_neg (by simpa using hname)]
    · rw [if_neg hname, List.filter_cons_of_pos (by simpa using hname), List.mapM_cons]

/-! ## Expressions with and without alternatives -/

/-- The type of an expression without the alternatives that it links to. -/
def headType (expr : TypeExpr) : Except Fault ApiType :=
  if expr.args.isSome || expr.returns.isSome then do
    let args ← argumentsOf expr.args
    let returns ← ofExpr? expr.returns
    return { plain "function" with args, returns }
  else if expr.template.isSome then do
    let type ← named expr.name
    let templates ← entriesOf expr.template
    return { type with templates }
  else named expr.name

theorem ofExpr_true (expr : TypeExpr) : ofExpr true expr = headType expr := by
  obtain ⟨name, args, returns, template, union, next, unionName⟩ := expr
  simp [ofExpr, headType]

theorem ofExpr_single {expr : TypeExpr} (hunion : expr.union = none) : ofExpr false expr = headType expr := by
  obtain ⟨name, args, returns, template, union, next, unionName⟩ := expr
  cases hunion
  simp [ofExpr, headType, TypeExpr.isLiteralUnion]

/-- An expression with a type is no union of literals without a name. -/
theorem not_anonymous {expr : TypeExpr} {type : ApiType} (h : ofExpr false expr = .ok type) :
    (expr.unionName.isNone && expr.isLiteralUnion) = false := by
  rw [Bool.eq_false_iff]
  intro hanonymous
  obtain ⟨name, args, returns, template, union, next, unionName⟩ := expr
  rw [ofExpr, Bool.not_false, Bool.true_and, if_pos hanonymous] at h
  cases h

theorem ofExpr_union {expr other : TypeExpr} {type : ApiType} (hunion : expr.union = some other) :
    ofExpr false expr = .ok type ↔
      ∃ first others, headType expr = .ok first ∧ alternativesOf (some other) = .ok others ∧
        (expr.unionName.isNone && expr.isLiteralUnion) = false ∧
        type = ofAlternatives (withoutBrackets (expr.unionName.getD "")) (first :: others) := by
  have hwhole : (expr.unionName.isNone && expr.isLiteralUnion) = false → ofExpr false expr = do
      let first ← headType expr
      let others ← alternativesOf (some other)
      return ofAlternatives (withoutBrackets (expr.unionName.getD "")) (first :: others) := by
    intro hanonymous
    obtain ⟨name, args, returns, template, union, next, unionName⟩ := expr
    cases hunion
    rw [ofExpr, Bool.not_false, Bool.true_and, hanonymous]
    rfl
  constructor
  · intro h
    have hanonymous := not_anonymous h
    rw [hwhole hanonymous] at h
    obtain ⟨first, hfirst, h⟩ := bind_eq_ok.1 h
    obtain ⟨others, hothers, h⟩ := bind_eq_ok.1 h
    cases h
    exact ⟨first, others, hfirst, hothers, hanonymous, rfl⟩
  · rintro ⟨first, others, hfirst, hothers, hanonymous, rfl⟩
    rw [hwhole hanonymous]
    exact bind_eq_ok.2 ⟨first, hfirst, bind_eq_ok.2 ⟨others, hothers, rfl⟩⟩

theorem expression_of_named {name : String} {type : ApiType} (h : named name = .ok type) : type.expression = none := by
  unfold named at h
  dsimp only at h
  split at h
  · cases h
  · cases h
    rfl

theorem expression_of_headType {expr : TypeExpr} {type : ApiType} (h : headType expr = .ok type) :
    type.expression = none := by
  unfold headType at h
  split at h
  · obtain ⟨args, -, h⟩ := bind_eq_ok.1 h
    obtain ⟨returns, -, h⟩ := bind_eq_ok.1 h
    cases h
    rfl
  split at h
  · obtain ⟨type', htype, h⟩ := bind_eq_ok.1 h
    obtain ⟨templates, -, h⟩ := bind_eq_ok.1 h
    cases h
    have hexpression := expression_of_named htype
    exact hexpression
  · exact expression_of_named h

theorem expression_of_ofExpr {expr : TypeExpr} {type : ApiType} (h : ofExpr false expr = .ok type) :
    type.expression = none := by
  cases hunion : expr.union with
  | none =>
    rw [ofExpr_single hunion] at h
    exact expression_of_headType h
  | some other =>
    obtain ⟨first, others, -, -, -, rfl⟩ := (ofExpr_union hunion).1 h
    rfl

/-! ## Types with parameters and functions with arguments -/

/-- The type without the expression that it was read from. -/
def bare (type : ApiType) : ApiType := { type with expression := none }

theorem map_bare_map_bare (types : List ApiType) : (types.map bare).map bare = types.map bare := by
  rw [List.map_map]
  rfl

theorem parse_eq_ok {text : String} {type : ApiType} :
    parse text [] = .ok type ↔
      ∃ read, ofExpr false (TypeExpr.read (TypeExpr.unescape text)) = .ok read ∧
        type = { read with expression := some text } := by
  unfold parse
  split
  · rename_i h
    simp [h]
  · rename_i h
    simp [h]
  · rename_i h
    simp [h]
  · rename_i read h
    simp [h, eq_comm]

theorem read_unescape (text : String) :
    TypeExpr.read (TypeExpr.unescape text) = readFrom [] none (trim (unescapeChars text.toList)) := by
  rw [TypeExpr.read, TypeExpr.unescape, String.toList_ofList]

end ApiType

/-- What stands outside of the brackets of an expression. -/
def outside (text : String) : List Char := outline (unescapeChars text.toList)

namespace ApiType

section

variable {name : String} {texts : List String} {types : List ApiType}

/-- The first of the entries between the brackets. -/
def firstEntry (texts : List String) : TypeExpr :=
  readFrom [] none (listed (texts.map fun text => unescapeChars text.toList))

theorem unescapeChars_intercalate (hne : texts ≠ []) :
    unescapeChars (", ".intercalate texts).toList = listed (texts.map fun text => unescapeChars text.toList) := by
  rw [String.toList_intercalate]
  exact (unescapeChars_listed (mt List.map_eq_nil_iff.1 hne)).trans (by rw [List.map_map]; rfl)

theorem exists_outlined_intercalate (hne : texts ≠ [])
    (hentries : ∀ text ∈ texts, IsEntry (unescapeChars text.toList)) :
    ∃ out, Outlined (unescapeChars (", ".intercalate texts).toList) out := by
  rw [unescapeChars_intercalate hne]
  exact exists_outlined_listed (List.forall_mem_map.2 hentries)

/-- Reading a name with parameters: all that stands between the angle brackets is read as a list. -/
theorem read_template (hname : ∀ c ∈ name.toList, c ∉ ['<', '(', '|', ',']) (hne : texts ≠ [])
    (hentries : ∀ text ∈ texts, IsEntry (unescapeChars text.toList)) :
    ∃ name', TypeExpr.read (TypeExpr.unescape (name ++ "<" ++ ", ".intercalate texts ++ ">")) =
      withTemplate name' none (firstEntry texts) none none := by
  obtain ⟨out, hout⟩ := exists_outlined_intercalate hne hentries
  have hchars : (name ++ "<" ++ ", ".intercalate texts ++ ">").toList =
      name.toList ++ '<' :: ((", ".intercalate texts).toList ++ ['>']) := by
    simp
  have hplain : ∀ c ∈ trimStart (unescapeChars name.toList), c ∉ ['<', '(', '|', ','] := fun c hc =>
    hname c (mem_of_mem_unescapeChars ((List.dropWhile_sublist _).subset hc))
  refine ⟨trimStart (unescapeChars name.toList), ?_⟩
  rw [read_unescape, hchars, unescapeChars_append (.inr (by decide)), unescapeChars_cons (by decide),
    unescapeChars_append (.inr (by decide)), unescapeChars, trim_between (by decide) (by decide), readFrom_chars hplain,
    readFrom_angles hout, readLinks_nil, readFrom_trim hout, List.nil_append, Option.map_none, firstEntry,
    unescapeChars_intercalate hne]

/-- Reading a function: all that stands between the parentheses is read as a list, unless a backslash
keeps the second one from being read as such. -/
theorem read_arguments (hne : texts ≠ []) (hentries : ∀ text ∈ texts, IsEntry (unescapeChars text.toList))
    (hescape : (", ".intercalate texts).toList.getLast? ≠ some '\\') :
    TypeExpr.read (TypeExpr.unescape ("function(" ++ ", ".intercalate texts ++ ")")) =
      { TypeExpr.named "function" with args := some (firstEntry texts) } := by
  obtain ⟨out, hout⟩ := exists_outlined_intercalate hne hentries
  have hchars : ("function(" ++ ", ".intercalate texts ++ ")").toList =
      "function".toList ++ '(' :: ((", ".intercalate texts).toList ++ [')']) := by
    simp
  have hplain : ∀ c ∈ "function".toList, c ∉ ['<', '(', '|', ','] := by simp
  have hword : unescapeChars "function".toList = "function".toList := by decide
  have hstart : trimStart "function".toList = "function".toList := by decide
  have htrim : trim "function".toList = "function".toList := by decide
  rw [read_unescape, hchars, unescapeChars_append (.inl (by decide)), unescapeChars_cons (by decide),
    unescapeChars_append (.inl hescape), unescapeChars, trim_between (by decide) (by decide), hword, hstart,
    readFrom_chars hplain, List.nil_append, readFrom_parens_nil hout, htrim, readFrom_trim hout, firstEntry,
    unescapeChars_intercalate hne, String.ofList_toList]

/-- A union is no type with parameters. -/
theorem templates_of_union {expr other : TypeExpr} {type : ApiType} (hunion : expr.union = some other)
    (h : ofExpr false expr = .ok type) : type.templates = none := by
  obtain ⟨first, others, -, -, -, rfl⟩ := (ofExpr_union hunion).1 h
  rfl

/-- The parameters of a type are those that were read, unless they are literals that make an enum. -/
theorem templates_withTemplate {name' : List Char} {template : TypeExpr} {type : ApiType}
    (h : ofExpr false (withTemplate name' none template none none) = .ok type) :
    if template.unionName.isNone && template.isLiteralUnion then type.templates = none
    else ∃ templates, entriesOf (some template) = .ok templates ∧ type.templates = some templates := by
  unfold withTemplate at h
  split
  · rename_i henum
    rw [if_pos henum] at h
    obtain ⟨-, hliterals⟩ := Bool.and_eq_true_iff.1 henum
    obtain ⟨other, hother⟩ := Option.isSome_iff_exists.1 (Bool.and_eq_true_iff.1 hliterals).1
    have hunion : TypeExpr.union { template with next := none, unionName := some (String.ofList (trim name')) } =
        some other := hother
    exact templates_of_union hunion h
  · rename_i henum
    rw [if_neg henum] at h
    simp only [ofExpr, TypeExpr.isLiteralUnion, Option.isSome_none, Bool.and_false, Bool.false_and, Bool.or_self,
      Bool.false_eq_true, if_false, Option.isSome_some, if_true, Option.isNone_none, Bool.or_true] at h
    obtain ⟨type', hnamed, h⟩ := bind_eq_ok.1 h
    obtain ⟨templates, htemplates, h⟩ := bind_eq_ok.1 h
    cases h
    exact ⟨templates, htemplates, rfl⟩

/-- The arguments of a function are those that were read, without those that have no name. -/
theorem args_function {name' : String} {args : TypeExpr} {type : ApiType}
    (h : ofExpr false { TypeExpr.named name' with args := some args } = .ok type) :
    ∃ types, (args.entries.filter (·.name ≠ "")).mapM (ofExpr false) = .ok types ∧ type.args = some types := by
  obtain ⟨types, htypes, h⟩ := bind_eq_ok.1 ((ofExpr_function name' args none none).symm.trans h)
  rw [argumentsOf_some] at htypes
  obtain ⟨returns, -, h⟩ := bind_eq_ok.1 h
  cases h
  exact ⟨types, htypes, rfl⟩

/-! ## Which lists are kept -/

/-- What a text is read as, but for the text itself. -/
theorem ofExpr_of_parse {text : String} {type : ApiType} (h : parse text [] = .ok type) :
    ofExpr false (TypeExpr.read (TypeExpr.unescape text)) = .ok (bare type) := by
  obtain ⟨read, hread, rfl⟩ := parse_eq_ok.1 h
  have hexpression : bare { read with expression := some text } = read := by
    obtain ⟨name, properties, union, args, returns, templates, expression⟩ := read
    cases expression_of_ofExpr hread
    rfl
  rw [hexpression, hread]

/-- The type of an entry by itself. -/
theorem parse_entry {text : String} {type : ApiType} (hentry : IsEntry (unescapeChars text.toList))
    (h : parse text [] = .ok type) : ofExpr false (readFrom [] none (unescapeChars text.toList)) = .ok (bare type) := by
  rw [← readFrom_trim hentry.outlined, ← read_unescape, ofExpr_of_parse h]

/-- Every entry is kept with the type that its text has alone when all expressions but the last hand the
list on. -/
theorem ofExpr_firstEntry (hne : texts ≠ []) (hentries : ∀ text ∈ texts, IsEntry (unescapeChars text.toList))
    (hon : ∀ text ∈ texts.dropLast, HandsOn (outside text))
    (htypes : List.Forall₂ (fun text type => parse text [] = .ok type) texts types) :
    (firstEntry texts).entries.mapM (ofExpr false) = .ok (types.map bare) := by
  have hsame : List.Forall₂
      (fun entry text => ofExpr false entry = ofExpr false (readFrom [] none (unescapeChars text.toList)))
      (firstEntry texts).entries texts := by
    have hon' : ∀ cs ∈ (texts.map fun text => unescapeChars text.toList).dropLast, HandsOn (outline cs) := by
      rw [← List.map_dropLast]
      exact List.forall_mem_map.2 hon
    have hall := ofExpr_entries (List.forall_mem_map.2 hentries) (mt List.map_eq_nil_iff.1 hne) hon'
    rwa [List.forall₂_map_right_iff] at hall
  rw [mapM_eq_ok, List.forall₂_map_right_iff]
  generalize (firstEntry texts).entries = entries at hsame
  clear hon hne
  induction hsame generalizing types with
  | nil =>
    cases htypes
    exact .nil
  | cons hfirst _ ih =>
    cases htypes with
    | cons htype htypes =>
      rw [List.forall_mem_cons] at hentries
      exact .cons (hfirst.trans (parse_entry hentries.1 htype)) (ih hentries.2 htypes)

/-- Entries are lost when an expression before the last does not hand the list on. -/
theorem handsOn_of_length (hentries : ∀ text ∈ texts, IsEntry (unescapeChars text.toList))
    (hlength : texts.length ≤ (firstEntry texts).entries.length) :
    ∀ text ∈ texts.dropLast, HandsOn (outside text) := by
  intro text htext
  by_contra hnot
  have hlost : ∃ cs ∈ (texts.map fun text => unescapeChars text.toList).dropLast, ¬HandsOn (outline cs) := by
    rw [← List.map_dropLast]
    exact ⟨_, List.mem_map_of_mem htext, hnot⟩
  have hshort := length_entries_lt (List.forall_mem_map.2 hentries) hlost
  rw [List.length_map] at hshort
  exact absurd hlength (Nat.not_le.2 hshort)

theorem name_firstEntry (hne : texts ≠ []) (hentries : ∀ text ∈ texts, IsEntry (unescapeChars text.toList))
    (hon : ∀ text ∈ texts.dropLast, HandsOn (outside text)) :
    (∀ entry ∈ (firstEntry texts).entries, entry.name ≠ "") ↔
      (∀ text ∈ texts.dropLast, (TypeExpr.read (TypeExpr.unescape (text ++ ","))).name ≠ "") ∧
        ∀ text ∈ texts.getLast?, (TypeExpr.read (TypeExpr.unescape text)).name ≠ "" := by
  have hon' : ∀ cs ∈ (texts.map fun text => unescapeChars text.toList).dropLast, HandsOn (outline cs) := by
    rw [← List.map_dropLast]
    exact List.forall_mem_map.2 hon
  have hread : ∀ text ∈ texts, TypeExpr.read (TypeExpr.unescape text) =
      readFrom [] none (unescapeChars text.toList) := fun text htext => by
    rw [read_unescape, readFrom_trim (hentries text htext).outlined]
  have hcomma : ∀ text ∈ texts, TypeExpr.read (TypeExpr.unescape (text ++ ",")) =
      readFrom [] none (unescapeChars text.toList ++ [',']) := fun text htext => by
    have hchars : (text ++ ",").toList = text.toList ++ [','] := String.toList_append
    rw [read_unescape, hchars, unescapeChars_append (.inr (by decide)), unescapeChars,
      readFrom_trim ((hentries text htext).outlined.list .nil)]
  rw [firstEntry, name_entries (List.forall_mem_map.2 hentries) hon' (mt List.map_eq_nil_iff.1 hne),
    ← List.map_dropLast, List.forall_mem_map, List.getLast?_map]
  refine and_congr (forall₂_congr fun text htext => ?_) ?_
  · rw [hcomma text (List.mem_of_mem_dropLast htext)]
  · simp only [Option.mem_def, Option.map_eq_some_iff, forall_exists_index, and_imp, forall_apply_eq_imp_iff₂]
    refine forall₂_congr fun text htext => ?_
    rw [hread text (List.mem_of_getLast? htext)]

theorem templates_iff (hname : ∀ c ∈ name.toList, c ∉ ['<', '(', '|', ',']) (hne : texts ≠ [])
    (hentries : ∀ text ∈ texts, IsEntry (unescapeChars text.toList))
    (htypes : List.Forall₂ (fun text type => parse text [] = .ok type) texts types) {type : ApiType}
    (htype : parse (name ++ "<" ++ ", ".intercalate texts ++ ">") [] = .ok type) :
    type.templates.map (·.map bare) = some (types.map bare) ↔ ∀ text ∈ texts.dropLast, HandsOn (outside text) := by
  obtain ⟨read, hread, rfl⟩ := parse_eq_ok.1 htype
  obtain ⟨name', htemplate⟩ := read_template hname hne hentries
  rw [htemplate] at hread
  have htemplates := templates_withTemplate hread
  constructor
  · intro hkept
    split at htemplates
    · rw [htemplates] at hkept
      cases hkept
    · obtain ⟨templates, hall, hsome⟩ := htemplates
      rw [entriesOf_some] at hall
      rw [hsome] at hkept
      have hlength : texts.length = (firstEntry texts).entries.length :=
        calc texts.length = types.length := htypes.length_eq
          _ = templates.length := by simpa using congrArg List.length (Option.some.inj hkept).symm
          _ = (firstEntry texts).entries.length := (mapM_eq_ok.1 hall).length_eq.symm
      exact handsOn_of_length hentries hlength.le
  · intro hon
    have hall := ofExpr_firstEntry hne hentries hon htypes
    -- the first entry has a type, so that the parameters are not taken for an enum
    have hfirst : ∃ type, ofExpr false (firstEntry texts) = .ok type := by
      have hall := mapM_eq_ok.1 hall
      rw [entries_eq] at hall
      obtain ⟨type, -, htype, -⟩ := List.forall₂_cons_left_iff.1 hall
      exact ⟨type, htype⟩
    obtain ⟨first, hfirst⟩ := hfirst
    rw [not_anonymous hfirst, if_neg Bool.false_ne_true] at htemplates
    obtain ⟨templates, hentriesOf, hsome⟩ := htemplates
    rw [entriesOf_some, hall] at hentriesOf
    cases hentriesOf
    rw [hsome, Option.map_some, map_bare_map_bare]

theorem arguments_iff (hne : texts ≠ []) (hentries : ∀ text ∈ texts, IsEntry (unescapeChars text.toList))
    (htypes : List.Forall₂ (fun text type => parse text [] = .ok type) texts types) {type : ApiType}
    (htype : parse ("function(" ++ ", ".intercalate texts ++ ")") [] = .ok type)
    (hescape : (", ".intercalate texts).toList.getLast? ≠ some '\\') :
    type.args.map (·.map bare) = some (types.map bare) ↔
      (∀ text ∈ texts.dropLast, HandsOn (outside text)) ∧ ∀ entry ∈ (firstEntry texts).entries, entry.name ≠ "" := by
  obtain ⟨read, hread, rfl⟩ := parse_eq_ok.1 htype
  rw [read_arguments hne hentries hescape] at hread
  obtain ⟨args, hargs, hsome⟩ := args_function hread
  constructor
  · intro hkept
    rw [hsome] at hkept
    have hlength : texts.length = ((firstEntry texts).entries.filter (·.name ≠ "")).length :=
      calc texts.length = types.length := htypes.length_eq
        _ = args.length := by simpa using congrArg List.length (Option.some.inj hkept).symm
        _ = ((firstEntry texts).entries.filter (·.name ≠ "")).length := (mapM_eq_ok.1 hargs).length_eq.symm
    have hon := handsOn_of_length hentries (hlength.le.trans (List.length_filter_le _ _))
    refine ⟨hon, ?_⟩
    have hall : (firstEntry texts).entries.length = texts.length := by
      have hkept := mapM_eq_ok.1 (ofExpr_firstEntry hne hentries hon htypes)
      rw [hkept.length_eq, List.length_map, htypes.length_eq]
    have hnames := List.length_filter_eq_length_iff.1 (hlength.symm.trans hall.symm)
    simpa using hnames
  · rintro ⟨hon, hnames⟩
    have hfilter : (firstEntry texts).entries.filter (·.name ≠ "") = (firstEntry texts).entries :=
      List.filter_eq_self.2 (by simpa using hnames)
    rw [hfilter, ofExpr_firstEntry hne hentries hon htypes] at hargs
    cases hargs
    rw [hsome, Option.map_some, map_bare_map_bare]

end

/-- Which parameters of a type and which arguments of a function are kept. The types written between
brackets are found there, one for one, exactly when every expression but the last hands the list on; and
an argument must have a name. -/
theorem parse_list_iff {name : String} {texts : List String} {types : List ApiType}
    (hname : ∀ c ∈ name.toList, c ∉ ['<', '(', '|', ',']) (hne : texts ≠ [])
    (hentries : ∀ text ∈ texts, IsEntry (unescapeChars text.toList))
    (htypes : List.Forall₂ (fun text type => parse text [] = .ok type) texts types) :
    (∀ type, parse (name ++ "<" ++ ", ".intercalate texts ++ ">") [] = .ok type →
      (type.templates.map (·.map bare) = some (types.map bare) ↔
        ∀ text ∈ texts.dropLast, HandsOn (outside text))) ∧
    ∀ type, parse ("function(" ++ ", ".intercalate texts ++ ")") [] = .ok type →
      (", ".intercalate texts).toList.getLast? ≠ some '\\' →
      (type.args.map (·.map bare) = some (types.map bare) ↔
        (∀ text ∈ texts.dropLast, HandsOn (outside text)) ∧
          (∀ text ∈ texts.dropLast, (TypeExpr.read (TypeExpr.unescape (text ++ ","))).name ≠ "") ∧
          ∀ text ∈ texts.getLast?, (TypeExpr.read (TypeExpr.unescape text)).name ≠ "") := by
  refine ⟨fun type htype => templates_iff hname hne hentries htypes htype, fun type htype hescape => ?_⟩
  rw [arguments_iff hne hentries htypes htype hescape]
  exact and_congr_right fun hon => name_firstEntry hne hentries hon

/-- The union of two types. -/
def unionAB : ApiType := ofAlternatives "" [plain "a", plain "b"]

theorem parse_unionAB : parse "a|b" [] = .ok { unionAB with expression := some "a|b" } := by cbv

theorem parse_plainC : parse "c" [] = .ok { plain "c" with expression := some "c" } := by cbv

/-- A union in the last place: all is kept. -/
theorem parse_list_iff_last :
    (∀ type, parse "Map<c, a|b>" [] = .ok type → type.templates.map (·.map bare) = some [plain "c", unionAB]) ∧
      ∀ type, parse "function(c, a|b)" [] = .ok type → type.args.map (·.map bare) = some [plain "c", unionAB] := by
  have hkept := @parse_list_iff "Map" ["c", "a|b"] _ (by simp) (List.cons_ne_nil _ _)
    (by simp only [List.forall_mem_cons]; exact ⟨⟨by decide, by decide⟩, ⟨by decide, by decide⟩, by simp⟩)
    (.cons parse_plainC (.cons parse_unionAB .nil))
  have hon : ∀ text ∈ ["c", "a|b"].dropLast, HandsOn (outside text) := by decide
  have hnamed : ∀ text ∈ ["c", "a|b"].dropLast, (TypeExpr.read (TypeExpr.unescape (text ++ ","))).name ≠ "" := by
    intro text htext
    rw [List.mem_singleton.1 htext]
    cbv
  have hlast : (TypeExpr.read (TypeExpr.unescape "a|b")).name ≠ "" := by cbv
  refine ⟨fun type htype => (hkept.1 type htype).2 hon, fun type htype => (hkept.2 type htype (by decide)).2 ?_⟩
  refine ⟨hon, hnamed, fun text htext => ?_⟩
  cases htext
  exact hlast

/-- A union before another type: the type behind the union is lost. -/
theorem parse_list_lost :
    (∀ text ∈ ["a|b", "c"], IsEntry (unescapeChars text.toList)) ∧
      parse "a|b" [] = .ok { unionAB with expression := some "a|b" } ∧
      parse "c" [] = .ok { plain "c" with expression := some "c" } ∧
      (∃ type, parse "Map<a|b, c>" [] = .ok type ∧ type.templates.map (·.map bare) = some [unionAB]) ∧
      ∃ type, parse "function(a|b, c)" [] = .ok type ∧ type.args.map (·.map bare) = some [unionAB] := by
  refine ⟨?_, parse_unionAB, parse_plainC, ?_, ?_⟩
  · simp only [List.forall_mem_cons]
    exact ⟨⟨by decide, by decide⟩, ⟨by decide, by decide⟩, by simp⟩
  · exact ⟨{ plain "Map" with templates := some [unionAB], expression := some "Map<a|b, c>" }, by cbv, rfl⟩
  · exact ⟨{ plain "function" with args := some [unionAB], expression := some "function(a|b, c)" }, by cbv, rfl⟩

end ApiType

end RefPages
