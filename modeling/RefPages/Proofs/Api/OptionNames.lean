/-
The names of options in a method whose options are expanded. References find an option by its name or by the
one that it was made from, so that what could be referred to before can still be, and every new name can be
as well. New names may be taken, though: two alternatives can have one suffix, and an option can be documented
under the name that another one gets. Nothing else makes two options one, as no suffix ends like another.
-/
import RefPages.Proofs.Api.Checked
import RefPages.Proofs.Api.Expansion

namespace RefPages

namespace Member

/-! ## The argument for options -/

/-- The method has one argument for options at most. It is then the first and the last: the one that is expanded
is the one that is looked up. -/
def OneOptions (method : Member) : Prop := (method.args.filter (·.name = "options")).length ≤ 1

instance (method : Member) : Decidable method.OneOptions := inferInstanceAs (Decidable (_ ≤ _))

theorem firstOptions?_of_oneOptions {method : Member} (hone : method.OneOptions) :
    (firstOptions? method.args).getD [] = method.optionProperties := by
  unfold OneOptions at hone
  rw [firstOptions?, ← List.head?_filter, optionProperties, arg?, lastNamed?]
  generalize method.args.filter (·.name = "options") = named at hone ⊢
  rcases named with _ | ⟨arg, rest⟩
  · rfl
  · have hrest : rest = [] := List.length_eq_zero_iff.1 (by rw [List.length_cons] at hone; omega)
    subst hrest
    rfl

theorem filter_withOptions {options args rest : List Member} {arg : Member}
    (h : args.filter (·.name = "options") = arg :: rest) :
    (withOptions options args).filter (·.name = "options") =
      { arg with type := arg.type.map ({ · with properties := some options }) } :: rest := by
  induction args with
  | nil => cases h
  | cons first args ih =>
    by_cases hname : first.name = "options"
    · rw [List.filter_cons_of_pos (by simpa using hname)] at h
      obtain ⟨rfl, rfl⟩ := List.cons.inj h
      rw [withOptions, if_pos hname, List.filter_cons_of_pos (by simpa using hname)]
    · rw [List.filter_cons_of_neg (by simpa using hname)] at h
      rw [withOptions, if_neg hname, List.filter_cons_of_neg (by simpa using hname), ih h]

theorem optionProperties_withOptions {method : Member} {before options : List Member}
    (h : firstOptions? method.args = some before) :
    ({ method with args := withOptions options method.args } : Member).optionProperties =
      if method.OneOptions then options else method.optionProperties := by
  obtain ⟨type, htype, -⟩ := Option.bind_eq_some_iff.1 h
  obtain ⟨arg, harg, htype⟩ := Option.bind_eq_some_iff.1 htype
  rw [← List.head?_filter, List.head?_eq_some_iff] at harg
  obtain ⟨rest, hargs⟩ := harg
  rw [optionProperties, optionProperties, arg?, arg?, lastNamed?, lastNamed?, filter_withOptions hargs, hargs]
  cases rest with
  | nil =>
    have hone : method.OneOptions := by simp [OneOptions, hargs]
    rw [if_pos hone, List.getLast?_singleton, Option.bind_some, htype]
    rfl
  | cons other rest =>
    -- behind the argument that is expanded there is another one, which is looked up
    have htwo : ¬method.OneOptions := by simp [OneOptions, hargs]
    rw [if_neg htwo, List.getLast?_cons_cons, List.getLast?_cons_cons]

/-! ## What options are found by -/

/-- The name of the option and the one that it was made from. -/
def naming (option : Member) : String × Option String := (option.name, option.overloadOf)

theorem perm_naming_relink (member : Member) :
    (member.relink.optionProperties.map naming).Perm (member.optionProperties.map naming) := by
  show ((member.inClass member.className).optionProperties.map naming).Perm _
  rw [optionProperties_inClass, List.map_map]
  exact (List.mergeSort_perm _ _).map naming

/-- Expanding a method expands the options that are looked up, unless there are several arguments for options. -/
theorem perm_naming_expandOverloads {style : OverloadStyle} {method expanded : Member}
    (h : method.expandOverloads style = .ok expanded) :
    ∃ options, (if method.OneOptions then expandOptions style method.optionProperties = .ok options
        else options = method.optionProperties) ∧
      (expanded.optionProperties.map naming).Perm (options.map naming) := by
  unfold expandOverloads at h
  split at h
  · rename_i hnone
    cases h
    refine ⟨method.optionProperties, ?_, .refl _⟩
    split
    · rename_i hone
      rw [← firstOptions?_of_oneOptions hone, hnone]
      rfl
    · rfl
  · rename_i before hbefore
    obtain ⟨options, hoptions, h⟩ := bind_eq_ok.1 h
    cases h
    refine ⟨_, ?_, perm_naming_relink _⟩
    rw [optionProperties_withOptions hbefore]
    split
    · rename_i hone
      rwa [← firstOptions?_of_oneOptions hone, hbefore, Option.getD_some]
    · rfl

/-- Every option is expanded, and what becomes of it is among the options afterwards. -/
theorem exists_made_of_expandOptions {style : OverloadStyle} {options expanded : List Member}
    (h : expandOptions style options = .ok expanded) {option : Member} (hoption : option ∈ options) :
    ∃ made, expandOption style option = .ok made ∧ ∀ new ∈ made, new ∈ expanded := by
  obtain ⟨groups, hgroups, hflat⟩ := bind_eq_ok.1 h
  cases hflat
  obtain ⟨made, hmem, hmade⟩ := related_of_mem_left (mapM_eq_ok.1 hgroups) hoption
  exact ⟨made, hmade, fun new hnew => List.mem_flatten.2 ⟨made, hmem, hnew⟩⟩

/-! ## References in an expanded method -/

/-- Every reference to an option by this name is resolved in the texts of the method. -/
def FindsOption (method : Member) (name : String) : Prop :=
  ∀ (render : LinkRenderer) (table : LinkTable) (ref : Reference), String.ofList ref.kind = "option" →
    String.ofList ref.name = name → ∃ text, resolve render table (some (.ofMethod method)) ref = .ok text

theorem findsOption_of_mem {method : Member} {name : String}
    (h : ∃ names ∈ method.optionProperties.map naming, names.1 = name ∨ names.2 = some name) :
    method.FindsOption name := by
  rintro render table ref hkind rfl
  refine ⟨_, Reference.resolve_eq_shown fun fault hfails => ?_⟩
  obtain ⟨context, hcontext, hnone, -⟩ := (Reference.fails_option_iff hkind).1 hfails
  cases hcontext
  obtain ⟨names, hmem, hname⟩ := h
  obtain ⟨option, hoption, rfl⟩ := List.mem_map.1 hmem
  exact hnone (mem_options_iff.2 ⟨option, hoption, hname⟩)

/-- An option can be found by its name after it is expanded, unless it becomes none. -/
theorem naming_of_expandOption {style : OverloadStyle} {option : Member} {made : List Member}
    (h : expandOption style option = .ok made)
    (hsome : ∀ alternatives, option.Splits alternatives → alternatives ≠ []) :
    ∃ new ∈ made, new.name = option.name ∨ new.overloadOf = some option.name := by
  cases style with
  | separate =>
    cases becomes_of_expandOption h with
    | same => exact ⟨option, List.mem_singleton_self _, .inl rfl⟩
    | several hsplits hmade =>
      obtain ⟨alternative, hmem⟩ := List.exists_mem_of_ne_nil _ (hsome _ hsplits)
      obtain ⟨new, hnew, suffix, -, rfl⟩ := related_of_mem_left hmade hmem
      exact ⟨_, hnew, .inr rfl⟩
  | joined =>
    unfold expandOption at h
    split at h
    · cases h
      exact ⟨option, List.mem_singleton_self _, .inl rfl⟩
    · obtain ⟨suffixes, -, h⟩ := bind_eq_ok.1 h
      cases h
      exact ⟨_, List.mem_singleton_self _, .inl rfl⟩

theorem params_withOptions (options : List Member) (args : List Member) :
    (withOptions options args).map (fun arg => (arg.name, arg.label)) = args.map fun arg => (arg.name, arg.label) := by
  induction args with
  | nil => rfl
  | cons arg args ih =>
    rw [withOptions]
    split
    · rfl
    · rw [List.map_cons, List.map_cons, ih]

theorem params_relink (member : Member) :
    member.relink.args.map (fun arg => (arg.name, arg.label)) = member.args.map fun arg => (arg.name, arg.label) := by
  show ((member.inClass member.className).args).map _ = _
  rw [inClass_args, List.map_map]
  refine List.map_congr_left fun arg _ => ?_
  simp only [Function.comp_apply, linkArg]
  split <;> rfl

/-- Expanding changes nothing that can be referred to but the options. -/
theorem ofMethod_expandOverloads {style : OverloadStyle} {method expanded : Member}
    (h : method.expandOverloads style = .ok expanded) :
    LinkContext.ofMethod expanded =
      { LinkContext.ofMethod method with options := (LinkContext.ofMethod expanded).options } := by
  unfold expandOverloads at h
  split at h
  · cases h
    rfl
  · obtain ⟨options, -, h⟩ := bind_eq_ok.1 h
    cases h
    unfold LinkContext.ofMethod
    dsimp only
    rw [params_relink, params_withOptions]
    rfl

/-- References to parameters do not depend on the options that there are. -/
theorem resolve_param {render : LinkRenderer} {table : LinkTable} {context : LinkContext} {ref : Reference}
    (hkind : String.ofList ref.kind = "param") (options : List (String × String)) :
    resolve render table (some { context with options }) ref = resolve render table (some context) ref := by
  have hother : ¬("param" = "event" ∨ "param" = "method" ∨ "param" = "property") := by decide
  unfold resolve resolveName
  dsimp only
  rw [hkind, if_neg hother, if_neg hother, if_pos rfl, if_pos rfl]
  rfl

/-- When the options of a method are expanded, every reference to one of them by its documented name is resolved
afterwards, unless its type is a union of nothing but null. So is every reference to an option that there is then,
and in particular to what became of an option of the method, which stays as it is when there are several arguments
for options. References to parameters resolve as before, or fail as before. -/
theorem references_expandOverloads {style : OverloadStyle} {method expanded : Member}
    (h : method.expandOverloads style = .ok expanded) :
    (∀ option ∈ method.optionProperties,
      (∀ alternatives, option.Splits alternatives → alternatives ≠ []) → expanded.FindsOption option.name) ∧
      (∀ new ∈ expanded.optionProperties, expanded.FindsOption new.name) ∧
      (∀ option ∈ method.optionProperties,
        ∃ made, (if method.OneOptions then expandOption style option = .ok made else made = [option]) ∧
          ∀ new ∈ made, expanded.FindsOption new.name) ∧
      ∀ (render : LinkRenderer) (table : LinkTable) (ref : Reference), String.ofList ref.kind = "param" →
        resolve render table (some (.ofMethod expanded)) ref = resolve render table (some (.ofMethod method)) ref := by
  obtain ⟨options, hoptions, hperm⟩ := perm_naming_expandOverloads h
  have hfinds : ∀ {new : Member} {name : String}, new ∈ options → new.name = name ∨ new.overloadOf = some name →
      expanded.FindsOption name := fun hnew hname =>
    findsOption_of_mem ⟨_, hperm.mem_iff.2 (List.mem_map_of_mem hnew), hname⟩
  -- what becomes of an option that is looked up is looked up afterwards
  have hmade : ∀ option ∈ method.optionProperties,
      ∃ made, (if method.OneOptions then expandOption style option = .ok made else made = [option]) ∧
        ∀ new ∈ made, new ∈ options := by
    intro option hoption
    split at hoptions
    · rename_i hone
      obtain ⟨made, hexpand, hmem⟩ := exists_made_of_expandOptions hoptions hoption
      exact ⟨made, by rwa [if_pos hone], hmem⟩
    · rename_i hone
      subst hoptions
      exact ⟨[option], by rw [if_neg hone], fun new hnew => List.mem_singleton.1 hnew ▸ hoption⟩
  refine ⟨fun option hoption hsome => ?_, fun new hnew => ?_, fun option hoption => ?_,
    fun render table ref hkind => ?_⟩
  · obtain ⟨made, hexpand, hmem⟩ := hmade option hoption
    have hkept : ∃ new ∈ made, new.name = option.name ∨ new.overloadOf = some option.name := by
      split at hexpand
      · exact naming_of_expandOption hexpand hsome
      · exact ⟨option, hexpand ▸ List.mem_singleton_self _, .inl rfl⟩
    obtain ⟨new, hnew, hname⟩ := hkept
    exact hfinds (hmem new hnew) hname
  · exact findsOption_of_mem ⟨_, List.mem_map_of_mem hnew, .inl rfl⟩
  · obtain ⟨made, hexpand, hmem⟩ := hmade option hoption
    exact ⟨made, hexpand, fun new hnew => hfinds (hmem new hnew) (.inl rfl)⟩
  · rw [ofMethod_expandOverloads h]
    exact resolve_param hkind _

/-- The option for a pattern, a text or nothing is found by its name and by the two that it gets. -/
theorem references_expandOverloads_pattern :
    ∃ expanded, (optionMethod [optionOf patternUnion]).expandOverloads .separate = .ok expanded ∧
      expanded.optionProperties.map (·.name) = ["xRegex", "xString"] ∧
      expanded.FindsOption "x" ∧ expanded.FindsOption "xRegex" ∧ expanded.FindsOption "xString" := by
  obtain ⟨expanded, hexpanded, hnames⟩ : ∃ expanded,
      (optionMethod [optionOf patternUnion]).expandOverloads .separate = .ok expanded ∧
        expanded.optionProperties.map (·.name) = ["xRegex", "xString"] := ⟨_, rfl, by cbv⟩
  obtain ⟨hdocumented, hnew, -⟩ := references_expandOverloads hexpanded
  have hnamed : ∀ name ∈ expanded.optionProperties.map (·.name), expanded.FindsOption name := by
    intro name hname
    obtain ⟨option, hoption, rfl⟩ := List.mem_map.1 hname
    exact hnew option hoption
  rw [hnames] at hnamed
  have hsplits : (optionOf patternUnion).Splits [ApiType.plain "RegExp", ApiType.plain "string"] :=
    splits_iff.2 rfl
  refine ⟨expanded, hexpanded, hnames, hdocumented (optionOf patternUnion) List.mem_cons_self fun alternatives h => ?_,
    hnamed _ (by simp), hnamed _ (by simp)⟩
  rw [splits_unique h hsplits]
  exact List.cons_ne_nil _ _

/-! ## Names that stay distinct -/

/-- What a name is extended by. -/
theorem overloadSuffix_mem {option suffix : String} {alternative : ApiType}
    (h : overloadSuffix option alternative = .ok suffix) :
    suffix ∈ ["String", "Regex", "Func", "Byte", "Object"] := by
  unfold overloadSuffix at h
  split at h <;> cases h <;> decide

/-- No suffix ends like another, so that a name tells what it was extended by. -/
theorem append_suffix_inj {name other suffix suffix' : String}
    (hsuffix : suffix ∈ ["String", "Regex", "Func", "Byte", "Object"])
    (hsuffix' : suffix' ∈ ["String", "Regex", "Func", "Byte", "Object"]) (h : name ++ suffix = other ++ suffix') :
    name = other := by
  have hchars := congrArg String.toList h
  rw [String.toList_append, String.toList_append] at hchars
  have hsame : suffix = suffix' := by
    have hlast := congrArg List.getLast? hchars
    simp only [List.mem_cons, List.not_mem_nil, or_false] at hsuffix hsuffix'
    rcases hsuffix with rfl | rfl | rfl | rfl | rfl <;> rcases hsuffix' with rfl | rfl | rfl | rfl | rfl <;>
      first | rfl | simp at hlast
  rw [hsame] at hchars
  exact String.toList_inj.1 (List.append_cancel_right hchars)

/-- The names that become of an option. -/
def expandedNames (option : Member) : List String :=
  match expandOption .separate option with
  | .ok made => made.map (·.name)
  | .error _ => []

theorem names_expandOptions {options made : List Member} (h : expandOptions .separate options = .ok made) :
    made.map (·.name) = options.flatMap expandedNames := by
  obtain ⟨groups, hgroups, hflat⟩ := bind_eq_ok.1 h
  cases hflat
  replace hgroups := mapM_eq_ok.1 hgroups
  clear h
  induction hgroups with
  | nil => rfl
  | @cons option group options groups hgroup _ ih =>
    rw [List.flatten_cons, List.map_append, ih, List.flatMap_cons, expandedNames, hgroup]

theorem expandedNames_of_not_splits {option : Member} (h : ∀ alternatives, ¬option.Splits alternatives) :
    expandedNames option = [option.name] := by
  have hnone : option.alternatives? = none := Option.eq_none_iff_forall_not_mem.2 fun alternatives hsome =>
    h alternatives (splits_iff.2 hsome)
  rw [expandedNames, expandOption, hnone]
  rfl

theorem expandedNames_of_splits {option : Member} {alternatives : List ApiType} {made : List Member}
    (h : expandOption .separate option = .ok made) (hsplits : option.Splits alternatives) :
    ∃ suffixes : List String, alternatives.map (overloadSuffix option.name) = suffixes.map .ok ∧
      expandedNames option = suffixes.map (option.name ++ ·) := by
  rw [expandedNames, h]
  rw [expandOption, splits_iff.1 hsplits] at h
  obtain ⟨suffixes, hsuffixes, h⟩ := bind_eq_ok.1 h
  cases h
  replace hsuffixes := mapM_eq_ok.1 hsuffixes
  refine ⟨suffixes, ?_, ?_⟩
  · rw [← List.forall₂_eq_eq_eq, List.forall₂_map_left_iff, List.forall₂_map_right_iff]
    exact hsuffixes
  · clear hsplits h
    dsimp only
    induction hsuffixes with
    | nil => rfl
    | cons _ _ ih =>
      rw [List.zipWith_cons_cons, List.map_cons, List.map_cons, ih]
      rfl

/-- The options that become of one have names that differ, also from the names of options that stay. -/
structure NamesApart (options : List Member) (option : Member) (alternatives : List ApiType) : Prop where
  suffixes : (alternatives.map (overloadSuffix option.name)).Nodup
  documented : ∀ alternative ∈ alternatives, ∀ suffix, overloadSuffix option.name alternative = .ok suffix →
    ∀ other ∈ options, (∀ alternatives, ¬other.Splits alternatives) → other.name ≠ option.name ++ suffix

section

variable {option other : Member} {alternatives : List ApiType}

theorem mem_expandedNames {name : String} {made : List Member} (h : expandOption .separate option = .ok made) :
    name ∈ expandedNames option ↔
      (∀ alternatives, ¬option.Splits alternatives) ∧ name = option.name ∨
        ∃ alternatives, option.Splits alternatives ∧ ∃ alternative ∈ alternatives, ∃ suffix,
          overloadSuffix option.name alternative = .ok suffix ∧ name = option.name ++ suffix := by
  constructor
  · intro hname
    by_cases hsplits : ∃ alternatives, option.Splits alternatives
    · obtain ⟨alternatives, hsplits⟩ := hsplits
      obtain ⟨suffixes, hsuffixes, hnames⟩ := expandedNames_of_splits h hsplits
      rw [hnames, List.mem_map] at hname
      obtain ⟨suffix, hsuffix, rfl⟩ := hname
      have hmem : (.ok suffix : Except Fault String) ∈ alternatives.map (overloadSuffix option.name) :=
        hsuffixes ▸ List.mem_map_of_mem hsuffix
      obtain ⟨alternative, halternative, hok⟩ := List.mem_map.1 hmem
      exact .inr ⟨alternatives, hsplits, alternative, halternative, suffix, hok, rfl⟩
    · rw [expandedNames_of_not_splits (not_exists.1 hsplits), List.mem_singleton] at hname
      exact .inl ⟨not_exists.1 hsplits, hname⟩
  · rintro (⟨hstays, rfl⟩ | ⟨alternatives, hsplits, alternative, halternative, suffix, hok, rfl⟩)
    · rw [expandedNames_of_not_splits hstays]
      exact List.mem_singleton_self _
    · obtain ⟨suffixes, hsuffixes, hnames⟩ := expandedNames_of_splits h hsplits
      have hmem : overloadSuffix option.name alternative ∈ suffixes.map .ok :=
        hsuffixes ▸ List.mem_map_of_mem halternative
      obtain ⟨own, hown, hsame⟩ := List.mem_map.1 hmem
      rw [hok] at hsame
      rw [hnames, ← Except.ok.inj hsame]
      exact List.mem_map_of_mem hown

theorem nodup_expandedNames_iff {made : List Member} (h : expandOption .separate option = .ok made)
    (hsplits : option.Splits alternatives) :
    (expandedNames option).Nodup ↔ (alternatives.map (overloadSuffix option.name)).Nodup := by
  obtain ⟨suffixes, hsuffixes, hnames⟩ := expandedNames_of_splits h hsplits
  have happend : Function.Injective (option.name ++ ·) := fun suffix suffix' hsame => by
    have hchars := congrArg String.toList hsame
    simp only [String.toList_append, List.append_cancel_left_eq] at hchars
    exact String.toList_inj.1 hchars
  rw [hnames, hsuffixes, List.nodup_map_iff happend, List.nodup_map_iff fun _ _ => Except.ok.inj]

/-- Two options get one name only when one of them is documented by it and stays. -/
theorem disjoint_expandedNames {options : List Member} (hoption : option ∈ options) (hother : other ∈ options)
    (hok : ∀ option ∈ options, ∃ made, expandOption .separate option = .ok made)
    (hapart : ∀ option ∈ options, ∀ alternatives, option.Splits alternatives → NamesApart options option alternatives)
    (hne : option.name ≠ other.name) : (expandedNames option).Disjoint (expandedNames other) := by
  intro name hname hname'
  obtain ⟨made, hmade⟩ := hok option hoption
  obtain ⟨made', hmade'⟩ := hok other hother
  rcases (mem_expandedNames hmade).1 hname with
    ⟨hstays, rfl⟩ | ⟨alternatives, hsplits, alternative, hmem, suffix, hsuffix, rfl⟩ <;>
  rcases (mem_expandedNames hmade').1 hname' with
    ⟨hstays', hsame⟩ | ⟨alternatives', hsplits', alternative', hmem', suffix', hsuffix', hsame⟩
  · exact hne hsame
  · exact (hapart other hother alternatives' hsplits').documented alternative' hmem' suffix' hsuffix' option hoption
      hstays hsame
  · exact (hapart option hoption alternatives hsplits).documented alternative hmem suffix hsuffix other hother
      hstays' hsame.symm
  · -- both names are made, and one suffix ends like the other
    exact hne (append_suffix_inj (overloadSuffix_mem hsuffix) (overloadSuffix_mem hsuffix') hsame)

end

theorem nodup_flatMap_expandedNames {options : List Member} (hnames : (options.map (·.name)).Nodup)
    (hok : ∀ option ∈ options, ∃ made, expandOption .separate option = .ok made) :
    (options.flatMap expandedNames).Nodup ↔
      ∀ option ∈ options, ∀ alternatives, option.Splits alternatives → NamesApart options option alternatives := by
  rw [List.nodup_flatMap]
  constructor
  · rintro ⟨hown, hothers⟩ option hoption alternatives hsplits
    obtain ⟨made, hmade⟩ := hok option hoption
    refine ⟨(nodup_expandedNames_iff hmade hsplits).1 (hown option hoption), ?_⟩
    -- an option that stays is not this one, so that their names are disjoint
    intro alternative hmem suffix hsuffix other hother hstays hsame
    have hne : option ≠ other := fun heq => hstays alternatives (heq ▸ hsplits)
    have : Std.Symm (Function.onFun List.Disjoint expandedNames) := ⟨fun _ _ h => List.Disjoint.symm h⟩
    obtain ⟨made', hmade'⟩ := hok other hother
    have hname := (mem_expandedNames hmade).2
      (.inr ⟨alternatives, hsplits, alternative, hmem, suffix, hsuffix, rfl⟩)
    have hname' := (mem_expandedNames hmade').2 (.inl ⟨hstays, hsame.symm⟩)
    exact hothers.forall hoption hother hne hname hname'
  · intro hapart
    constructor
    · intro option hoption
      by_cases hsplits : ∃ alternatives, option.Splits alternatives
      · obtain ⟨alternatives, hsplits⟩ := hsplits
        obtain ⟨made, hmade⟩ := hok option hoption
        exact (nodup_expandedNames_iff hmade hsplits).2 (hapart option hoption alternatives hsplits).suffixes
      · rw [expandedNames_of_not_splits (not_exists.1 hsplits)]
        exact List.nodup_singleton _
    · exact (List.pairwise_map.1 hnames).imp_of_mem fun hoption hother hne =>
        disjoint_expandedNames hoption hother hok hapart hne

/-- Options with distinct names are expanded to options with distinct names unless two alternatives of one have the
same suffix, or one gets the name of an option that stays. -/
theorem nodup_names_expandOverloads_iff {method expanded : Member}
    (hnames : (method.optionProperties.map (·.name)).Nodup)
    (h : method.expandOverloads .separate = .ok expanded) :
    (expanded.optionProperties.map (·.name)).Nodup ↔
      (method.OneOptions → ∀ option ∈ method.optionProperties, ∀ alternatives, option.Splits alternatives →
        NamesApart method.optionProperties option alternatives) := by
  obtain ⟨options, hoptions, hperm⟩ := perm_naming_expandOverloads h
  have hsame : (expanded.optionProperties.map (·.name)).Perm (options.map (·.name)) := by
    have hfirst := hperm.map Prod.fst
    rwa [List.map_map, List.map_map] at hfirst
  rw [hsame.nodup_iff]
  split at hoptions
  · rename_i hone
    have hok : ∀ option ∈ method.optionProperties, ∃ made, expandOption .separate option = .ok made := by
      intro option hoption
      obtain ⟨made, hmade, -⟩ := exists_made_of_expandOptions hoptions hoption
      exact ⟨made, hmade⟩
    rw [names_expandOptions hoptions, nodup_flatMap_expandedNames hnames hok]
    exact ⟨fun h _ => h, fun h => h hone⟩
  · rename_i hone
    subst hoptions
    exact ⟨fun _ h => absurd h hone, fun _ => hnames⟩

/-- An option by a name that is longer than `x`. -/
def longerOption (name : String) : Member := Member.property name (ApiType.plain "int") false

/-- A method that documents an option `x` for a pattern, a text or nothing, and one by a longer name. -/
def longerMethod (name : String) : Member := optionMethod [optionOf patternUnion, longerOption name]

/-- No alternative is a function, so that the options that become of the first leave the name of the other. -/
theorem nodup_names_expandOverloads_longer :
    ((longerMethod "xFunc").optionProperties.map (·.name)).Nodup ∧
      ∃ expanded, (longerMethod "xFunc").expandOverloads .separate = .ok expanded ∧
        (expanded.optionProperties.map (·.name)).Nodup := by
  have hnames : ((longerMethod "xFunc").optionProperties.map (·.name)).Nodup := by decide
  obtain ⟨expanded, hexpanded⟩ : ∃ expanded, (longerMethod "xFunc").expandOverloads .separate = .ok expanded :=
    ⟨_, rfl⟩
  refine ⟨hnames, expanded, hexpanded, (nodup_names_expandOverloads_iff hnames hexpanded).2 ?_⟩
  intro _ option hoption alternatives hsplits
  have hoptions : (longerMethod "xFunc").optionProperties = [optionOf patternUnion, longerOption "xFunc"] := rfl
  rw [hoptions] at hoption ⊢
  rcases List.mem_pair.1 hoption with rfl | rfl
  · have halternatives : (optionOf patternUnion).Splits [ApiType.plain "RegExp", ApiType.plain "string"] :=
      splits_iff.2 rfl
    rw [splits_unique hsplits halternatives]
    refine ⟨by decide, ?_⟩
    intro alternative hmem suffix hsuffix other hother hstays hsame
    rcases List.mem_pair.1 hother with rfl | rfl
    · exact hstays _ halternatives
    · rcases List.mem_pair.1 hmem with rfl | rfl
      · cases hsuffix
        revert hsame
        decide
      · cases hsuffix
        revert hsame
        decide
  · cases splits_iff.1 hsplits

/-- An option for an object or for what can be serialized. -/
def serializableOption : Member :=
  optionOf (ApiType.ofAlternatives "" [ApiType.object [], ApiType.plain "Serializable"])

/-- An object and what can be serialized have one suffix, so that the two options for them have one name. -/
theorem names_expandOverloads_clash :
    ¬∀ method expanded : Member, (method.optionProperties.map (·.name)).Nodup →
      method.expandOverloads .separate = .ok expanded → (expanded.optionProperties.map (·.name)).Nodup := by
  intro hclaim
  obtain ⟨expanded, hexpanded, hnames⟩ : ∃ expanded,
      (optionMethod [serializableOption]).expandOverloads .separate = .ok expanded ∧
        expanded.optionProperties.map (·.name) = ["xObject", "xObject"] := ⟨_, rfl, by cbv⟩
  have hnodup := hclaim _ expanded (by decide) hexpanded
  rw [hnames] at hnodup
  revert hnodup
  decide

/-- An option for a text takes the name of one that is documented by it. -/
example : ∃ expanded, (longerMethod "xString").expandOverloads .separate = .ok expanded ∧
    expanded.optionProperties.map (·.name) = ["xRegex", "xString", "xString"] :=
  ⟨_, rfl, by cbv⟩

end Member

end RefPages
