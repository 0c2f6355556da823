/-
Options of C# methods. An option whose type is a union of unrelated types becomes one option for each
alternative other than null, every other option stays, and the options are sorted; it takes an
alternative without a suffix for this to fail. Alternatives are not looked into, so that an alternative
that is such a union itself is the type of an option afterwards.
-/
import RefPages.Proofs.Api.Available

namespace RefPages

/-! ## The options of a method -/

namespace Member

/-- With distinct names the last member of a name is the first. -/
theorem lastNamed?_eq_find? {members : List Member} (hdistinct : (members.map (·.name)).Nodup) (name : String) :
    lastNamed? name members = members.find? (·.name = name) := by
  induction members with
  | nil => rfl
  | cons member members ih =>
    rw [List.map_cons, List.nodup_cons] at hdistinct
    by_cases hname : member.name = name
    · have hnone : members.filter (·.name = name) = [] := by
        rw [List.filter_eq_nil_iff]
        intro other hother hsame
        exact hdistinct.1 (hname ▸ of_decide_eq_true hsame ▸ List.mem_map_of_mem hother)
      rw [lastNamed?, List.filter_cons_of_pos (by simpa using hname), hnone,
        List.find?_cons_of_pos (by simpa using hname), List.getLast?_singleton]
    · rw [List.find?_cons_of_neg (by simpa using hname), ← ih hdistinct.2, lastNamed?, lastNamed?,
        List.filter_cons_of_neg (by simpa using hname)]

theorem firstOptions?_eq {method : Member} (hdistinct : (method.args.map (·.name)).Nodup) :
    (firstOptions? method.args).getD [] = method.optionProperties := by
  rw [optionProperties, arg?, lastNamed?_eq_find? hdistinct]
  rfl

/-- Linking a member puts its options in order and links them. -/
theorem optionProperties_inClass (className : String) (member : Member) :
    (member.inClass className).optionProperties =
      (ApiType.sortByName member.optionProperties).map (belongingTo className (member.methodIn className)) := by
  have hlast : (member.inClass className).arg? "options" =
      (member.arg? "options").map (linkArg className (member.methodIn className)) := by
    rw [arg?, arg?, inClass_args, lastNamed?, lastNamed?, List.filter_map, List.getLast?_map]
    simp only [Function.comp_def, linkArg_name]
  have hoptions : ∀ arg : Member, ((arg.type.bind (·.properties)).getD []) = arg.options := fun _ => rfl
  rw [optionProperties, optionProperties, hlast]
  cases hown : member.arg? "options" with
  | none => simp [ApiType.sortByName]
  | some arg =>
    have hname : arg.name = "options" := by
      have hmem := List.mem_of_getLast? hown
      exact of_decide_eq_true (List.mem_filter.1 hmem).2
    rw [Option.map_some, Option.bind_some, Option.bind_some, hoptions, hoptions, options_linkArg hname]

theorem withOptions_names (options : List Member) (args : List Member) :
    (withOptions options args).map (·.name) = args.map (·.name) := by
  induction args with
  | nil => rfl
  | cons arg args ih =>
    rw [withOptions]
    split
    · rfl
    · rw [List.map_cons, List.map_cons, ih]

theorem firstOptions?_withOptions {options before : List Member} {args : List Member}
    (h : firstOptions? args = some before) : firstOptions? (withOptions options args) = some options := by
  induction args with
  | nil => cases h
  | cons arg args ih =>
    by_cases hname : arg.name = "options"
    · have htype : arg.type.bind (·.properties) = some before := by simpa [firstOptions?, hname] using h
      obtain ⟨type, htype, -⟩ := Option.bind_eq_some_iff.1 htype
      simp [withOptions, firstOptions?, hname, htype]
    · have hrest : firstOptions? args = some before := by simpa [firstOptions?, hname] using h
      have hsame := ih hrest
      simpa [withOptions, firstOptions?, hname] using hsame

/-- The options of a method are expanded as a list; in a class they are in order and linked. -/
theorem expandOverloads_eq_ok {style : OverloadStyle} {method seen : Member}
    (hdistinct : (method.args.map (·.name)).Nodup) (h : method.expandOverloads style = .ok seen) (className : String) :
    ∃ options, expandOptions style method.optionProperties = .ok options ∧
      (seen.inClass className).optionProperties =
        (ApiType.sortByName options).map (belongingTo className (method.methodIn className)) := by
  rw [← firstOptions?_eq hdistinct]
  unfold expandOverloads at h
  split at h
  · rename_i hnone
    cases h
    have hempty : method.optionProperties = [] := by rw [← firstOptions?_eq hdistinct, hnone, Option.getD_none]
    rw [hnone, optionProperties_inClass, hempty]
    exact ⟨[], rfl, rfl⟩
  · rename_i before hbefore
    obtain ⟨options, hoptions, h⟩ := bind_eq_ok.1 h
    cases h
    rw [hbefore]
    refine ⟨options, hoptions, ?_⟩
    have hnames : ((withOptions options method.args).map (·.name)).Nodup := by
      rw [withOptions_names]
      exact hdistinct
    have hsame := @firstOptions?_eq { method with args := withOptions options method.args } hnames
    rw [inClass_relink, optionProperties_inClass, ← hsame, firstOptions?_withOptions hbefore]
    rfl

theorem expandOverloads_eq_error {style : OverloadStyle} {method : Member} {fault : Fault}
    (hdistinct : (method.args.map (·.name)).Nodup) :
    method.expandOverloads style = .error fault ↔ expandOptions style method.optionProperties = .error fault := by
  rw [← firstOptions?_eq hdistinct]
  unfold expandOverloads
  cases firstOptions? method.args with
  | none => exact ⟨nofun, nofun⟩
  | some options =>
    dsimp only
    rw [bind_eq_error, Option.getD_some]
    exact ⟨fun h => h.resolve_right nofun, .inl⟩

end Member

/-! ## What becomes of an option -/

namespace Member

/-- The option has to become several: its type is a union, neither of one type and null nor with a
literal in it. These are its alternatives other than null. -/
def Splits (option : Member) (alternatives : List ApiType) : Prop :=
  ∃ type union, option.type = some type ∧ type.union = some union ∧ type.isNullable = false ∧
    (∀ alternative ∈ union, alternative.isLiteral = false) ∧ alternatives = union.filter (·.name ≠ "null")

/-- What becomes of an option: itself, or one option for each alternative, with name and label extended
by the suffix for the alternative. -/
inductive Becomes (option : Member) : List Member → Prop
  | same (h : ∀ alternatives, ¬option.Splits alternatives) : Becomes option [option]
  | several {alternatives : List ApiType} {made : List Member} (h : option.Splits alternatives)
    (hmade : List.Forall₂ (fun alternative one => ∃ suffix, overloadSuffix option.name alternative = .ok suffix ∧
      one = { option with
        name := option.name ++ suffix
        label := option.label ++ suffix
        type := some alternative
        overloadOf := some option.name }) alternatives made) : Becomes option made

theorem splits_iff {option : Member} {alternatives : List ApiType} :
    option.Splits alternatives ↔ option.alternatives? = some alternatives := by
  unfold alternatives?
  constructor
  · rintro ⟨type, union, htype, hunion, hnullable, hliteral, rfl⟩
    have hmixed : type.isMixedUnion = true := by
      unfold ApiType.isMixedUnion
      rw [hunion]
      simpa [hnullable] using hliteral
    rw [htype]
    dsimp only
    rw [if_pos hmixed, hunion, Option.map_some]
  · intro h
    split at h
    · rename_i type htype
      split at h
      · rename_i hmixed
        obtain ⟨union, hunion, rfl⟩ := Option.map_eq_some_iff.1 h
        unfold ApiType.isMixedUnion at hmixed
        rw [hunion] at hmixed
        have hparts : type.isNullable = false ∧ ∀ alternative ∈ union, alternative.isLiteral = false := by
          simpa using hmixed
        exact ⟨type, union, htype, hunion, hparts.1, hparts.2, rfl⟩
      · cases h
    · cases h

theorem splits_unique {option : Member} {alternatives others : List ApiType} (h : option.Splits alternatives)
    (h' : option.Splits others) : alternatives = others :=
  Option.some.inj ((splits_iff.1 h).symm.trans (splits_iff.1 h'))

theorem becomes_of_expandOption {option : Member} {made : List Member}
    (h : expandOption .separate option = .ok made) : option.Becomes made := by
  unfold expandOption at h
  split at h
  · rename_i hnone
    cases h
    refine .same fun alternatives hsplits => ?_
    rw [splits_iff, hnone] at hsplits
    cases hsplits
  · rename_i alternatives hsome
    obtain ⟨suffixes, hsuffixes, h⟩ := bind_eq_ok.1 h
    cases h
    refine .several (splits_iff.2 hsome) ?_
    replace hsuffixes := mapM_eq_ok.1 hsuffixes
    clear hsome h
    induction hsuffixes with
    | nil => exact .nil
    | @cons alternative suffix _ _ hsuffix _ ih =>
      rw [List.zipWith_cons_cons]
      exact .cons ⟨suffix, hsuffix, rfl⟩ ih

/-- An option has an alternative that its name cannot be extended for. -/
def Unsupported (option : Member) (alternative : ApiType) : Prop :=
  (∃ alternatives, option.Splits alternatives ∧ alternative ∈ alternatives) ∧
    ∀ suffix, overloadSuffix option.name alternative ≠ .ok suffix

/-- Without a suffix for an alternative there is no other fault. -/
theorem overloadSuffix_eq_error {option : String} {alternative : ApiType} {fault : Fault}
    (h : overloadSuffix option alternative = .error fault) : fault = .unsupportedOverload option alternative.name := by
  unfold overloadSuffix at h
  split at h <;> cases h
  rfl

theorem expandOption_eq_error {option : Member} {fault : Fault} (h : expandOption .separate option = .error fault) :
    ∃ alternative, option.Unsupported alternative ∧ fault = .unsupportedOverload option.name alternative.name := by
  unfold expandOption at h
  split at h
  · cases h
  · rename_i alternatives hsome
    rcases bind_eq_error.1 h with h | ⟨_, -, h⟩
    · obtain ⟨alternative, hmem, hsuffix⟩ := error_of_mapM h
      refine ⟨alternative, ⟨⟨alternatives, splits_iff.2 hsome, hmem⟩, fun suffix hok => ?_⟩,
        overloadSuffix_eq_error hsuffix⟩
      rw [hsuffix] at hok
      cases hok
    · cases h

theorem not_expandOption_of_unsupported {option : Member} {alternative : ApiType} (h : option.Unsupported alternative)
    (made : List Member) : expandOption .separate option ≠ .ok made := by
  intro hok
  obtain ⟨⟨alternatives, hsplits, hmem⟩, hnone⟩ := h
  cases becomes_of_expandOption hok with
  | same h => exact h alternatives hsplits
  | several h hmade =>
    rw [splits_unique hsplits h] at hmem
    obtain ⟨_, -, suffix, hsuffix, -⟩ := related_of_mem_left hmade hmem
    exact hnone suffix hsuffix

/-- An option that is left with a type to be split was made for such an alternative. -/
theorem splits_of_becomes {option made : Member} {group : List Member} (h : option.Becomes group) (hmade : made ∈ group)
    {others : List ApiType} (hothers : made.Splits others) :
    ∃ alternatives, option.Splits alternatives ∧ ∃ alternative ∈ alternatives,
      made.type = some alternative ∧ made.overloadOf = some option.name := by
  cases h with
  | same h =>
    rw [List.mem_singleton.1 hmade] at hothers
    exact absurd hothers (h others)
  | several h hgroup =>
    obtain ⟨alternative, hmem, suffix, -, rfl⟩ := related_of_mem_right hgroup hmade
    exact ⟨_, h, alternative, hmem, rfl, rfl⟩

end Member

/-! ## Methods in C# -/

namespace Member

/-- The options of the second method are what becomes of those of the first, sorted and linked to it. -/
structure ExpandedIn (className : String) (method seen : Member) : Prop where
  options : ∃ groups, List.Forall₂ Becomes method.optionProperties groups ∧
    seen.optionProperties.Perm
      (groups.flatten.map (belongingTo className (some (qualify className method.name))))
  sorted : seen.optionProperties.Pairwise fun first second => (Name.compareText first.name second.name).isLE = true
  /-- Only an alternative that is a union to be split gives an option to be split. -/
  left : ∀ made ∈ seen.optionProperties, ∀ others, made.Splits others →
    ∃ option ∈ method.optionProperties, ∃ alternatives, option.Splits alternatives ∧
      ∃ alternative ∈ alternatives, made.type = some alternative ∧ made.overloadOf = some option.name

theorem distinct_forLang {member : Member} (hargs : ArgsDistinct member.args) (lang : Lang) :
    ((member.forLang lang).args.map (·.name)).Nodup := by
  rw [forLang_eq]
  exact hargs.distinct_argsForLang

theorem expandedIn_of_inLang {member before : Member} (hargs : ArgsDistinct member.args)
    (hmethod : member.isMethod = true) (h : member.inLang .csharp .separate = .ok before) (className : String) :
    ExpandedIn className (member.forLang .csharp) (before.inClass className) := by
  have hsame : (member.forLang .csharp).isMethod = true := by
    rw [forLang_eq]
    exact hmethod
  unfold inLang at h
  dsimp only at h
  rw [if_pos ⟨rfl, hsame⟩] at h
  obtain ⟨options, hexpanded, hoptions⟩ := expandOverloads_eq_ok (distinct_forLang hargs .csharp) h className
  obtain ⟨groups, hgroups, hflat⟩ := bind_eq_ok.1 hexpanded
  cases hflat
  have hbecomes : List.Forall₂ Becomes (member.forLang .csharp).optionProperties groups :=
    (mapM_eq_ok.1 hgroups).imp fun _ _ => becomes_of_expandOption
  rw [methodIn, if_pos hsame] at hoptions
  refine ⟨⟨groups, hbecomes, ?_⟩, ?_, ?_⟩
  · rw [hoptions]
    exact (List.mergeSort_perm _ _).map _
  · rw [hoptions, List.pairwise_map]
    exact ApiType.pairwise_sortByName _
  · intro made hmade others hothers
    rw [hoptions] at hmade
    obtain ⟨unlinked, hunlinked, rfl⟩ := List.mem_map.1 hmade
    obtain ⟨group, hgroup, hmem⟩ := List.mem_flatten.1 (List.mem_mergeSort.1 hunlinked)
    obtain ⟨option, hoption, hgroup⟩ := related_of_mem_right hbecomes hgroup
    obtain ⟨alternatives, hsplits, hmade⟩ := splits_of_becomes hgroup hmem (show unlinked.Splits others from hothers)
    exact ⟨option, hoption, alternatives, hsplits, hmade⟩

theorem inLang_csharp_eq_error {member : Member} {fault : Fault} (hargs : ArgsDistinct member.args) :
    member.inLang .csharp .separate = .error fault ↔
      member.isMethod = true ∧ expandOptions .separate (member.forLang .csharp).optionProperties = .error fault := by
  have hsame : (member.forLang .csharp).isMethod = member.isMethod := by
    rw [forLang_eq]
    rfl
  unfold inLang
  dsimp only
  rw [hsame]
  split
  · rename_i hmethod
    rw [expandOverloads_eq_error (distinct_forLang hargs .csharp)]
    exact (and_iff_right hmethod.2).symm
  · rename_i hother
    exact ⟨nofun, fun h => absurd ⟨rfl, h.1⟩ hother⟩

theorem expandOptions_eq_error {options : List Member} {fault : Fault}
    (h : expandOptions .separate options = .error fault) :
    ∃ option ∈ options, ∃ alternative, option.Unsupported alternative ∧
      fault = .unsupportedOverload option.name alternative.name := by
  rcases bind_eq_error.1 h with h | ⟨_, -, h⟩
  · obtain ⟨option, hoption, hfault⟩ := error_of_mapM h
    exact ⟨option, hoption, expandOption_eq_error hfault⟩
  · cases h

theorem expandOptions_of_unsupported {options : List Member} {option : Member} {alternative : ApiType}
    (hoption : option ∈ options) (h : option.Unsupported alternative) :
    ∃ fault, expandOptions .separate options = .error fault := by
  cases hall : expandOptions .separate options with
  | error fault => exact ⟨fault, rfl⟩
  | ok made =>
    obtain ⟨groups, hgroups, -⟩ := bind_eq_ok.1 hall
    obtain ⟨group, -, hgroup⟩ := related_of_mem_left (mapM_eq_ok.1 hgroups) hoption
    exact absurd hgroup (not_expandOption_of_unsupported h group)

end Member

/-! ## Models in C# -/

namespace Model

/-- A method that C# has takes the option there, before options are expanded. -/
structure Offers (model : Model) (cls : ApiClass) (method option : Member) : Prop where
  cls_mem : cls ∈ model.classes.filter (·.langs.includes .csharp)
  method_mem : method ∈ cls.members.filter (·.langs.includes .csharp)
  isMethod : method.isMethod = true
  option_mem : option ∈ (method.forLang .csharp).optionProperties

theorem unsupported_of_fault {model : Model} (hmodel : model.Assembled) {fault : Fault}
    (h : model.inLang .csharp .separate = .error fault) :
    ∃ cls method option alternative, model.Offers cls method option ∧ option.Unsupported alternative ∧
      fault = .unsupportedOverload option.name alternative.name := by
  rcases bind_eq_error.1 h with h | ⟨_, -, h⟩
  · obtain ⟨cls, hcls, h⟩ := error_of_mapM h
    rcases bind_eq_error.1 h with h | ⟨_, -, h⟩
    · obtain ⟨method, hmethod, h⟩ := error_of_mapM h
      have hargs := hmodel.argsDistinct cls (List.mem_of_mem_filter hcls) method (List.mem_of_mem_filter hmethod)
      obtain ⟨hkind, h⟩ := (Member.inLang_csharp_eq_error hargs).1 h
      obtain ⟨option, hoption, alternative, hunsupported, hfault⟩ := Member.expandOptions_eq_error h
      exact ⟨cls, method, option, alternative, ⟨hcls, hmethod, hkind, hoption⟩, hunsupported, hfault⟩
    · cases h
  · cases h

theorem fault_of_unsupported {model : Model} (hmodel : model.Assembled) {cls : ApiClass} {method option : Member}
    {alternative : ApiType} (hoffers : model.Offers cls method option) (h : option.Unsupported alternative) :
    ∃ fault, model.inLang .csharp .separate = .error fault := by
  obtain ⟨hcls, hmethod, hkind, hoption⟩ := hoffers
  have hargs := hmodel.argsDistinct cls (List.mem_of_mem_filter hcls) method (List.mem_of_mem_filter hmethod)
  obtain ⟨first, hfirst⟩ := Member.expandOptions_of_unsupported hoption h
  obtain ⟨second, hsecond⟩ := mapM_error_of_mem hmethod ((Member.inLang_csharp_eq_error hargs).2 ⟨hkind, hfirst⟩)
  have hclass : cls.inLang .csharp .separate = .error second := bind_eq_error.2 (.inl hsecond)
  obtain ⟨third, hthird⟩ := mapM_error_of_mem hcls hclass
  exact ⟨third, bind_eq_error.2 (.inl hthird)⟩

/-- In the model for C# the options of every method are what becomes of its options one by one. There is
such a model unless an option that has to become several has an alternative without a suffix. -/
theorem inLang_csharp_expands {model : Model} (hmodel : model.Assembled) :
    (∀ filtered, model.inLang .csharp .separate = .ok filtered →
      List.Forall₂
        (fun cls kept => List.Forall₂
          (fun member seen => member.isMethod = true →
            Member.ExpandedIn cls.name (member.forLang .csharp) seen)
          (cls.members.filter (·.langs.includes .csharp)) kept.members)
        (model.classes.filter (·.langs.includes .csharp)) filtered.classes) ∧
      (∀ fault, model.inLang .csharp .separate = .error fault →
        ∃ cls method option alternative, model.Offers cls method option ∧ option.Unsupported alternative ∧
          fault = .unsupportedOverload option.name alternative.name) ∧
      ∀ cls method option alternative, model.Offers cls method option → option.Unsupported alternative →
        ∃ fault, model.inLang .csharp .separate = .error fault := by
  refine ⟨fun filtered hfiltered => ?_, fun fault => unsupported_of_fault hmodel,
    fun cls method option alternative => fault_of_unsupported hmodel⟩
  have hkept := kept_of_inLang hmodel hfiltered
  refine List.forall₂_iff_zip.2 ⟨hkept.length_eq, fun {cls kept} hmem => ?_⟩
  have hcls := List.mem_of_mem_filter (List.of_mem_zip hmem).1
  have hmembers := ((List.forall₂_iff_zip.1 hkept).2 hmem).2
  refine List.forall₂_iff_zip.2 ⟨hmembers.length_eq, fun {member seen} hmem hmethod => ?_⟩
  have hmember := List.mem_of_mem_filter (List.of_mem_zip hmem).1
  obtain ⟨before, hbefore, rfl⟩ := ((List.forall₂_iff_zip.1 hmembers).2 hmem).inLang
  exact Member.expandedIn_of_inLang (hmodel.argsDistinct cls hcls member hmember) hmethod hbefore cls.name

end Model

/-! ## A method with one option -/

/-- A line without anything below it documents a property of its type. -/
theorem readProperty_line {text : String} {line : TypeLine} {type : ApiType} (hline : TypeLine.read text = .ok line)
    (hcomment : line.comment = "") (htype : ApiType.parse line.expression [] = .ok type) :
    readProperty (.item .dash text []) = .ok (Member.property line.name type !line.optional) := by
  rw [readProperty, hline]
  refine bind_eq_ok.2 ⟨line, rfl, bind_eq_ok.2 ⟨Metadata.empty, rfl, bind_eq_ok.2 ⟨[], rfl, ?_⟩⟩⟩
  refine bind_eq_ok.2 ⟨type, htype, ?_⟩
  rw [hcomment]
  rfl

/-- The line that documents an option of a type. -/
def optionLine (expression : String) : Markup.Node := .item .dash ("`x` <" ++ expression ++ ">") []

/-- A method with the option. -/
def optionDocument (expression : String) : List Markup.Node :=
  [.heading 1 "class: A" [.heading 2 "method: A.a" [.heading 3 "option: A.a.x" [optionLine expression]]]]

/-- The option of a type. -/
def optionOf (type : ApiType) : Member := Member.property "x" type false

/-- An option made for an alternative of it. -/
def madeOption (name : String) (alternative : ApiType) : Member :=
  { Member.property name alternative false with overloadOf := some "x" }

/-- A method with these options. -/
def optionMethod (options : List Member) : Member :=
  { Member.ofName .method "a" (some (ApiType.plain "void")) with
    args := [Member.property "options" (ApiType.object options) false] }

/-- The model of the method. -/
def optionModel (options : List Member) : Model := ⟨[ApiClass.ofMembers "A" none [optionMethod options]]⟩

/-- What the heading of the option says. -/
theorem read_optionLine {expression : String} {type : ApiType}
    (hline : TypeLine.read ("`x` <" ++ expression ++ ">") = .ok ⟨"x", expression, "", false⟩)
    (htype : ApiType.parse expression [] = .ok type) :
    ArgumentDoc.read "option: A.a.x" [optionLine expression] =
      .ok ⟨"option: A.a.x", "A", "a", true, Member.property "x" type true⟩ := by
  have hwords : Text.splitOnce? [':', ' '] "option: A.a.x".toList = some ("option".toList, "A.a.x".toList) := by cbv
  have hoption : isOption? (String.ofList "option".toList) = some true := by cbv
  have hmethod : splitMethod? (Text.trim "A.a.x".toList) = some ("A", "a") := by cbv
  have hmetadata : Metadata.read [optionLine expression] = .ok Metadata.empty := rfl
  have hothers : Metadata.others [optionLine expression] = [optionLine expression] := rfl
  have hstart : isTypeLine (optionLine expression) = true := by
    rw [optionLine, isTypeLine, String.toList_append, String.toList_append]
    rfl
  unfold ArgumentDoc.read
  rw [hwords]
  dsimp only
  rw [hoption]
  dsimp only
  rw [hmethod]
  dsimp only
  rw [hmetadata, hothers, takeFirst, if_pos hstart]
  exact bind_eq_ok.2 ⟨_, rfl, bind_eq_ok.2 ⟨_, readProperty_line hline rfl htype, by cbv⟩⟩

theorem ofDocuments_optionDocument {expression : String} {type : ApiType}
    (hline : TypeLine.read ("`x` <" ++ expression ++ ">") = .ok ⟨"x", expression, "", false⟩)
    (htype : ApiType.parse expression [] = .ok type) :
    Model.ofDocuments [optionDocument expression] = .ok (optionModel [optionOf type]) := by
  have hmethod : Drafts.declare [] ⟨1, "class: A", []⟩ >>= (Drafts.declare · ⟨2, "method: A.a", []⟩) =
      .ok [{ ApiClass.ofMembers "A" none [] with
        members := [Member.ofName .method "a" (some (ApiType.plain "void"))] }] := by
    cbv
  obtain ⟨first, hclass, hmethod⟩ := bind_eq_ok.1 hmethod
  have hoption : Drafts.declare
        [{ ApiClass.ofMembers "A" none [] with members := [Member.ofName .method "a" (some (ApiType.plain "void"))] }]
        ⟨3, "option: A.a.x", [optionLine expression]⟩ =
      .ok [{ ApiClass.ofMembers "A" none [] with members := [optionMethod [optionOf type]] }] := by
    show Drafts.readArgument _ _ _ = _
    rw [Drafts.readArgument_eq, read_optionLine hline htype]
    cbv
  have hdrafts : [optionDocument expression].foldlM Drafts.feed [] =
      .ok [{ ApiClass.ofMembers "A" none [] with members := [optionMethod [optionOf type]] }] :=
    bind_eq_ok.2 ⟨_, bind_eq_ok.2 ⟨first, hclass, bind_eq_ok.2 ⟨_, hmethod, bind_eq_ok.2 ⟨_, hoption, rfl⟩⟩⟩, rfl⟩
  exact bind_eq_ok.2 ⟨_, hdrafts, rfl⟩

/-- A pattern, a text or nothing. -/
def patternUnion : ApiType :=
  ApiType.ofAlternatives "" [ApiType.plain "RegExp", ApiType.plain "string", ApiType.plain "null"]

theorem parse_patternUnion :
    ApiType.parse "RegExp|string|null" [] = .ok { patternUnion with expression := some "RegExp|string|null" } := by
  refine ApiType.parse_eq_ok.2 ⟨patternUnion, ?_, rfl⟩
  have hread : TypeExpr.read (TypeExpr.unescape "RegExp|string|null") =
      { TypeExpr.named "RegExp" with
        union := some { TypeExpr.named "string" with union := some (TypeExpr.named "null") } } := by cbv
  rw [hread]
  exact (ApiType.ofExpr_union rfl).2
    ⟨ApiType.plain "RegExp", [ApiType.plain "string", ApiType.plain "null"], by cbv, by cbv, by cbv, by cbv⟩

/-- A function of one argument. -/
def functionOf (argument : String) : ApiType :=
  { ApiType.plain "function" with args := some [ApiType.plain argument] }

/-- An enum whose literals have arguments is a union of functions. -/
def callbackEnum : ApiType := ApiType.ofAlternatives "string" [functionOf "b", functionOf "d"]

/-- A pattern or such an enum. -/
def callbackUnion : ApiType := ApiType.ofAlternatives "" [ApiType.plain "RegExp", callbackEnum]

theorem parse_callbackUnion :
    ApiType.parse "RegExp|string<\"a\"(b)|\"c\"(d)>" [] =
      .ok { callbackUnion with expression := some "RegExp|string<\"a\"(b)|\"c\"(d)>" } := by
  refine ApiType.parse_eq_ok.2 ⟨callbackUnion, ?_, rfl⟩
  have hread : TypeExpr.read (TypeExpr.unescape "RegExp|string<\"a\"(b)|\"c\"(d)>") =
      { TypeExpr.named "RegExp" with
        union := some { TypeExpr.named "\"a\"" with
          args := some (TypeExpr.named "b")
          union := some { TypeExpr.named "\"c\"" with args := some (TypeExpr.named "d") }
          unionName := some "string" } } := by cbv
  rw [hread]
  exact (ApiType.ofExpr_union rfl).2 ⟨ApiType.plain "RegExp", [callbackEnum], by cbv, by cbv, by cbv, by cbv⟩

namespace Model

/-- A method with an option for a pattern, a text or nothing. -/
def patternModel : Model := optionModel [optionOf { patternUnion with expression := some "RegExp|string|null" }]

/-- The method with one option for a pattern and one for a text. -/
def patternExpanded : Model :=
  optionModel [madeOption "xRegex" (ApiType.plain "RegExp"), madeOption "xString" (ApiType.plain "string")]

/-- The option for a pattern or a text becomes two, in the order of their names. -/
theorem inLang_csharp_expands_pattern :
    Model.ofDocuments [optionDocument "RegExp|string|null"] = .ok patternModel ∧
      patternModel.inLang .csharp .separate = .ok patternExpanded ∧
      List.Forall₂
        (fun cls kept => List.Forall₂
          (fun member seen => member.isMethod = true →
            Member.ExpandedIn cls.name (member.forLang .csharp) seen)
          (cls.members.filter (·.langs.includes .csharp)) kept.members)
        (patternModel.classes.filter (·.langs.includes .csharp)) patternExpanded.classes := by
  have hmodel : Model.ofDocuments [optionDocument "RegExp|string|null"] = .ok patternModel :=
    ofDocuments_optionDocument (by cbv) parse_patternUnion
  have hfiltered : patternModel.inLang .csharp .separate = .ok patternExpanded := by cbv
  exact ⟨hmodel, hfiltered, (inLang_csharp_expands (.ofDocuments hmodel)).1 patternExpanded hfiltered⟩

/-- Options with a type to be split can be left: an enum whose literals have arguments is an alternative
with a suffix, and it is such a union itself. -/
theorem csharp_union_left :
    ¬∀ model filtered : Model, model.Assembled → model.inLang .csharp .separate = .ok filtered →
      ∀ cls ∈ filtered.classes, ∀ method ∈ cls.members, method.isMethod = true →
        ∀ option ∈ method.optionProperties, ∀ alternatives, ¬option.Splits alternatives := by
  intro hclaim
  have hmodel : Model.ofDocuments [optionDocument "RegExp|string<\"a\"(b)|\"c\"(d)>"] =
      .ok (optionModel [optionOf { callbackUnion with expression := some "RegExp|string<\"a\"(b)|\"c\"(d)>" }]) :=
    ofDocuments_optionDocument (by cbv) parse_callbackUnion
  have hfiltered : (optionModel
        [optionOf { callbackUnion with
          expression := some "RegExp|string<\"a\"(b)|\"c\"(d)>" }]).inLang .csharp .separate =
      .ok (optionModel [madeOption "xRegex" (ApiType.plain "RegExp"), madeOption "xString" callbackEnum]) := by cbv
  have hoptions : ((optionMethod [madeOption "xRegex" (ApiType.plain "RegExp"),
        madeOption "xString" callbackEnum]).inClass "A").optionProperties =
      [(madeOption "xRegex" (ApiType.plain "RegExp")).belongingTo "A" (some "A.a"),
        (madeOption "xString" callbackEnum).belongingTo "A" (some "A.a")] := by cbv
  have hsplits : ((madeOption "xString" callbackEnum).belongingTo "A" (some "A.a")).Splits
      [functionOf "b", functionOf "d"] :=
    ⟨callbackEnum, _, rfl, rfl, by decide, by decide, rfl⟩
  refine hclaim _ _ (.ofDocuments hmodel) hfiltered _ List.mem_cons_self _ List.mem_cons_self rfl _ ?_ _ hsplits
  rw [hoptions]
  exact List.mem_cons_of_mem _ List.mem_cons_self

end Model

end RefPages
