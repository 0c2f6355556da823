/-
Options through the passes that make the model of a language: expanding leaves out options, the
stable filter leaves out options, and linking only puts them in order. When nothing is left, the
argument for options stays behind without any.
-/
import RefPages.Proofs.Api.Assembled
import RefPages.Proofs.Api.Forms
import RefPages.Proofs.Api.Stable

namespace RefPages

/-! ## Options of an argument -/

namespace Member

/-- The properties of the type of an argument. -/
def options (arg : Member) : List Member := (arg.type.bind (·.properties)).getD []

theorem isEmptyOptions_iff {arg : Member} :
    arg.isEmptyOptions = true ↔ arg.name = "options" ∧ arg.options = [] := by
  rw [isEmptyOptions, Bool.and_eq_true, decide_eq_true_eq, List.isEmpty_iff]
  rfl

/-- Linking puts the options in order and links them. -/
theorem options_linkArg {arg : Member} (h : arg.name = "options") (className : String)
    (method : Option String) :
    (linkArg className method arg).options =
      (ApiType.sortByName arg.options).map (belongingTo className method) := by
  have hname : (arg.belongingTo className method).name = "options" := h
  unfold linkArg options
  dsimp only
  rw [if_pos hname]
  cases htype : arg.type with
  | none => simp [belongingTo, htype, ApiType.sortByName]
  | some type =>
    cases hproperties : type.properties with
    | none => simp [belongingTo, htype, linkOptions, hproperties, ApiType.sortByName]
    | some properties => simp [belongingTo, htype, linkOptions, hproperties]

theorem options_stable (arg : Member) : arg.stable.options = stableMembers arg.options := by
  unfold options
  rw [type_stable]
  rcases arg.type with _ | ⟨name, properties, union, args, returns, templates, expression⟩
  · rfl
  · cases properties <;> rfl

/-- An argument for options of which every one passes a test on whether it is experimental. -/
def IsOptionsOf (test : Bool → Prop) (arg : Member) : Prop :=
  arg.name = "options" ∧ ∀ option ∈ arg.options, test option.experimental

theorem isEmptyOptions_linkArg (className : String) (method : Option String) (arg : Member) :
    (linkArg className method arg).isEmptyOptions = true ↔ arg.isEmptyOptions = true := by
  rw [isEmptyOptions_iff, isEmptyOptions_iff, linkArg_name]
  refine and_congr_right fun hname => ?_
  rw [options_linkArg hname, List.map_eq_nil_iff, ← List.length_eq_zero_iff, ApiType.sortByName,
    List.length_mergeSort, List.length_eq_zero_iff]

theorem isOptionsOf_linkArg (test : Bool → Prop) (className : String) (method : Option String)
    (arg : Member) : (linkArg className method arg).IsOptionsOf test ↔ arg.IsOptionsOf test := by
  unfold IsOptionsOf
  rw [linkArg_name]
  refine and_congr_right fun hname => ?_
  rw [options_linkArg hname]
  simp [ApiType.sortByName, List.mem_mergeSort, belongingTo]

/-- The stable filter leaves no options exactly when all of them are experimental. -/
theorem isEmptyOptions_stable (arg : Member) :
    arg.stable.isEmptyOptions = true ↔ arg.IsOptionsOf (· = true) := by
  have hname : arg.stable.name = arg.name := by
    cases arg
    rfl
  rw [isEmptyOptions_iff, hname, options_stable, stableMembers_eq, List.map_eq_nil_iff, List.filter_eq_nil_iff]
  simp [IsOptionsOf]

@[simp] theorem linkArg_experimental (className : String) (method : Option String) (arg : Member) :
    (linkArg className method arg).experimental = arg.experimental := by
  unfold linkArg
  dsimp only
  split <;> rfl

theorem experimental_inForm {lang : Lang} {style : OverloadStyle} {method arg form : Member}
    (h : inForm lang style method arg = .ok form) : form.experimental = arg.experimental := by
  unfold inForm expandArg at h
  split at h
  · split at h
    · split at h
      · cases h
        rfl
      · obtain ⟨options, -, h⟩ := bind_eq_ok.1 h
        cases h
        rfl
    · cases h
      rfl
  · cases h
    rfl

/-- What becomes of an option is as experimental as the option, and is nothing exactly when options
are separated and this one has no alternatives but null. -/
theorem expandOption_eq_ok {style : OverloadStyle} {option : Member} {group : List Member}
    (h : expandOption style option = .ok group) :
    (∀ made ∈ group, made.experimental = option.experimental) ∧
      (group = [] ↔ style = .separate ∧ option.alternatives? = some []) := by
  unfold expandOption at h
  split at h
  · rename_i hnone
    cases h
    simp [hnone]
  · rename_i alternatives halternatives
    obtain ⟨suffixes, hsuffixes, h⟩ := bind_eq_ok.1 h
    have hlength : alternatives.length = suffixes.length := (mapM_eq_ok.1 hsuffixes).length_eq
    cases style with
    | joined =>
      cases h
      simp
    | separate =>
      cases h
      constructor
      · intro made hmade
        rw [← List.map_uncurry_zip_eq_zipWith] at hmade
        obtain ⟨⟨alternative, suffix⟩, -, rfl⟩ := List.mem_map.1 hmade
        rfl
      · rw [List.zipWith_eq_nil_iff, halternatives, Option.some_inj]
        constructor
        · rintro (hnil | hnil)
          · exact ⟨rfl, hnil⟩
          · rw [hnil, List.length_nil, List.length_eq_zero_iff] at hlength
            exact ⟨rfl, hlength⟩
        · exact fun hnil => .inl hnil.2

/-- The options of an expanded argument are what becomes of its options one by one. -/
theorem options_expandArg {style : OverloadStyle} {arg form : Member} (hname : arg.name = "options")
    (h : arg.expandArg style = .ok form) :
    ∃ groups, List.Forall₂ (fun option group => expandOption style option = .ok group) arg.options groups ∧
      form.options = groups.flatten := by
  unfold expandArg at h
  rw [if_pos hname] at h
  unfold options
  cases hproperties : arg.type.bind (·.properties) with
  | none =>
    rw [hproperties] at h
    cases h
    rw [hproperties]
    exact ⟨[], .nil, rfl⟩
  | some properties =>
    rw [hproperties] at h
    obtain ⟨expanded, hexpanded, h⟩ := bind_eq_ok.1 h
    obtain ⟨groups, hgroups, hflat⟩ := bind_eq_ok.1 hexpanded
    cases hflat
    cases h
    obtain ⟨type, htype, -⟩ := Option.bind_eq_some_iff.1 hproperties
    rw [htype]
    exact ⟨groups, mapM_eq_ok.1 hgroups, rfl⟩

end Member

/-! ## Methods that take an argument -/

namespace Model

/-- A method of a class takes the argument. -/
structure Takes (model : Model) (cls : ApiClass) (method arg : Member) : Prop where
  cls_mem : cls ∈ model.classes
  method_mem : method ∈ cls.members
  isMethod : method.isMethod = true
  arg_mem : arg ∈ method.args

/-- A method that a language has shows an argument there. -/
structure Shows (model : Model) (lang : Lang) (cls : ApiClass) (method shown : Member) : Prop where
  cls_mem : cls ∈ model.classes
  cls_lang : cls.langs.includes lang = true
  method_mem : method ∈ cls.members
  method_lang : method.langs.includes lang = true
  isMethod : method.isMethod = true
  shown_mem : shown ∈ argsForLang lang method.args

variable {model filtered : Model} {lang : Lang} {style : OverloadStyle}

/-- The arguments in the model of a language come from those that it shows. -/
theorem Takes.of_inLang (hdistinct : model.Everywhere fun member => ArgsDistinct member.args)
    (h : model.inLang lang style = .ok filtered) {kept : ApiClass} {seen arg : Member}
    (htakes : filtered.Takes kept seen arg) :
    ∃ cls method shown form, model.Shows lang cls method shown ∧
      Member.inForm lang style method shown = .ok form ∧
      kept.experimental = cls.experimental ∧ seen.experimental = method.experimental ∧
      arg = Member.linkArg cls.name (method.methodIn cls.name) form := by
  obtain ⟨cls, hmem, hkept⟩ := related_of_mem_right (inLang_eq_ok h) htakes.cls_mem
  obtain ⟨hcls, hclass⟩ := List.mem_filter.1 hmem
  obtain ⟨members, hmembers, -, hexperimental, hlinked⟩ := ApiClass.inLang_eq_ok hkept
  have hseen := htakes.method_mem
  rw [hlinked] at hseen
  obtain ⟨before, hbefore, rfl⟩ := List.mem_map.1 hseen
  obtain ⟨method, hmem, hinLang⟩ := related_of_mem_right hmembers hbefore
  obtain ⟨hmethod, hlang⟩ := List.mem_filter.1 hmem
  obtain ⟨args, hforms, hargs, hisMethod, hsame⟩ :=
    Member.inLang_eq_ok (hdistinct cls hcls method hmethod) hinLang cls.name
  have harg := htakes.arg_mem
  rw [hargs] at harg
  obtain ⟨form, hform, rfl⟩ := List.mem_map.1 harg
  obtain ⟨shown, hshown, hinForm⟩ := related_of_mem_right hforms hform
  exact ⟨cls, method, shown, form,
    ⟨hcls, hclass, hmethod, hlang, hisMethod ▸ htakes.isMethod, hshown⟩, hinForm, hexperimental, hsame, rfl⟩

/-- What a language shows is in its model. -/
theorem Shows.takes (hdistinct : model.Everywhere fun member => ArgsDistinct member.args)
    (h : model.inLang lang style = .ok filtered) {cls : ApiClass} {method shown : Member}
    (hshows : model.Shows lang cls method shown) :
    ∃ kept seen form, Member.inForm lang style method shown = .ok form ∧
      filtered.Takes kept seen (Member.linkArg cls.name (method.methodIn cls.name) form) ∧
      kept.experimental = cls.experimental ∧ seen.experimental = method.experimental := by
  obtain ⟨hcls, hclass, hmethod, hlang, hisMethod, hshown⟩ := hshows
  obtain ⟨kept, hmem, hkept⟩ := related_of_mem_left (inLang_eq_ok h) (List.mem_filter.2 ⟨hcls, hclass⟩)
  obtain ⟨members, hmembers, -, hexperimental, hlinked⟩ := ApiClass.inLang_eq_ok hkept
  obtain ⟨seen, hseen, hinLang⟩ := related_of_mem_left hmembers (List.mem_filter.2 ⟨hmethod, hlang⟩)
  obtain ⟨args, hforms, hargs, hsameKind, hsame⟩ :=
    Member.inLang_eq_ok (hdistinct cls hcls method hmethod) hinLang cls.name
  obtain ⟨form, hform, hinForm⟩ := related_of_mem_left hforms hshown
  refine ⟨kept, seen.inClass cls.name, form, hinForm, ⟨hmem, ?_, hsameKind.trans hisMethod, ?_⟩, hexperimental, hsame⟩
  · rw [hlinked]
    exact List.mem_map_of_mem hseen
  · rw [hargs]
    exact List.mem_map_of_mem hform

/-- What does not depend on links holds of an argument in the model of a language exactly when it
holds of the form of an argument that the language shows. -/
theorem exists_takes_inLang (hdistinct : model.Everywhere fun member => ArgsDistinct member.args)
    (h : model.inLang lang style = .ok filtered) {P : Bool → Bool → Member → Prop}
    (hlink : ∀ cls method className context arg,
      P cls method (Member.linkArg className context arg) ↔ P cls method arg) :
    (∃ kept seen arg, filtered.Takes kept seen arg ∧ P kept.experimental seen.experimental arg) ↔
      ∃ cls method shown form, model.Shows lang cls method shown ∧
        Member.inForm lang style method shown = .ok form ∧ P cls.experimental method.experimental form := by
  constructor
  · rintro ⟨kept, seen, arg, htakes, hP⟩
    obtain ⟨cls, method, shown, form, hshows, hform, hcls, hmethod, rfl⟩ := htakes.of_inLang hdistinct h
    rw [hlink, hcls, hmethod] at hP
    exact ⟨cls, method, shown, form, hshows, hform, hP⟩
  · rintro ⟨cls, method, shown, form, hshows, hform, hP⟩
    obtain ⟨kept, seen, form', hform', htakes, hcls, hmethod⟩ := hshows.takes hdistinct h
    obtain rfl : form = form' := Except.ok.inj (hform.symm.trans hform')
    refine ⟨kept, seen, _, htakes, ?_⟩
    rwa [hlink, hcls, hmethod]

/-- The arguments in a filtered model are those that are in no way experimental. -/
theorem takes_stable {arg : Member} :
    (∃ kept seen, model.stable.Takes kept seen arg) ↔
      ∃ cls method before, model.Takes cls method before ∧ cls.experimental = false ∧
        method.experimental = false ∧ before.experimental = false ∧
        arg = Member.linkArg cls.name (method.stable.methodIn cls.name) before.stable := by
  constructor
  · rintro ⟨kept, seen, hkept, hseen, hmethod, harg⟩
    obtain ⟨cls, hcls, hclsStable, rfl⟩ := mem_stable.1 hkept
    obtain ⟨method, hmem, hstable, rfl⟩ := mem_members_stable.1 hseen
    rw [Member.inClass_args] at harg
    obtain ⟨_, hstableArg, rfl⟩ := List.mem_map.1 harg
    obtain ⟨before, hbefore, hargStable, rfl⟩ := Member.mem_args_stable.1 hstableArg
    refine ⟨cls, method, before, ⟨hcls, hmem, ?_, hbefore⟩, hclsStable, hstable, hargStable, rfl⟩
    cases method
    exact hmethod
  · rintro ⟨cls, method, before, ⟨hcls, hmem, hmethod, hbefore⟩, hclsStable, hstable, hargStable, rfl⟩
    refine ⟨_, _, mem_stable.2 ⟨cls, hcls, hclsStable, rfl⟩, mem_members_stable.2 ⟨method, hmem, hstable, rfl⟩, ?_, ?_⟩
    · cases method
      exact hmethod
    · rw [Member.inClass_args]
      exact List.mem_map_of_mem (Member.mem_args_stable.2 ⟨before, hbefore, hargStable, rfl⟩)

end Model

end RefPages
