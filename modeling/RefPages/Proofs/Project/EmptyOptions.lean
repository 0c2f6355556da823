/-
Methods of a language's model that announce options and have none. An argument for options is left
out when a language has none of its options, but this is looked at only once: options that are
expanded to nothing, and experimental options that are taken out later, leave the argument behind.
-/
import RefPages.Api.Equality
import RefPages.Project.Generate
import RefPages.Proofs.Api.Options

namespace RefPages

/-- Some method takes an argument for options, and there are no options. -/
def Model.HasEmptyOptions (model : Model) : Prop :=
  ∃ cls method arg, model.Takes cls method arg ∧ arg.isEmptyOptions = true

namespace Config

variable (config : Config)

/-- Pages hold what is experimental, or this is not. -/
def Keeps (experimental : Bool) : Prop := config.includeExperimental = true ∨ experimental = false

/-- Nothing is left of an option: it is experimental, or it is expanded for C# and has no
alternatives but null. -/
def Drops (lang : Lang) (option : Member) : Prop :=
  ¬ config.Keeps option.experimental ∨
    lang = .csharp ∧ config.overloadStyle = .separate ∧ option.alternatives? = some []

variable {config}

/-- No option is left in the form of an argument exactly when nothing is left of any option. -/
theorem isOptionsOf_inForm {lang : Lang} {method shown form : Member} (hmethod : method.isMethod = true)
    (h : Member.inForm lang config.overloadStyle method shown = .ok form) :
    form.IsOptionsOf (¬ config.Keeps ·) ↔
      shown.name = "options" ∧ ∀ option ∈ shown.options, config.Drops lang option := by
  unfold Member.IsOptionsOf
  rw [Member.name_inForm h]
  refine and_congr_right fun hname => ?_
  unfold Member.inForm at h
  split at h
  · rename_i hexpand
    obtain ⟨groups, hgroups, hoptions⟩ := Member.options_expandArg hname h
    have hgroup : ∀ {option group}, Member.expandOption config.overloadStyle option = .ok group →
        ((∀ made ∈ group, ¬ config.Keeps made.experimental) ↔ config.Drops lang option) := by
      intro option group hmade
      obtain ⟨hexperimental, hnil⟩ := Member.expandOption_eq_ok hmade
      constructor
      · intro hnone
        cases group with
        | nil => exact .inr ⟨hexpand.1, hnil.1 rfl⟩
        | cons made group =>
          refine .inl ?_
          rw [← hexperimental made List.mem_cons_self]
          exact hnone made List.mem_cons_self
      · rintro (hkeeps | ⟨-, hempty⟩) made hmem
        · rwa [hexperimental made hmem]
        · rw [hnil.2 hempty] at hmem
          cases hmem
    rw [hoptions]
    constructor
    · intro hnone option hoption
      obtain ⟨group, hmem, hmade⟩ := related_of_mem_left hgroups hoption
      exact (hgroup hmade).1 fun made hin => hnone made (List.mem_flatten.2 ⟨group, hmem, hin⟩)
    · intro hdrops made hmade
      obtain ⟨group, hmem, hin⟩ := List.mem_flatten.1 hmade
      obtain ⟨option, hoption, hexpanded⟩ := related_of_mem_right hgroups hmem
      exact (hgroup hexpanded).2 (hdrops option hoption) made hin
  · rename_i hplain
    cases h
    refine forall₂_congr fun option _ => ⟨.inl, ?_⟩
    rintro (hkeeps | ⟨hlang, -⟩)
    · exact hkeeps
    · exact absurd ⟨hlang, hmethod⟩ hplain

/-- An argument is left without options by a method of the filtered model that is kept, when it is
kept itself and none of its options is. -/
def LeavesEmpty (config : Config) (cls method : Bool) (arg : Member) : Prop :=
  config.Keeps cls ∧ config.Keeps method ∧ config.Keeps arg.experimental ∧
    arg.IsOptionsOf (¬ config.Keeps ·)

theorem leavesEmpty_linkArg (cls method : Bool) (className : String) (context : Option String)
    (arg : Member) :
    config.LeavesEmpty cls method (Member.linkArg className context arg) ↔
      config.LeavesEmpty cls method arg := by
  rw [LeavesEmpty, Member.linkArg_experimental, Member.isOptionsOf_linkArg, LeavesEmpty]

/-- The model of a language has empty options where the language's part of the model has options
that the settings leave none of. -/
theorem hasEmptyOptions_iff_leavesEmpty {lang : Lang} {base model : Model}
    (h : config.languageModel lang base = .ok model) :
    ∃ filtered, base.inLang lang config.overloadStyle = .ok filtered ∧
      (model.HasEmptyOptions ↔ ∃ cls method arg, filtered.Takes cls method arg ∧
        config.LeavesEmpty cls.experimental method.experimental arg) := by
  obtain ⟨filtered, hfiltered, h⟩ := bind_eq_ok.1 h
  refine ⟨filtered, hfiltered, ?_⟩
  cases hexperimental : config.includeExperimental with
  | true =>
    rw [hexperimental] at h
    cases h
    have hleaves : ∀ cls method arg, config.LeavesEmpty cls method arg ↔ arg.isEmptyOptions = true := by
      intro cls method arg
      rw [Member.isEmptyOptions_iff, List.eq_nil_iff_forall_not_mem]
      simp [LeavesEmpty, Member.IsOptionsOf, Keeps, hexperimental]
    simp only [hleaves]
    exact Iff.rfl
  | false =>
    rw [hexperimental] at h
    cases h
    have hleaves : ∀ cls method arg, config.LeavesEmpty cls method arg ↔
        cls = false ∧ method = false ∧ arg.experimental = false ∧ arg.IsOptionsOf (· = true) := by
      simp [LeavesEmpty, Member.IsOptionsOf, Keeps, hexperimental]
    simp only [hleaves]
    constructor
    · rintro ⟨kept, seen, _, htakes, hempty⟩
      obtain ⟨cls, method, arg, hbefore, hcls, hmethod, harg, rfl⟩ := Model.takes_stable.1 ⟨kept, seen, htakes⟩
      rw [Member.isEmptyOptions_linkArg, Member.isEmptyOptions_stable] at hempty
      exact ⟨cls, method, arg, hbefore, hcls, hmethod, harg, hempty⟩
    · rintro ⟨cls, method, arg, htakes, hcls, hmethod, harg, hempty⟩
      obtain ⟨kept, seen, htakes⟩ := Model.takes_stable.2 ⟨cls, method, arg, htakes, hcls, hmethod, harg, rfl⟩
      refine ⟨kept, seen, _, htakes, ?_⟩
      rwa [Member.isEmptyOptions_linkArg, Member.isEmptyOptions_stable]

/-- A method of a language's model announces options and has none exactly when the language has the
method with options, and each option is experimental and left out or is expanded to nothing. -/
theorem hasEmptyOptions_iff {lang : Lang} {base model : Model} (hbase : base.Assembled)
    (h : config.languageModel lang base = .ok model) :
    model.HasEmptyOptions ↔
      ∃ cls method options, base.Shows lang cls method options ∧ config.Keeps cls.experimental ∧
        config.Keeps method.experimental ∧ config.Keeps options.experimental ∧
        options.name = "options" ∧ ∀ option ∈ options.options, config.Drops lang option := by
  obtain ⟨filtered, hfiltered, hempty⟩ := hasEmptyOptions_iff_leavesEmpty h
  rw [hempty, Model.exists_takes_inLang hbase.argsDistinct hfiltered leavesEmpty_linkArg]
  constructor
  · rintro ⟨cls, method, shown, form, hshows, hform, hcls, hmethod, hexperimental, hoptions⟩
    rw [isOptionsOf_inForm hshows.isMethod hform] at hoptions
    rw [Member.experimental_inForm hform] at hexperimental
    exact ⟨cls, method, shown, hshows, hcls, hmethod, hexperimental, hoptions⟩
  · rintro ⟨cls, method, shown, hshows, hcls, hmethod, hexperimental, hoptions⟩
    -- the form exists, as the language's part of the model does
    obtain ⟨-, -, form, hform, -⟩ := hshows.takes hbase.argsDistinct hfiltered
    refine ⟨cls, method, shown, form, hshows, hform, hcls, hmethod, ?_, ?_⟩
    · rwa [Member.experimental_inForm hform]
    · rwa [isOptionsOf_inForm hshows.isMethod hform]

/-! ## A method with one option -/

/-- The option of a type, experimental or not. -/
def onlyOption (type : ApiType) (experimental : Bool) : Member :=
  { Member.property "x" type false with experimental }

/-- The argument for these options. -/
def optionsArg (options : List Member) : Member :=
  Member.linkArg "A" (some "A.a") (Member.property "options" (ApiType.object options) false)

/-- A method with these options. -/
def methodWithOptions (options : List Member) : Member :=
  { Member.ofName .method "a" (some (ApiType.plain "void")) with args := [optionsArg options] }

/-- The model of the method. -/
def modelWithOptions (options : List Member) : Model :=
  ⟨[ApiClass.ofMembers "A" none [methodWithOptions options]]⟩

/-- A type with no value but null, documented as a union. -/
def nullTwice : ApiType :=
  { ApiType.ofAlternatives "" [ApiType.plain "null", ApiType.plain "null"] with
    expression := some "[null]|[null]" }

/-- Even without anything experimental, the options of a C# method can all be expanded to nothing. -/
theorem hasEmptyOptions_null :
    Model.parse "# class: A\n## method: A.a\n### option: A.a.x\n- `x` <[null]|[null]>\n" =
        .ok (modelWithOptions [onlyOption nullTwice false]) ∧
      Config.standard.languageModel .csharp (modelWithOptions [onlyOption nullTwice false]) =
        .ok (modelWithOptions []) ∧
      (modelWithOptions []).HasEmptyOptions := by
  have hparse : Model.parse "# class: A\n## method: A.a\n### option: A.a.x\n- `x` <[null]|[null]>\n" =
      .ok (modelWithOptions [onlyOption nullTwice false]) := by
    refine bind_eq_ok.2 ⟨[.heading 1 "class: A" [.heading 2 "method: A.a" [.heading 3 "option: A.a.x"
      [.item .dash "`x` <[null]|[null]>" []]]]], ?_, by decide +kernel⟩
    exact (Markup.parse_of_toList String.toList_ofList).trans rfl
  have hmodel : Config.standard.languageModel .csharp (modelWithOptions [onlyOption nullTwice false]) =
      .ok (modelWithOptions []) := by
    decide +kernel
  obtain ⟨nodes, -, hdocuments⟩ := bind_eq_ok.1 hparse
  refine ⟨hparse, hmodel, (hasEmptyOptions_iff (.ofDocuments hdocuments) hmodel).2 ?_⟩
  have hshown : argsForLang .csharp ((methodWithOptions [onlyOption nullTwice false]).inClass "A").args =
      [optionsArg [onlyOption nullTwice false]] := by
    decide +kernel
  have hmem : optionsArg [onlyOption nullTwice false] ∈
      argsForLang .csharp ((methodWithOptions [onlyOption nullTwice false]).inClass "A").args := by
    rw [hshown]
    exact List.mem_cons_self
  have hoptions : (optionsArg [onlyOption nullTwice false]).options =
      [(onlyOption nullTwice false).belongingTo "A" (some "A.a")] := by
    decide +kernel
  refine ⟨_, _, optionsArg [onlyOption nullTwice false], ⟨List.mem_cons_self, rfl, List.mem_cons_self, rfl, rfl,
    hmem⟩, .inr rfl, .inr rfl, .inr rfl, rfl, fun option hoption => ?_⟩
  rw [hoptions] at hoption
  rw [List.mem_singleton.1 hoption]
  exact .inr ⟨rfl, rfl, by decide +kernel⟩

/-- The options of a method in any language can all be experimental. -/
theorem hasEmptyOptions_experimental :
    let string := { ApiType.plain "string" with expression := some "[string]" }
    Model.parse "# class: A\n## method: A.a\n### option: A.a.x\n* experimental\n- `x` <[string]>\n" =
        .ok (modelWithOptions [onlyOption string true]) ∧
      Config.standard.languageModel .java (modelWithOptions [onlyOption string true]) =
        .ok (modelWithOptions []) ∧
      (modelWithOptions []).HasEmptyOptions := by
  intro string
  refine ⟨bind_eq_ok.2 ⟨[.heading 1 "class: A" [.heading 2 "method: A.a" [.heading 3 "option: A.a.x"
    [.item .star "experimental" [], .item .dash "`x` <[string]>" []]]]], ?_, by decide +kernel⟩, by decide +kernel, ?_⟩
  · exact (Markup.parse_of_toList String.toList_ofList).trans rfl
  exact ⟨_, _, _, ⟨List.mem_cons_self, List.mem_cons_self, rfl, List.mem_cons_self⟩, by decide +kernel⟩

end Config

end RefPages
