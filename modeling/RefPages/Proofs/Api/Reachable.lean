/-
Reachable models. Every pass over a model with tables is the pass over the plain model, and leaves the
tables in a state in which lookups find what is there.
-/
import RefPages.Proofs.Api.Indexed

namespace RefPages

/-! ## Looking up with and without tables -/

section

variable {model : IndexedModel}

namespace IndexedClass

/-- The tables find the members that are found without them. -/
theorem Consistent.contents_member? {cls : IndexedClass} (h : cls.Consistent) (name : String) :
    (cls.member? name).map (·.member) = cls.contents.member? name := by
  rw [h.member, ApiClass.member?, lastNamed?, contents, List.filter_map, List.getLast?_map]
  rfl

theorem Consistent.inherited {cls : IndexedClass} (h : cls.Consistent) (base : IndexedClass) :
    Model.inherited cls.contents base.contents =
      ((cls.inherited base).1.map (·.member), (cls.inherited base).2) := by
  have hsome : ∀ name, (cls.contents.member? name).isSome = (cls.member? name).isSome := fun name => by
    rw [← h.contents_member?, Option.isSome_map]
  have hmembers : base.contents.members = base.members.map (·.member) := rfl
  simp only [Model.inherited, IndexedClass.inherited, List.partition_eq_filter_filter, hmembers, List.filter_map, hsome,
    List.map_map]
  rfl

end IndexedClass

namespace IndexedModel

theorem Consistent.contents_class? (h : model.Consistent) (name : String) :
    (model.class? name).map (·.contents) = model.contents.class? name := by
  rw [h.cls, Model.class?, contents, List.filter_map, List.getLast?_map]
  rfl

/-! ## Handing down members -/

theorem Consistent.depthFrom (h : model.Consistent) (unseen : List String) (cls : IndexedClass) :
    model.contents.depthFrom unseen cls.contents = model.depthFrom unseen cls := by
  have hbase : ∀ cls : IndexedClass, cls.contents.base?.bind model.contents.class? =
      (cls.contents.base?.bind model.class?).map (·.contents) := fun cls => by
    cases cls.contents.base? with
    | none => rfl
    | some name => exact (h.contents_class? name).symm
  fun_induction IndexedModel.depthFrom model unseen cls with
  | case1 unseen cls hnone =>
    rw [Model.depthFrom, hbase, hnone]
    rfl
  | case2 unseen cls base hsome hunseen ih =>
    rw [Model.depthFrom, hbase, hsome]
    exact (dif_pos hunseen).trans (congrArg (1 + ·) ih)
  | case3 unseen cls base hsome hseen =>
    rw [Model.depthFrom, hbase, hsome]
    exact dif_neg hseen

theorem Consistent.inheritanceOrder (h : model.Consistent) :
    model.contents.inheritanceOrder = model.inheritanceOrder := by
  have hnames : model.contents.classes.map (·.name) = model.classes.map (·.name) := List.map_map
  have hdepths : model.contents.classes.map model.contents.depth = model.classes.map model.depth := by
    refine List.map_map.trans (List.map_congr_left fun cls _ => ?_)
    exact (congrArg (model.contents.depthFrom · cls.contents) hnames).trans (h.depthFrom _ cls)
  have hlength : model.contents.classes.length = model.classes.length := List.length_map _
  unfold Model.inheritanceOrder IndexedModel.inheritanceOrder
  rw [hdepths, hlength]

/-- A class in its place can be changed: names and the table of the classes stay. -/
theorem Built.set (h : model.Built) {position : Nat} {cls changed : IndexedClass}
    (hcls : model.classes[position]? = some cls) (hname : changed.name = cls.name) (hchanged : changed.Built) :
    Built { model with classes := model.classes.set position changed } := by
  refine ⟨fun other hother => ?_, ?_⟩
  · rcases List.mem_or_eq_of_mem_set hother with hother | rfl
    · exact h.classes other hother
    · exact hchanged
  · have hplace : (model.classes.map (·.name))[position]? = some cls.name := by
      rw [List.getElem?_map, hcls, Option.map_some]
    have hnames : (model.classes.set position changed).map (·.name) = model.classes.map (·.name) := by
      obtain ⟨hlt, hget⟩ := List.getElem?_eq_some_iff.1 hplace
      rw [List.map_set, hname, ← hget, List.set_getElem_self]
    show model.index = _
    rw [hnames, h.index]

theorem Built.inheritAt (h : model.Built) (position : Nat) :
    (model.inheritAt position).1.Built ∧
      model.contents.inheritAt position = ((model.inheritAt position).1.contents, (model.inheritAt position).2) := by
  have hplace : model.contents.classes[position]? = model.classes[position]?.map (·.contents) := List.getElem?_map
  unfold Model.inheritAt IndexedModel.inheritAt
  rw [hplace]
  cases hcls : model.classes[position]? with
  | none => exact ⟨h, rfl⟩
  | some cls =>
    dsimp only [Option.map_some]
    cases hbase : cls.contents.base? with
    | none => exact ⟨h, rfl⟩
    | some baseName =>
      dsimp only
      rw [← h.consistent.contents_class?]
      cases hfound : model.class? baseName with
      | none => exact ⟨h, rfl⟩
      | some base =>
        dsimp only [Option.map_some]
        have hinherited := (h.classes cls (List.mem_of_getElem? hcls)).consistent.inherited base
        rw [hinherited]
        dsimp only
        refine ⟨h.set hcls rfl (IndexedClass.built_rebuild _), ?_⟩
        rw [contents, contents, List.map_set, IndexedClass.contents_append]

/-- The class at a position is dealt with, and what is wrong there is put down. -/
def inheritStep (state : IndexedModel × List Diagnostic) (position : Nat) : IndexedModel × List Diagnostic :=
  ((state.1.inheritAt position).1, state.2 ++ (state.1.inheritAt position).2)

theorem Built.foldl_inheritStep {state : IndexedModel × List Diagnostic} (h : state.1.Built) (positions : List Nat) :
    positions.foldl Model.inheritStep (state.1.contents, state.2) =
      ((positions.foldl inheritStep state).1.contents, (positions.foldl inheritStep state).2) := by
  induction positions generalizing state with
  | nil => rfl
  | cons position positions ih =>
    obtain ⟨hbuilt, hcontents⟩ := h.inheritAt position
    have hstep : Model.inheritStep (state.1.contents, state.2) position =
        ((inheritStep state position).1.contents, (inheritStep state position).2) := by
      rw [Model.inheritStep, hcontents]
      rfl
    rw [List.foldl_cons, List.foldl_cons, hstep]
    exact @ih (inheritStep state position) hbuilt

/-- Handing down members with the tables finds the same and gives the same as without them. -/
theorem Built.inherit (h : model.Built) :
    model.inherit.1.Built ∧ model.contents.inherit = (model.inherit.1.contents, model.inherit.2) := by
  refine ⟨built_ofClasses _, ?_⟩
  have hfindings : model.contents.classes.flatMap (·.orderFindings) =
      model.classes.flatMap (·.contents.orderFindings) := List.flatMap_map ..
  rw [Model.inherit_eq_foldl, h.consistent.inheritanceOrder, hfindings,
    @Built.foldl_inheritStep (model, _) h model.inheritanceOrder]
  exact congrArg (·, _) (contents_ofClasses _).symm

/-! ## The view of a language -/

end IndexedModel

namespace IndexedClass

theorem contents_inLang (lang : Lang) (style : OverloadStyle) (cls : IndexedClass) :
    cls.contents.inLang lang style = (cls.inLang lang style).map (·.contents) := by
  have hfilter : cls.contents.members.filter (·.langs.includes lang) =
      (cls.members.filter (·.member.langs.includes lang)).map (·.member) := List.filter_map
  -- the members are linked to themselves before they are linked to the class, which counts
  have hmember : ∀ indexed : IndexedMember, (indexed.member.inLang lang style).map (Member.inClass cls.name) =
      (indexed.inLang lang style).map fun seen => seen.member.inClass cls.name := fun indexed => by
    unfold IndexedMember.inLang
    cases indexed.member.inLang lang style with
    | error fault => rfl
    | ok seen => exact congrArg Except.ok (Member.inClass_relink cls.name seen).symm
  have hall := map_mapM_eq fun indexed (_ : indexed ∈ cls.members.filter (·.member.langs.includes lang)) =>
    hmember indexed
  unfold ApiClass.inLang IndexedClass.inLang
  rw [hfilter]
  generalize ((cls.members.filter (·.member.langs.includes lang)).map (·.member)).mapM (Member.inLang lang style) =
    plain, (cls.members.filter (·.member.langs.includes lang)).mapM (IndexedMember.inLang lang style) = members at hall
  rcases plain with fault | plain <;> rcases members with fault' | members
  · cases hall
    rfl
  · cases hall
  · cases hall
  · let shown : IndexedClass := { cls with label := (cls.langs.labels.get? lang).getD cls.label }
    exact congrArg Except.ok (@contents_setMembers shown members plain (Except.ok.inj hall).symm).symm

theorem contents_stable (cls : IndexedClass) : cls.stable.contents = cls.contents.updateMembers stableMembers := by
  refine contents_updateMembers ?_
  rw [stableMembers_eq, List.filter_map, List.map_map, List.map_map, List.map_map]
  refine List.map_congr_left fun indexed _ => ?_
  exact Member.inClass_relink cls.name indexed.member.stable

end IndexedClass

namespace IndexedModel

theorem contents_inLang (lang : Lang) (style : OverloadStyle) (model : IndexedModel) :
    model.contents.inLang lang style = (model.inLang lang style).map contents := by
  have hfilter : model.contents.classes.filter (·.langs.includes lang) =
      (model.classes.filter (·.langs.includes lang)).map (·.contents) := List.filter_map
  unfold Model.inLang IndexedModel.inLang
  rw [hfilter, mapM_map_eq (IndexedClass.contents_inLang lang style)]
  cases (model.classes.filter (·.langs.includes lang)).mapM (IndexedClass.inLang lang style) with
  | error fault => rfl
  | ok classes => exact congrArg Except.ok (contents_ofClasses classes).symm

theorem contents_stable (model : IndexedModel) : model.stable.contents = model.contents.stable := by
  have hfilter : model.contents.classes.filter (!·.experimental) =
      (model.classes.filter (!·.experimental)).map (·.contents) := List.filter_map
  unfold IndexedModel.stable Model.stable
  rw [contents_ofClasses, hfilter, List.map_map, List.map_map]
  exact congrArg (fun classes => Model.relink ⟨classes⟩) (List.map_congr_left fun cls _ => cls.contents_stable)

end IndexedModel

/-! ## Resolving references -/

variable {render : LinkRenderer} {table : LinkTable}

/-- The table of the arguments finds the options whose names are shown. -/
theorem IndexedMember.Consistent.linkContext {indexed : IndexedMember} (h : indexed.Consistent) :
    indexed.linkContext = LinkContext.ofMethod indexed.member := by
  have hoptions : indexed.optionProperties = indexed.member.optionProperties := by
    rw [IndexedMember.optionProperties, Member.optionProperties, h.arg]
    rfl
  rw [IndexedMember.linkContext, hoptions]
  rfl

theorem IndexedMember.Consistent.resolveLinks {indexed : IndexedMember} (h : indexed.Consistent) :
    indexed.member.resolveLinks render table = (indexed.resolveLinks render table).map (·.member) := by
  unfold Member.resolveLinks IndexedMember.resolveLinks
  rw [h.linkContext, map_bind_eq]
  refine bind_congr fun member => ?_
  rw [map_bind_eq]
  rfl

theorem IndexedClass.Consistent.resolveLinks {cls : IndexedClass} (h : cls.Consistent) :
    cls.contents.resolveLinks render table = (cls.resolveLinks render table).map (·.contents) := by
  have hmembers : cls.contents.members.mapM (Member.resolveLinks render table) =
      (cls.members.mapM (IndexedMember.resolveLinks render table)).map (·.map (·.member)) :=
    mapM_map_eq_of_mem fun indexed hindexed => (h.members indexed hindexed).resolveLinks
  unfold ApiClass.resolveLinks IndexedClass.resolveLinks
  rw [hmembers, map_bind_eq]
  refine bind_congr fun docs => ?_
  rw [map_bind_eq, bind_map_eq]
  refine bind_congr fun members => ?_
  let resolved : IndexedClass := { cls with docs }
  refine congrArg Except.ok (@IndexedClass.contents_setMembers resolved members _ ?_).symm
  rw [List.map_map]
  rfl

theorem IndexedClass.built_resolveLinks {cls resolved : IndexedClass}
    (h : cls.resolveLinks render table = .ok resolved) :
    resolved.Built ∧ resolved.name = cls.name := by
  obtain ⟨docs, -, h⟩ := bind_eq_ok.1 h
  obtain ⟨members, -, h⟩ := bind_eq_ok.1 h
  cases h
  exact ⟨IndexedClass.built_rebuild _, rfl⟩

namespace IndexedModel

theorem Consistent.resolveLinks (h : model.Consistent) :
    model.contents.resolveLinks render = (model.resolveLinks render).map contents := by
  have hclasses : model.contents.classes.mapM (ApiClass.resolveLinks render (.ofModel render model.contents)) =
      (model.classes.mapM (IndexedClass.resolveLinks render (.ofModel render model.contents))).map
        (·.map (·.contents)) :=
    mapM_map_eq_of_mem fun cls hcls => (h.classes cls hcls).resolveLinks
  unfold Model.resolveLinks IndexedModel.resolveLinks
  rw [hclasses, map_bind_eq, bind_map_eq]
  rfl

/-- The table of the classes is not made anew, and it does not have to be. -/
theorem Built.resolveLinks (h : model.Built) {resolved : IndexedModel}
    (hresolved : model.resolveLinks render = .ok resolved) :
    resolved.Built := by
  obtain ⟨classes, hclasses, hresolved⟩ := bind_eq_ok.1 hresolved
  cases hresolved
  rw [mapM_eq_ok] at hclasses
  refine ⟨fun cls hcls => ?_, ?_⟩
  · obtain ⟨before, -, hbefore⟩ := related_of_mem_right hclasses hcls
    exact (IndexedClass.built_resolveLinks hbefore).1
  · have hnames : model.classes.map (·.name) = classes.map (·.name) := by
      rw [← List.forall₂_eq_eq_eq, List.forall₂_map_left_iff, List.forall₂_map_right_iff]
      exact hclasses.imp fun before cls hbefore => (IndexedClass.built_resolveLinks hbefore).2.symm
    show model.index = _
    rw [h.index, hnames]

/-! ## Reachable models -/

/-- The models that texts declare, with members, classes and comments changed by any passes. -/
inductive Reachable : IndexedModel → Prop
  | parse {text : String} {model : IndexedModel} (h : IndexedModel.parse text = .ok model) : Reachable model
  | merge {first second : IndexedModel} (hfirst : Reachable first) (hsecond : Reachable second) :
    Reachable (first.merge second)
  | inherit {model : IndexedModel} (h : Reachable model) : Reachable model.inherit.1
  | inLang {model seen : IndexedModel} (h : Reachable model) {lang : Lang} {style : OverloadStyle}
    (hseen : model.inLang lang style = .ok seen) : Reachable seen
  | stable {model : IndexedModel} (h : Reachable model) : Reachable model.stable
  | resolveLinks {model resolved : IndexedModel} (h : Reachable model) {render : LinkRenderer}
    (hresolved : model.resolveLinks render = .ok resolved) : Reachable resolved

end IndexedModel

/-- The models that texts declare, without tables, changed by any passes. -/
inductive Model.Reachable : Model → Prop
  | parse {text : String} {model : Model} (h : Model.parse text = .ok model) : Reachable model
  | merge {first second : Model} (hfirst : Reachable first) (hsecond : Reachable second) :
    Reachable (first.merge second)
  | inherit {model : Model} (h : Reachable model) : Reachable model.inherit.1
  | inLang {model seen : Model} (h : Reachable model) {lang : Lang} {style : OverloadStyle}
    (hseen : model.inLang lang style = .ok seen) : Reachable seen
  | stable {model : Model} (h : Reachable model) : Reachable model.stable
  | resolveLinks {model resolved : Model} (h : Reachable model) {render : LinkRenderer}
    (hresolved : model.resolveLinks render = .ok resolved) : Reachable resolved

/-- A change to the members of a class from outside. -/
inductive ClassChange where
  | push (member : IndexedMember)
  | set (members : List IndexedMember)
  | update (change : List IndexedMember → List IndexedMember)

/-- The class after the change. -/
def ClassChange.apply (cls : IndexedClass) : ClassChange → IndexedClass
  | push member => cls.pushMember member
  | set members => cls.setMembers members
  | update change => cls.updateMembers change

theorem ClassChange.built_apply (cls : IndexedClass) (change : ClassChange) : (change.apply cls).Built := by
  cases change <;> exact IndexedClass.built_rebuild _

theorem IndexedClass.Built.foldl_apply {cls : IndexedClass} (h : cls.Built) (changes : List ClassChange) :
    (changes.foldl ClassChange.apply cls).Built := by
  induction changes generalizing cls with
  | nil => exact h
  | cons change changes ih => exact ih (change.built_apply cls)

namespace IndexedModel

theorem Reachable.built (h : model.Reachable) : model.Built := by
  induction h with
  | parse h =>
    obtain ⟨model, -, h⟩ := bind_eq_ok.1 h
    cases h
    exact built_ofClasses _
  | merge => exact built_ofClasses _
  | inherit => exact built_ofClasses _
  | inLang _ hseen =>
    obtain ⟨classes, -, hseen⟩ := bind_eq_ok.1 hseen
    cases hseen
    exact built_ofClasses _
  | stable => exact built_ofClasses _
  | resolveLinks _ hresolved ih => exact ih.resolveLinks hresolved

/-- Without its tables a reachable model is reached by the same passes. -/
theorem Reachable.contents (h : model.Reachable) : model.contents.Reachable := by
  induction h with
  | @parse text model h =>
    refine @Model.Reachable.parse text _ ?_
    rw [← contents_parse, h]
    rfl
  | @merge first second _ _ ihFirst ihSecond =>
    rw [contents_merge]
    exact ihFirst.merge ihSecond
  | @inherit model hmodel ih =>
    have := ih.inherit
    rwa [hmodel.built.inherit.2] at this
  | @inLang model seen _ lang style hseen ih =>
    refine @Model.Reachable.inLang _ _ ih lang style ?_
    rw [contents_inLang lang style, hseen]
    rfl
  | @stable model _ ih =>
    rw [contents_stable]
    exact ih.stable
  | @resolveLinks model resolved hmodel render hresolved ih =>
    refine @Model.Reachable.resolveLinks _ _ ih render ?_
    rw [hmodel.built.consistent.resolveLinks, hresolved]
    rfl

end IndexedModel

/-- Every model that the passes reach is one with tables, which are consistent. -/
theorem Model.Reachable.exists_indexed {plain : Model} (h : plain.Reachable) :
    ∃ model : IndexedModel, model.Reachable ∧ model.Consistent ∧ model.contents = plain := by
  suffices hmodel : ∃ model : IndexedModel, model.Reachable ∧ model.contents = plain by
    obtain ⟨model, hmodel, hplain⟩ := hmodel
    exact ⟨model, hmodel, hmodel.built.consistent, hplain⟩
  induction h with
  | @parse text plain h =>
    rw [← IndexedModel.contents_parse, map_eq_ok] at h
    obtain ⟨model, hmodel, hplain⟩ := h
    exact ⟨model, .parse hmodel, hplain⟩
  | merge _ _ ihFirst ihSecond =>
    obtain ⟨first, hfirst, rfl⟩ := ihFirst
    obtain ⟨second, hsecond, rfl⟩ := ihSecond
    exact ⟨_, hfirst.merge hsecond, IndexedModel.contents_merge first second⟩
  | inherit _ ih =>
    obtain ⟨model, hmodel, rfl⟩ := ih
    exact ⟨_, hmodel.inherit, by rw [hmodel.built.inherit.2]⟩
  | inLang _ hseen ih =>
    obtain ⟨model, hmodel, rfl⟩ := ih
    rw [IndexedModel.contents_inLang, map_eq_ok] at hseen
    obtain ⟨seen, hseen, hplain⟩ := hseen
    exact ⟨seen, hmodel.inLang hseen, hplain⟩
  | stable _ ih =>
    obtain ⟨model, hmodel, rfl⟩ := ih
    exact ⟨_, hmodel.stable, model.contents_stable⟩
  | resolveLinks _ hresolved ih =>
    obtain ⟨model, hmodel, rfl⟩ := ih
    rw [hmodel.built.consistent.resolveLinks, map_eq_ok] at hresolved
    obtain ⟨resolved, hresolved, hplain⟩ := hresolved
    exact ⟨resolved, hmodel.resolveLinks hresolved, hplain⟩

/-- In every reachable model names stand for the last class, member and argument that has them, kinds for
their members in order, and members, arguments and options are linked to their class and method; so they
are in every class of it whose members are changed. -/
theorem IndexedModel.consistent_of_reachable (h : model.Reachable) :
    model.contents.Reachable ∧ model.Consistent ∧
      ∀ cls ∈ model.classes, ∀ changes : List ClassChange, (changes.foldl ClassChange.apply cls).Consistent :=
  ⟨h.contents, h.built.consistent, fun cls hcls changes => ((h.built.classes cls hcls).foldl_apply changes).consistent⟩

end

/-! ## A method with options -/

/-- A class with a method whose options are not documented in order. -/
def optionsText : String :=
  "# class: A\n## method: A.a\n### option: A.a.y\n- `y` <[int]>\n### option: A.a.x\n- `x` <[int]>\n"

/-- The options as they are read. -/
def optionsArg : Member :=
  let int : ApiType := { ApiType.plain "int" with expression := some "[int]" }
  Member.property "options" (.object [Member.property "x" int false, Member.property "y" int false]) false

/-- The model that the text declares. -/
def optionsModel : IndexedModel :=
  let method := { Member.ofName .method "a" (some (ApiType.plain "void")) with args := [optionsArg] }
  .ofClasses [.ofClass (ApiClass.ofMembers "A" none [method])]

theorem parse_optionsText : IndexedModel.parse optionsText = .ok optionsModel := by
  have hplain : Model.parse optionsText =
      .ok ⟨[ApiClass.ofMembers "A" none
        [{ Member.ofName .method "a" (some (ApiType.plain "void")) with args := [optionsArg] }]]⟩ := by
    refine bind_eq_ok.2 ⟨[.heading 1 "class: A" [.heading 2 "method: A.a"
      [.heading 3 "option: A.a.y" [.item .dash "`y` <[int]>" []],
        .heading 3 "option: A.a.x" [.item .dash "`x` <[int]>" []]]]], ?_, by cbv⟩
    exact (Markup.parse_of_toList String.toList_ofList).trans rfl
  rw [IndexedModel.parse, hplain]
  rfl

/-- Merged with itself, the model has two methods of the name, and the name stands for the second. -/
theorem IndexedModel.consistent_of_reachable_merged :
    let merged := optionsModel.merge optionsModel
    IndexedModel.parse optionsText = .ok optionsModel ∧
      merged.classes.map (fun cls => (cls.members.length, cls.index.members.find? "a")) = [(2, some 1)] ∧
      merged.contents.Reachable ∧ merged.Consistent ∧
      ∀ cls ∈ merged.classes, ∀ changes : List ClassChange, (changes.foldl ClassChange.apply cls).Consistent :=
  ⟨parse_optionsText, by decide,
    IndexedModel.consistent_of_reachable (.merge (.parse parse_optionsText) (.parse parse_optionsText))⟩

end RefPages
