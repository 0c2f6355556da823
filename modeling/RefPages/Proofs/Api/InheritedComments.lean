/-
Inheritance takes comments along and does not look at them: what classes inherit, and what is wrong
with them, is the same when all comments are changed.
-/
import RefPages.Proofs.Api.Hierarchy
import RefPages.Proofs.Api.Recomment

namespace RefPages

open Markup (Node)

section

variable {change : List Node → List Node}

/-! ## Findings -/

namespace ApiClass

theorem member?_recomment (cls : ApiClass) (name : String) :
    (cls.recomment change).member? name = (cls.member? name).map (Member.recomment change) := by
  unfold member? lastNamed? recomment
  dsimp only
  rw [List.filter_map, List.getLast?_map]
  simp only [Function.comp_def, Member.recomment_name]

theorem isEvent_recomment (member : Member) : (member.recomment change).isEvent = member.isEvent := by
  rw [Member.isEvent, Member.isEvent, Member.recomment_kind]

theorem isConstructor_recomment (member : Member) :
    (member.recomment change).isConstructor = member.isConstructor := by
  rw [Member.isConstructor, Member.isConstructor, Member.recomment_isMethod, Member.recomment_name]

theorem display_recomment (cls : ApiClass) (member : Member) :
    (cls.recomment change).display (member.recomment change) = cls.display member := by
  rw [display, display, Member.recomment_name, Member.recomment_isMethod]
  rfl

theorem strayEvent_recomment (cls : ApiClass) : (cls.recomment change).strayEvent = cls.strayEvent := by
  unfold strayEvent recomment
  dsimp only
  rw [List.dropWhile_map, List.find?_map]
  simp only [Function.comp_def, isEvent_recomment]
  cases (cls.members.dropWhile fun member => member.isEvent).find? (·.isEvent) with
  | none => rfl
  | some stray => simp

theorem lateConstructor_recomment (cls : ApiClass) :
    (cls.recomment change).lateConstructor = cls.lateConstructor := by
  unfold lateConstructor recomment
  dsimp only
  rw [List.takeWhile_map, List.getLast?_map, List.any_map]
  simp only [Function.comp_def, isConstructor_recomment]
  cases (cls.members.takeWhile fun member => !member.isConstructor).getLast? with
  | none => rfl
  | some before => simp [isEvent_recomment]

/-- The order of members is found fault with in the same way. -/
theorem orderFindings_recomment (cls : ApiClass) : (cls.recomment change).orderFindings = cls.orderFindings := by
  have hpairs : (cls.recomment change).members.zip (cls.recomment change).members.tail =
      (cls.members.zip cls.members.tail).map (Prod.map (Member.recomment change) (Member.recomment change)) := by
    unfold recomment
    dsimp only
    rw [← List.map_tail, List.zip_map]
  have hevents : ∀ pair : Member × Member,
      (cls.recomment change).eventPair (pair.map (Member.recomment change) (Member.recomment change)) =
        cls.eventPair pair := by
    rintro ⟨first, second⟩
    unfold eventPair outOfOrder
    simp only [Prod.map, isEvent_recomment, Member.recomment_name]
    rfl
  have hmembers : ∀ pair : Member × Member,
      (cls.recomment change).memberPair (pair.map (Member.recomment change) (Member.recomment change)) =
        cls.memberPair pair := by
    rintro ⟨first, second⟩
    unfold memberPair outOfOrder
    simp only [Prod.map, isEvent_recomment, isConstructor_recomment, Member.recomment_name, display_recomment]
    rfl
  unfold orderFindings
  dsimp only
  rw [strayEvent_recomment, lateConstructor_recomment, hpairs, List.filterMap_map, List.filterMap_map]
  simp only [Function.comp_def, hevents, hmembers]

end ApiClass

/-! ## The order in which classes inherit -/

namespace Model

theorem depthFrom_recomment (model : Model) (unseen : List String) (cls : ApiClass) :
    (model.recomment change).depthFrom unseen (cls.recomment change) = model.depthFrom unseen cls := by
  have hbase : (cls.recomment change).base?.bind (model.recomment change).class? =
      (cls.base?.bind model.class?).map (ApiClass.recomment change) := by
    show cls.base?.bind (model.recomment change).class? = _
    cases cls.base? with
    | none => rfl
    | some name => exact class?_recomment model name
  rw [depthFrom, depthFrom, hbase]
  cases cls.base?.bind model.class? with
  | none => rfl
  | some base =>
    show (if h : base.name ∈ unseen then _ else _) = if h : base.name ∈ unseen then _ else _
    by_cases h : base.name ∈ unseen
    · rw [dif_pos h, dif_pos h]
      exact congrArg (1 + ·) (depthFrom_recomment model (otherNames base.name unseen) base)
    · rw [dif_neg h, dif_neg h]
termination_by unseen.length
decreasing_by exact length_otherNames_lt h

theorem inheritanceOrder_recomment (model : Model) :
    (model.recomment change).inheritanceOrder = model.inheritanceOrder := by
  have hnames : (model.recomment change).classes.map (·.name) = model.classes.map (·.name) := by
    show (model.classes.map (ApiClass.recomment change)).map (·.name) = _
    rw [List.map_map]
    rfl
  have hdepths :
      (model.recomment change).classes.map (model.recomment change).depth = model.classes.map model.depth := by
    show (model.classes.map (ApiClass.recomment change)).map _ = _
    rw [List.map_map]
    refine List.map_congr_left fun cls _ => ?_
    unfold depth
    rw [hnames]
    exact depthFrom_recomment model _ cls
  have hlength : (model.recomment change).classes.length = model.classes.length := by
    show (model.classes.map (ApiClass.recomment change)).length = _
    rw [List.length_map]
  unfold inheritanceOrder
  rw [hdepths, hlength]

/-! ## What is inherited -/

theorem inherited_recomment (cls base : ApiClass) :
    inherited (cls.recomment change) (base.recomment change) =
      ((inherited cls base).1.map (Member.recomment change), (inherited cls base).2) := by
  have hown : ∀ member : Member, ((cls.recomment change).member? (member.recomment change).name).isSome =
      (cls.member? member.name).isSome := by
    intro member
    rw [ApiClass.member?_recomment, Member.recomment_name, Option.isSome_map]
  have hbase : (base.recomment change).members = base.members.map (Member.recomment change) := rfl
  unfold inherited
  rw [hbase, List.partition_eq_filter_filter, List.partition_eq_filter_filter]
  dsimp only
  rw [List.filter_map, List.filter_map, List.map_map, List.map_map, List.map_map]
  simp only [Function.comp_def, hown]
  congr 1
  · refine List.map_congr_left fun member _ => ?_
    rw [Member.recomment_eq, Member.recomment_eq]
    rfl
  · refine List.map_congr_left fun member _ => ?_
    rw [Member.recomment_name]
    rfl

theorem inheritAt_recomment (model : Model) (position : Nat) :
    (model.recomment change).inheritAt position =
      ((model.inheritAt position).1.recomment change, (model.inheritAt position).2) := by
  have hclasses : (model.recomment change).classes[position]? =
      (model.classes[position]?).map (ApiClass.recomment change) := List.getElem?_map
  unfold inheritAt
  rw [hclasses]
  cases model.classes[position]? with
  | none => rfl
  | some cls =>
    have hbase : (cls.recomment change).base? = cls.base? := rfl
    rw [Option.map_some]
    dsimp only
    rw [hbase]
    cases cls.base? with
    | none => rfl
    | some baseName =>
      dsimp only
      rw [class?_recomment]
      cases model.class? baseName with
      | none => rfl
      | some base =>
        dsimp only [Option.map_some]
        rw [inherited_recomment]
        show (Model.mk _, _) = (Model.mk _, _)
        rw [List.map_set]
        congr 3
        rw [ApiClass.updateMembers, ApiClass.updateMembers, ← ApiClass.recomment_relink]
        unfold ApiClass.recomment
        dsimp only
        rw [List.map_append]

/-- Members are inherited together with their comments, whatever these say. -/
theorem inherit_recomment (model : Model) :
    (model.recomment change).inherit = (model.inherit.1.recomment change, model.inherit.2) := by
  have hfold : ∀ (positions : List Nat) (state : Model × List Diagnostic),
      positions.foldl inheritStep (state.1.recomment change, state.2) =
        ((positions.foldl inheritStep state).1.recomment change, (positions.foldl inheritStep state).2) := by
    intro positions
    induction positions with
    | nil =>
      intro state
      rfl
    | cons position positions ih =>
      intro state
      have hstep : inheritStep (state.1.recomment change, state.2) position =
          ((inheritStep state position).1.recomment change, (inheritStep state position).2) := by
        rw [inheritStep, inheritAt_recomment]
        rfl
      rw [List.foldl_cons, List.foldl_cons, hstep]
      exact ih (inheritStep state position)
  have hfindings : (model.recomment change).classes.flatMap (·.orderFindings) =
      model.classes.flatMap (·.orderFindings) := by
    show (model.classes.map (ApiClass.recomment change)).flatMap _ = _
    rw [List.flatMap_map]
    simp only [ApiClass.orderFindings_recomment]
  rw [inherit_eq_foldl, inherit_eq_foldl, inheritanceOrder_recomment, hfindings,
    hfold model.inheritanceOrder (model, _), recomment_relink]

end Model

end

end RefPages
