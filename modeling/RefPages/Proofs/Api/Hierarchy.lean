/-
The hierarchy of classes: which class another inherits from, hierarchies without circles, and the
number of superclasses, which grows by one from each base to the classes under it.
-/
import RefPages.Api.Inherit
import RefPages.Proofs.Api.Linked

namespace RefPages.Model

/-! ## The hierarchy -/

/-- The class that another inherits from. -/
def Extends (model : Model) (cls base : ApiClass) : Prop := cls.base?.bind model.class? = some base

/-- No class is above itself. -/
def Acyclic (model : Model) : Prop := ∀ cls, ¬ Relation.TransGen model.Extends cls cls

/-- Neither the class nor a class above it is above itself. -/
def AcyclicFrom (model : Model) (cls : ApiClass) : Prop :=
  ∀ above, Relation.ReflTransGen model.Extends cls above → ¬ Relation.TransGen model.Extends above above

section

variable {model : Model} {cls base : ApiClass}

theorem Extends.class?_name (h : model.Extends cls base) : model.class? base.name = some base := by
  obtain ⟨name, -, hname⟩ := Option.bind_eq_some_iff.1 h
  rw [(class?_eq_some hname).2]
  exact hname

theorem Extends.mem (h : model.Extends cls base) : base ∈ model.classes :=
  (class?_eq_some h.class?_name).1

/-- A class above another is the one of its name. -/
theorem class?_name_of_above (h : Relation.TransGen model.Extends cls base) :
    model.class? base.name = some base := by
  cases h with
  | single h => exact h.class?_name
  | tail _ h => exact h.class?_name

theorem Acyclic.acyclicFrom (h : model.Acyclic) (cls : ApiClass) : model.AcyclicFrom cls := fun above _ => h above

theorem AcyclicFrom.above (h : model.AcyclicFrom cls) (hextends : model.Extends cls base) : model.AcyclicFrom base :=
  fun above habove => h above (.head hextends habove)

/-- Without a circle no class above another has its name. -/
theorem AcyclicFrom.name_ne (hacyclic : model.AcyclicFrom cls) {above : ApiClass}
    (hcls : model.class? cls.name = some cls) (h : Relation.TransGen model.Extends cls above) :
    above.name ≠ cls.name := by
  intro hname
  have habove := class?_name_of_above h
  rw [hname, hcls] at habove
  cases habove
  exact hacyclic cls .refl h

/-- Ranks of names that fall from each class to its base rule out circles. -/
theorem acyclic_of_rank (rank : String → Nat)
    (h : ∀ cls ∈ model.classes, ∀ base, model.Extends cls base → rank base.name < rank cls.name) :
    model.Acyclic := by
  have hpath : ∀ {cls above}, Relation.TransGen model.Extends cls above → cls ∈ model.classes →
      rank above.name < rank cls.name := by
    intro cls above habove hcls
    induction habove with
    | single hextends => exact h cls hcls _ hextends
    | tail habove hextends ih =>
      exact (h _ (class?_eq_some (class?_name_of_above habove)).1 _ hextends).trans ih
  intro cls hcircle
  exact absurd (hpath hcircle (class?_eq_some (class?_name_of_above hcircle)).1) (lt_irrefl _)

/-! ## Depth -/

theorem depthFrom_of_extends {unseen : List String} (h : model.Extends cls base)
    (hmem : base.name ∈ unseen) :
    depthFrom model unseen cls = 1 + depthFrom model (otherNames base.name unseen) base := by
  rw [depthFrom, show cls.base?.bind model.class? = some base from h]
  simp only [hmem, dif_pos]

/-- The number of superclasses does not depend on what has been seen below the class. -/
theorem depthFrom_congr {cls : ApiClass} (hacyclic : model.AcyclicFrom cls) (unseen unseen' : List String)
    (h : ∀ above, Relation.TransGen model.Extends cls above → above.name ∈ unseen)
    (h' : ∀ above, Relation.TransGen model.Extends cls above → above.name ∈ unseen') :
    depthFrom model unseen cls = depthFrom model unseen' cls := by
  fun_induction depthFrom model unseen cls generalizing unseen' with
  | case1 unseen cls hbase => rw [depthFrom, hbase]
  | case2 unseen cls base hbase hmem ih =>
    have hextends : model.Extends cls base := hbase
    -- taking the base off the unseen names takes off no name above it
    have hother : ∀ above, Relation.TransGen model.Extends base above → above.name ≠ base.name :=
      fun above habove => (hacyclic.above hextends).name_ne hextends.class?_name habove
    rw [depthFrom_of_extends hextends (h' base (.single hextends)),
      ih (hacyclic.above hextends) (otherNames base.name unseen')]
    · intro above habove
      simpa [otherNames] using ⟨h above (.head hextends habove), hother above habove⟩
    · intro above habove
      simpa [otherNames] using ⟨h' above (.head hextends habove), hother above habove⟩
  | case3 unseen cls base hbase hmem => exact absurd (h base (.single hbase)) hmem

theorem depth_of_none (h : cls.base?.bind model.class? = none) : model.depth cls = 0 := by
  rw [depth, depthFrom, h]

/-- A class that is not below a circle has one superclass more than its base. -/
theorem AcyclicFrom.depth_eq_succ (hacyclic : model.AcyclicFrom cls) (h : model.Extends cls base) :
    model.depth cls = model.depth base + 1 := by
  have hnames : ∀ above, Relation.TransGen model.Extends base above →
      above.name ∈ model.classes.map (·.name) := fun above habove =>
    List.mem_map_of_mem (class?_eq_some (class?_name_of_above habove)).1
  have hother : ∀ above, Relation.TransGen model.Extends base above →
      above.name ∈ otherNames base.name (model.classes.map (·.name)) := fun above habove => by
    rw [otherNames, List.mem_filter]
    exact ⟨hnames above habove, decide_eq_true ((hacyclic.above h).name_ne h.class?_name habove)⟩
  rw [depth, depthFrom_of_extends h (List.mem_map_of_mem h.mem), depth,
    depthFrom_congr (hacyclic.above h) _ _ hother hnames, Nat.add_comm]

/-- A class has one superclass more than its base. -/
theorem depth_eq_succ (hacyclic : model.Acyclic) (h : model.Extends cls base) :
    model.depth cls = model.depth base + 1 :=
  (hacyclic.acyclicFrom cls).depth_eq_succ h

/-- Classes by induction from the top of the hierarchy down. -/
theorem hierarchy_induction {P : ApiClass → Prop} (hacyclic : model.Acyclic)
    (htop : ∀ cls, cls.base?.bind model.class? = none → P cls)
    (hbelow : ∀ cls base, model.Extends cls base → P base → P cls) (cls : ApiClass) : P cls := by
  induction hdepth : model.depth cls generalizing cls with
  | zero =>
    refine htop cls ?_
    by_contra hbase
    obtain ⟨base, hbase⟩ := Option.ne_none_iff_exists'.1 hbase
    rw [depth_eq_succ hacyclic hbase] at hdepth
    omega
  | succ levels ih =>
    cases hbase : cls.base?.bind model.class? with
    | none => exact htop cls hbase
    | some base =>
      refine hbelow cls base hbase (ih base ?_)
      rw [depth_eq_succ hacyclic hbase] at hdepth
      omega

end

/-! ## One class after another -/

/-- The class at a position is dealt with, and what is wrong there is put down. -/
def inheritStep (state : Model × List Diagnostic) (position : Nat) : Model × List Diagnostic :=
  ((state.1.inheritAt position).1, state.2 ++ (state.1.inheritAt position).2)

/-- Handing down members deals with the classes one by one. -/
theorem inherit_eq_foldl (model : Model) :
    model.inherit =
      ((model.inheritanceOrder.foldl inheritStep (model, model.classes.flatMap (·.orderFindings))).1.relink,
        (model.inheritanceOrder.foldl inheritStep (model, model.classes.flatMap (·.orderFindings))).2) := rfl

/-- What dealing with one class preserves holds after all have been dealt with. -/
theorem foldl_inheritStep_preserves {P : Model → Prop}
    (hstep : ∀ model position, P model → P (inheritAt model position).1) {model : Model} (positions : List Nat)
    (findings : List Diagnostic) (h : P model) : P (positions.foldl inheritStep (model, findings)).1 := by
  induction positions generalizing model findings with
  | nil => exact h
  | cons position positions ih => exact ih _ (hstep model position h)

end RefPages.Model
