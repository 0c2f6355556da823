/-
Members handed down once and completely: in a hierarchy without circles every class ends up with
its own members, followed by copies of all that its base ends up with and that it does not
document itself.

A class is dealt with after its base, as classes with fewer superclasses come first. So when its
turn comes its base is complete, and the fold over the classes makes them complete one by one.
-/
import RefPages.Proofs.Api.Hierarchy
import RefPages.Proofs.Api.Produced

namespace RefPages

namespace ApiClass

/-! ## Between a class and its base -/

/-- The members of a class that a class under it does not document itself, as its own. -/
def copies (cls base : ApiClass) : List Member :=
  (base.members.filter fun member => member.name ∉ cls.members.map (·.name)).map fun member =>
    Member.inClass cls.name
      { member with inheritedFrom := some (member.inheritedFrom.getD base.name) }

theorem mem_copies {cls base : ApiClass} {copy : Member} :
    copy ∈ copies cls base ↔ ∃ member ∈ base.members, member.name ∉ cls.members.map (·.name) ∧
      copy = Member.inClass cls.name
        { member with inheritedFrom := some (member.inheritedFrom.getD base.name) } := by
  simp only [copies, List.mem_map, List.mem_filter, decide_eq_true_eq]
  constructor
  · rintro ⟨member, ⟨hmember, hname⟩, rfl⟩
    exact ⟨member, hmember, hname, rfl⟩
  · rintro ⟨member, hmember, hname, rfl⟩
    exact ⟨member, ⟨hmember, hname⟩, rfl⟩

/-- One error for each member of the base that the class documents itself. -/
def overriding (cls base : ApiClass) : List Diagnostic :=
  (base.members.filter fun member => member.name ∈ cls.members.map (·.name)).map fun member =>
    .error (Member.qualify cls.name member.name)
      ("Member documentation overrides base: " ++ Member.qualify cls.name member.name ++ " over " ++
        Member.qualify base.name member.name)

theorem isSome_member? (cls : ApiClass) (name : String) :
    (cls.member? name).isSome = decide (name ∈ cls.members.map (·.name)) := by
  rw [Bool.eq_iff_iff, decide_eq_true_eq, ApiClass.member?, lastNamed?, List.getLast?_isSome]
  simp [List.filter_eq_nil_iff]

end ApiClass

namespace Model

open ApiClass

/-! ## Complete classes -/

/-- The class with what it inherits from at most so many levels above it. -/
def completeFrom (model : Model) : Nat → ApiClass → ApiClass
  | 0, cls => cls
  | levels + 1, cls =>
    match cls.base?.bind model.class? with
    | none => cls
    | some base => { cls with members := cls.members ++ copies cls (completeFrom model levels base) }

/-- The class with all that it inherits. -/
def complete (model : Model) (cls : ApiClass) : ApiClass := completeFrom model (model.depth cls) cls

section

variable {model : Model} {cls base : ApiClass}

theorem completeFrom_name (model : Model) (levels : Nat) (cls : ApiClass) :
    (completeFrom model levels cls).name = cls.name := by
  cases levels with
  | zero => rfl
  | succ levels =>
    rw [completeFrom]
    split <;> rfl

@[simp] theorem complete_name (model : Model) (cls : ApiClass) : (model.complete cls).name = cls.name :=
  completeFrom_name model _ cls

theorem complete_of_none (h : cls.base?.bind model.class? = none) : model.complete cls = cls := by
  rw [complete, depth_of_none h, completeFrom]

theorem complete_of_extends (hacyclic : model.Acyclic) (h : model.Extends cls base) :
    model.complete cls = { cls with members := cls.members ++ copies cls (model.complete base) } := by
  rw [complete, depth_eq_succ hacyclic h, completeFrom,
    show cls.base?.bind model.class? = some base from h]
  rfl

theorem mem_complete (hacyclic : model.Acyclic) {member : Member} :
    member ∈ (model.complete cls).members ↔
      member ∈ cls.members ∨ ∃ base, model.Extends cls base ∧ member ∈ copies cls (model.complete base) := by
  cases hbase : cls.base?.bind model.class? with
  | none =>
    have hnone : ¬ ∃ base, model.Extends cls base ∧ member ∈ copies cls (model.complete base) := by
      rintro ⟨base, hextends, -⟩
      rw [Extends, hbase] at hextends
      cases hextends
    simp [complete_of_none hbase, hnone]
  | some base =>
    have hextends : model.Extends cls base := hbase
    rw [complete_of_extends hacyclic hextends, List.mem_append]
    refine or_congr_right ⟨fun h => ⟨base, hextends, h⟩, ?_⟩
    rintro ⟨other, hother, h⟩
    rw [Extends, hbase] at hother
    cases hother
    exact h

/-- Every copied member comes from a class above, which it was first documented on. -/
theorem origin_of_copies (hfresh : model.Fresh) (hacyclic : model.Acyclic) (cls : ApiClass) :
    ∀ base, model.Extends cls base → ∀ copy ∈ copies cls (model.complete base),
      ∃ origin ∈ model.classes, Relation.TransGen model.Extends cls origin ∧
        ∃ first ∈ origin.members,
          copy = Member.inClass cls.name { first with inheritedFrom := some origin.name } := by
  induction cls using hierarchy_induction hacyclic with
  | htop cls hnone =>
    intro base hextends
    rw [Extends, hnone] at hextends
    cases hextends
  | hbelow cls base hextends ih =>
    intro base' hextends' copy hcopy
    obtain rfl : base = base' := Option.some_inj.1 (hextends.symm.trans hextends')
    obtain ⟨above, habove, -, rfl⟩ := mem_copies.1 hcopy
    rcases (mem_complete hacyclic).1 habove with hown | ⟨next, hnext, habove⟩
    · refine ⟨base, hextends.mem, .single hextends, above, hown, ?_⟩
      rw [hfresh.original base hextends.mem above hown, complete_name]
      rfl
    · -- the copy of a copy is a copy of the first
      obtain ⟨origin, horigin, hpath, first, hfirst, rfl⟩ := ih next hnext above habove
      exact ⟨origin, horigin, .head hextends hpath, first, hfirst,
        Member.inClass_inClass _ _ { first with inheritedFrom := some origin.name }⟩

theorem linked_complete (hfresh : model.Fresh) (hacyclic : model.Acyclic) (hcls : cls ∈ model.classes) :
    (model.complete cls).Linked := by
  intro member hmember
  rw [complete_name]
  rcases (mem_complete hacyclic).1 hmember with hown | ⟨base, -, hcopy⟩
  · exact hfresh.linked cls hcls member hown
  · obtain ⟨above, -, -, rfl⟩ := mem_copies.1 hcopy
    exact Member.inClass_inClass _ _ _

end

/-! ## Findings -/

/-- What is wrong with what a class inherits: it names a base that there is not, or it documents
members that its base has as well. -/
def findingsOf (model : Model) (cls : ApiClass) : List Diagnostic :=
  match cls.base? with
  | none => []
  | some name =>
    match model.class? name with
    | none => [.error cls.name ("Undefined superclass: " ++ name ++ " in " ++ cls.name)]
    | some base => overriding cls base

/-- What a class inherits, and which of its own members are in the way. -/
theorem inherited_eq (cls base : ApiClass) :
    inherited cls base =
      ((base.members.filter fun member => member.name ∉ cls.members.map (·.name)).map fun member =>
          { member with inheritedFrom := some (member.inheritedFrom.getD base.name) },
        overriding cls base) := by
  rw [inherited, List.partition_eq_filter_filter]
  simp only [isSome_member?, Function.comp_def, decide_not, overriding]

/-! ## One class after another -/

section

variable {model : Model} {cls base : ApiClass}

/-- The model with the classes of some names complete. -/
def completed (model : Model) (visited : List String) : Model :=
  ⟨model.classes.map fun cls => if cls.name ∈ visited then model.complete cls else cls⟩

/-- The model with all classes complete. -/
def allComplete (model : Model) : Model := ⟨model.classes.map model.complete⟩

theorem class?_completed (model : Model) (visited : List String) (name : String) :
    (model.completed visited).class? name =
      (model.class? name).map fun cls => if cls.name ∈ visited then model.complete cls else cls :=
  class?_map (fun cls => by split <;> simp) model name

theorem class?_allComplete (model : Model) (name : String) :
    model.allComplete.class? name = (model.class? name).map model.complete :=
  class?_map model.complete_name model name

/-- The classes in a list come after their bases, none of them twice. -/
def BasesFirst (model : Model) (visited : List String) : List ApiClass → Prop
  | [] => True
  | cls :: rest =>
    cls.name ∉ visited ∧ (∀ base, model.Extends cls base → base.name ∈ visited) ∧
      BasesFirst model (visited ++ [cls.name]) rest

/-- With distinct names one position is one class. -/
theorem name_ne_of_position_ne (hdistinct : (model.classes.map (·.name)).Nodup) {position other : Nat}
    {cls cls' : ApiClass} (hcls : model.classes[position]? = some cls)
    (hcls' : model.classes[other]? = some cls') (hne : position ≠ other) : cls'.name ≠ cls.name := by
  intro hname
  have hpos : (model.classes.map (·.name))[position]? = some cls.name := by simp [hcls]
  have hother : (model.classes.map (·.name))[other]? = some cls.name := by simp [hcls', hname]
  obtain ⟨hlt, -⟩ := List.getElem?_eq_some_iff.1 hpos
  exact hne ((List.getElem?_inj hlt hdistinct).1 (hpos.trans hother.symm))

theorem set_completed (hfresh : model.Fresh) {visited : List String} {position : Nat}
    (hcls : model.classes[position]? = some cls) :
    (model.completed visited).classes.set position (model.complete cls) =
      (model.completed (visited ++ [cls.name])).classes := by
  apply List.ext_getElem?
  intro other
  obtain ⟨hlt, hget⟩ := List.getElem?_eq_some_iff.1 hcls
  rw [List.getElem?_set]
  by_cases hother : position = other
  · subst hother
    simp [completed, hlt, hget]
  · rw [if_neg hother]
    cases hcls' : model.classes[other]? with
    | none => simp [completed, hcls']
    | some cls' =>
      have := name_ne_of_position_ne hfresh.distinct hcls hcls' hother
      simp [completed, hcls', this]

theorem set_completed_of_none (hfresh : model.Fresh) {visited : List String} {position : Nat}
    (hcls : model.classes[position]? = some cls) (h : cls.base?.bind model.class? = none) :
    model.completed (visited ++ [cls.name]) = model.completed visited := by
  have hself : (model.completed visited).classes[position]? = some cls := by
    simp [completed, hcls, complete_of_none h]
  obtain ⟨hlt, hget⟩ := List.getElem?_eq_some_iff.1 hself
  have hset : (model.completed visited).classes.set position (model.complete cls) = _ :=
    set_completed hfresh hcls
  rw [complete_of_none h, ← hget, List.set_getElem_self, hget] at hset
  exact congrArg Model.mk hset.symm

/-- What a class inherits from a complete base makes it complete. -/
theorem updateMembers_inherited (hfresh : model.Fresh) (hacyclic : model.Acyclic)
    (hcls : cls ∈ model.classes) (h : model.Extends cls base) :
    cls.updateMembers (· ++ (inherited cls (model.complete base)).1) = model.complete cls := by
  rw [complete_of_extends hacyclic h, ApiClass.updateMembers, ApiClass.relink, inherited_eq]
  have hown := (hfresh.linked cls hcls).map_members
  simp [copies, hown, Function.comp_def]

/-- Dealing with a class whose base is complete makes the class complete. -/
theorem inheritAt_completed (hfresh : model.Fresh) (hacyclic : model.Acyclic) {visited : List String}
    {position : Nat} (hcls : model.classes[position]? = some cls) (hnew : cls.name ∉ visited)
    (hbase : ∀ base, model.Extends cls base → base.name ∈ visited) :
    (model.completed visited).inheritAt position =
      (model.completed (visited ++ [cls.name]), model.allComplete.findingsOf cls) := by
  -- the class itself is as it was, while its base, if there is one, is complete
  have hget : (model.completed visited).classes[position]? = some cls := by
    simp [completed, hcls, hnew]
  have hmem : cls ∈ model.classes := List.mem_of_getElem? hcls
  unfold inheritAt findingsOf
  rw [hget]
  dsimp only
  cases hname : cls.base? with
  | none => rw [set_completed_of_none hfresh hcls (by rw [hname]; rfl)]
  | some name =>
    simp only [class?_completed, class?_allComplete]
    cases hclass : model.class? name with
    | none =>
      rw [set_completed_of_none hfresh hcls (by rw [hname]; exact hclass)]
      rfl
    | some base =>
      have hextends : model.Extends cls base := by
        rw [Extends, hname]
        exact hclass
      have hvisited := hbase base hextends
      simp only [Option.map_some, if_pos hvisited]
      rw [updateMembers_inherited hfresh hacyclic hmem hextends, set_completed hfresh hcls, inherited_eq]

/-- Dealing with classes after their bases makes all of them complete. -/
theorem foldl_inheritAt (hfresh : model.Fresh) (hacyclic : model.Acyclic) :
    ∀ (positions : List Nat) (visited : List String) (findings : List Diagnostic),
      model.BasesFirst visited (positions.filterMap (model.classes[·]?)) →
      positions.foldl
        (fun (model, findings) position =>
          let (model, new) := model.inheritAt position
          (model, findings ++ new))
        (model.completed visited, findings) =
      (model.completed (visited ++ (positions.filterMap (model.classes[·]?)).map (·.name)),
        findings ++ (positions.filterMap (model.classes[·]?)).flatMap model.allComplete.findingsOf)
  | [], visited, findings, _ => by simp
  | position :: positions, visited, findings, hfirst => by
    rw [List.foldl_cons]
    dsimp only
    cases hcls : model.classes[position]? with
    | none =>
      -- a position without a class changes nothing
      have hnone : (model.completed visited).classes[position]? = none := by simp [completed, hcls]
      have hskip : (model.completed visited).inheritAt position = (model.completed visited, []) := by
        rw [inheritAt, hnone]
      rw [List.filterMap_cons_none hcls] at hfirst ⊢
      rw [hskip, List.append_nil]
      exact foldl_inheritAt hfresh hacyclic positions visited findings hfirst
    | some cls =>
      rw [List.filterMap_cons_some hcls] at hfirst ⊢
      obtain ⟨hnew, hbase, hrest⟩ := hfirst
      rw [inheritAt_completed hfresh hacyclic hcls hnew hbase]
      rw [foldl_inheritAt hfresh hacyclic positions _ _ hrest, List.map_cons, List.flatMap_cons]
      simp only [List.append_assoc, List.singleton_append]

/-! ## The order of classes -/

/-- Classes in the order of their depths come after their bases. -/
theorem basesFirst_of_sorted (hfresh : model.Fresh) (hacyclic : model.Acyclic) :
    ∀ (visited : List String) (classes : List ApiClass), (∀ cls ∈ classes, cls ∈ model.classes) →
      (visited ++ classes.map (·.name)).Nodup →
      classes.Pairwise (fun cls cls' => model.depth cls ≤ model.depth cls') →
      (∀ cls ∈ classes, ∀ base, model.Extends cls base →
        base.name ∈ visited ++ classes.map (·.name)) →
      model.BasesFirst visited classes
  | visited, [], _, _, _, _ => trivial
  | visited, cls :: rest, hmem, hnodup, hsorted, hclosed => by
    obtain ⟨hle, hsorted⟩ := List.pairwise_cons.1 hsorted
    rw [List.map_cons] at hnodup hclosed
    have hnew : cls.name ∉ visited := fun h =>
      (List.nodup_append.1 hnodup).2.2 _ h _ List.mem_cons_self rfl
    refine ⟨hnew, fun base hextends => ?_, ?_⟩
    · -- neither the class itself nor a class behind it is as far up as its base
      have hdepth := depth_eq_succ hacyclic hextends
      have hname : ∀ other ∈ cls :: rest, other.name = base.name → False := by
        intro other hother hname
        have hfound := class?_of_mem hfresh.distinct (hmem other hother)
        rw [hname, hextends.class?_name] at hfound
        cases hfound
        rcases List.mem_cons.1 hother with rfl | hother
        · omega
        · have := hle base hother
          omega
      rcases List.mem_append.1 (hclosed cls List.mem_cons_self base hextends) with h | h
      · exact h
      · obtain ⟨other, hother, heq⟩ := List.mem_map.1 (List.map_cons ▸ h)
        exact absurd heq (hname other hother)
    · refine basesFirst_of_sorted hfresh hacyclic (visited ++ [cls.name]) rest
        (fun other hother => hmem other (List.mem_cons_of_mem _ hother)) ?_ hsorted ?_
      · rwa [List.append_assoc, List.singleton_append]
      · intro other hother base hextends
        rw [List.append_assoc, List.singleton_append]
        exact hclosed other (List.mem_cons_of_mem _ hother) base hextends

/-- The classes in the order in which they are dealt with. -/
def visits (model : Model) : List ApiClass := model.inheritanceOrder.filterMap (model.classes[·]?)

theorem filterMap_getElem?_range {α : Type} (as : List α) :
    (List.range as.length).filterMap (as[·]?) = as := by
  induction as with
  | nil => rfl
  | cons a as ih =>
    have hfirst : (a :: as)[0]? = some a := rfl
    rw [List.length_cons, List.range_succ_eq_map, List.filterMap_cons, hfirst, List.filterMap_map]
    exact congrArg (a :: ·) ih

theorem visits_perm (model : Model) : model.visits.Perm model.classes := by
  have := (List.mergeSort_perm (List.range model.classes.length) fun a b =>
    (model.classes.map model.depth)[a]?.getD 0 ≤ (model.classes.map model.depth)[b]?.getD 0).filterMap
      (model.classes[·]?)
  rwa [filterMap_getElem?_range] at this

theorem visits_sorted (model : Model) :
    model.visits.Pairwise fun cls cls' => model.depth cls ≤ model.depth cls' := by
  have hsorted : model.inheritanceOrder.Pairwise fun a b => decide
      ((model.classes.map model.depth)[a]?.getD 0 ≤ (model.classes.map model.depth)[b]?.getD 0) = true := by
    refine List.pairwise_mergeSort (fun a b c h h' => ?_) (fun a b => ?_) _
    · exact decide_eq_true ((of_decide_eq_true h).trans (of_decide_eq_true h'))
    · rw [Bool.or_eq_true, decide_eq_true_eq, decide_eq_true_eq]
      exact Nat.le_total _ _
  refine hsorted.filterMap _ fun a b hle cls hcls cls' hcls' => ?_
  simpa [hcls, hcls'] using hle

theorem basesFirst_visits (hfresh : model.Fresh) (hacyclic : model.Acyclic) :
    model.BasesFirst [] model.visits := by
  have hnames : (model.visits.map (·.name)).Perm (model.classes.map (·.name)) := model.visits_perm.map _
  refine basesFirst_of_sorted hfresh hacyclic [] model.visits (fun cls => model.visits_perm.mem_iff.1) ?_
    model.visits_sorted fun cls _ base hextends => ?_
  · rw [List.nil_append, hnames.nodup_iff]
    exact hfresh.distinct
  · rw [List.nil_append, hnames.mem_iff]
    exact List.mem_map_of_mem hextends.mem

/-- Handing down members makes every class complete. -/
theorem inherit_eq (hfresh : model.Fresh) (hacyclic : model.Acyclic) :
    model.inherit = (model.allComplete,
      model.classes.flatMap (·.orderFindings) ++ model.visits.flatMap model.allComplete.findingsOf) := by
  have hstart : model = model.completed [] := by simp [completed]
  have hend : model.completed (model.visits.map (·.name)) = model.allComplete := by
    unfold completed allComplete
    congr 1
    refine List.map_congr_left fun cls hcls => if_pos ?_
    exact List.mem_map_of_mem (model.visits_perm.mem_iff.2 hcls)
  have hlinked : model.allComplete.relink = model.allComplete := by
    refine relink_eq_self fun complete hcomplete => ?_
    obtain ⟨cls, hcls, rfl⟩ := List.mem_map.1 hcomplete
    exact linked_complete hfresh hacyclic hcls
  have hfold := foldl_inheritAt hfresh hacyclic model.inheritanceOrder []
    (model.classes.flatMap (·.orderFindings)) (basesFirst_visits hfresh hacyclic)
  rw [← hstart, List.nil_append] at hfold
  unfold inherit
  rw [hfold]
  dsimp only
  rw [show (model.inheritanceOrder.filterMap (model.classes[·]?)) = model.visits from rfl, hend, hlinked]

theorem base?_bind_allComplete (model : Model) (cls : ApiClass) :
    cls.base?.bind model.allComplete.class? = (cls.base?.bind model.class?).map model.complete := by
  cases cls.base? with
  | none => rfl
  | some name => exact class?_allComplete model name

/-- Distinct names of members stay distinct. -/
theorem distinct_complete (hacyclic : model.Acyclic)
    (hdistinct : ∀ cls ∈ model.classes, (cls.members.map (·.name)).Nodup) (cls : ApiClass)
    (hcls : cls ∈ model.classes) : ((model.complete cls).members.map (·.name)).Nodup := by
  induction cls using hierarchy_induction hacyclic with
  | htop cls hnone =>
    rw [complete_of_none hnone]
    exact hdistinct cls hcls
  | hbelow cls base hextends ih =>
    have hnames : (copies cls (model.complete base)).map (·.name) =
        ((model.complete base).members.map (·.name)).filter fun name =>
          name ∉ cls.members.map (·.name) := by
      rw [copies, List.map_map, List.filter_map]
      rfl
    rw [complete_of_extends hacyclic hextends, List.map_append, hnames, List.nodup_append]
    refine ⟨hdistinct cls hcls, (ih hextends.mem).filter _, ?_⟩
    rintro name hname _ hcopied rfl
    exact of_decide_eq_true (List.mem_filter.1 hcopied).2 hname

end

/-! ## Handing down -/

/-- The members that a class has from its base, as the base is in a model. -/
def fromBase (model : Model) (cls : ApiClass) : List Member :=
  match cls.base?.bind model.class? with
  | none => []
  | some base => copies cls base

/-- The members of `model` have been handed down once and completely, which gives `final` and
`findings`. -/
structure HandedDown (model final : Model) (findings : List Diagnostic) : Prop where
  /-- Every class keeps its members, and those that it has from its base in `final` follow. -/
  classes : final.classes =
    model.classes.map fun cls => { cls with members := cls.members ++ final.fromBase cls }
  /-- A copy belongs to the class that has it and names the class that it was documented on. -/
  origins : ∀ cls ∈ model.classes, ∀ copy ∈ final.fromBase cls, copy.className = cls.name ∧
    ∃ origin ∈ model.classes, Relation.TransGen model.Extends cls origin ∧
      copy.inheritedFrom = some origin.name ∧
      ∃ first ∈ origin.members,
        copy = Member.inClass cls.name { first with inheritedFrom := some origin.name }
  /-- There is an error for each base that there is not and for each member in the way. -/
  findings : ∃ pushed, findings = model.classes.flatMap (·.orderFindings) ++ pushed ∧
    pushed.Perm (model.classes.flatMap final.findingsOf)
  /-- Distinct names of members stay distinct. -/
  distinct : (∀ cls ∈ model.classes, (cls.members.map (·.name)).Nodup) →
    ∀ cls ∈ final.classes, (cls.members.map (·.name)).Nodup

/-- In a model without circles members are handed down once and completely. -/
theorem inherit_handedDown {model : Model} (hproduced : model.Produced) (hacyclic : model.Acyclic) :
    HandedDown model model.inherit.1 model.inherit.2 := by
  have hfresh := hproduced.fresh
  have hclasses : ∀ cls, model.complete cls =
      { cls with members := cls.members ++ model.allComplete.fromBase cls } := fun cls => by
    rw [fromBase, base?_bind_allComplete]
    cases hbase : cls.base?.bind model.class? with
    | none => simp [complete_of_none hbase]
    | some base => rw [complete_of_extends hacyclic hbase, Option.map_some]
  rw [inherit_eq hfresh hacyclic]
  constructor
  · exact List.map_congr_left fun cls _ => hclasses cls
  · intro cls hcls copy hcopy
    rw [fromBase, base?_bind_allComplete] at hcopy
    cases hbase : cls.base?.bind model.class? with
    | none => simp [hbase] at hcopy
    | some base =>
      rw [hbase, Option.map_some] at hcopy
      obtain ⟨origin, horigin, hpath, first, hfirst, rfl⟩ :=
        origin_of_copies hfresh hacyclic cls base hbase copy hcopy
      exact ⟨rfl, origin, horigin, hpath, rfl, first, hfirst, rfl⟩
  · exact ⟨_, rfl, model.visits_perm.flatMap_right _⟩
  · rintro hdistinct final hfinal
    obtain ⟨cls, hcls, rfl⟩ := List.mem_map.1 hfinal
    exact distinct_complete hacyclic hdistinct cls hcls

/-- A class with methods that say nothing but their names. -/
def ofMethods (name : String) (superclass : Option String) (methods : List String) : ApiClass :=
  ApiClass.ofMembers name superclass
    (methods.map fun method => Member.ofName .method method (some (ApiType.plain "void")))

/-- Three levels, each with a method of its own and one that all have. -/
theorem inherit_handedDown_levels :
    let model : Model :=
      ⟨[ofMethods "C" (some "B") ["c", "x"], ofMethods "B" (some "A") ["b", "x"],
        ofMethods "A" none ["a", "x"]]⟩
    model.Produced ∧ model.Acyclic ∧ HandedDown model model.inherit.1 model.inherit.2 := by
  intro model
  have hread : Model.ofDocuments [[
      .heading 1 "class: C" [.item .star "extends: [B]" [], .heading 2 "method: C.c" [],
        .heading 2 "method: C.x" []],
      .heading 1 "class: B" [.item .star "extends: [A]" [], .heading 2 "method: B.b" [],
        .heading 2 "method: B.x" []],
      .heading 1 "class: A" [.heading 2 "method: A.a" [], .heading 2 "method: A.x" []]]] = .ok model := by
    rfl
  have hacyclic : model.Acyclic := by
    refine acyclic_of_rank (fun name => if name = "C" then 2 else if name = "B" then 1 else 0) ?_
    intro cls hcls base hextends
    rcases List.mem_cons.1 hcls with rfl | hcls
    · obtain rfl : ofMethods "B" (some "A") ["b", "x"] = base := Option.some_inj.1 hextends
      decide
    rcases List.mem_cons.1 hcls with rfl | hcls
    · obtain rfl : ofMethods "A" none ["a", "x"] = base := Option.some_inj.1 hextends
      decide
    · rw [List.mem_singleton.1 hcls] at hextends
      cases hextends
  exact ⟨.ofDocuments hread, hacyclic, inherit_handedDown (.ofDocuments hread) hacyclic⟩

end Model

end RefPages
