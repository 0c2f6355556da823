/-
Hierarchies with circles. Climbing from class to class counts every class once at most, so it comes
to an end wherever it starts. And handing down members never loses one and never copies one that the
class documents itself, in whatever order the classes of a circle are dealt with.
-/
import RefPages.Proofs.Api.Inherit
import RefPages.Proofs.Api.Origins

namespace RefPages

open Relation

namespace Model

variable {model : Model} {cls base : ApiClass}

/-! ## Climbing -/

/-- Climbing from a class, with the classes of some names seen, goes past so many superclasses before it ends: at
a class that inherits from none, or from one that has been seen. -/
inductive Climbs (model : Model) : List String → ApiClass → Nat → Prop
  | top {seen : List String} {cls : ApiClass} (h : cls.base?.bind model.class? = none) : Climbs model seen cls 0
  | circle {seen : List String} {cls base : ApiClass} (h : model.Extends cls base) (hseen : base.name ∈ seen) :
    Climbs model seen cls 0
  | up {seen : List String} {cls base : ApiClass} {count : Nat} (h : model.Extends cls base)
    (hnew : base.name ∉ seen) (hrest : Climbs model (base.name :: seen) base count) : Climbs model seen cls (count + 1)

theorem climbs_depthFrom (unseen seen : List String) (cls : ApiClass)
    (h : ∀ name ∈ model.classes.map (·.name), name ∈ unseen ↔ name ∉ seen) :
    model.Climbs seen cls (depthFrom model unseen cls) := by
  fun_induction depthFrom model unseen cls generalizing seen with
  | case1 unseen cls hnone => exact .top hnone
  | case2 unseen cls base hbase hmem ih =>
    have hextends : model.Extends cls base := hbase
    have hnew := (h base.name (List.mem_map_of_mem hextends.mem)).1 hmem
    rw [Nat.add_comm]
    -- the base has now been seen, and it is not looked for again
    refine .up hextends hnew (ih _ fun name hname => ?_)
    simp [otherNames, h name hname, and_comm]
  | case3 unseen cls base hbase hmem =>
    have hextends : model.Extends cls base := hbase
    exact .circle hextends (not_not.1 fun hnew => hmem ((h base.name (List.mem_map_of_mem hextends.mem)).2 hnew))

/-- Climbing ends in one way only. -/
theorem Climbs.unique {seen : List String} {count other : Nat} (h : model.Climbs seen cls count)
    (h' : model.Climbs seen cls other) : count = other := by
  induction h generalizing other with
  | top hnone =>
    cases h' with
    | top => rfl
    | circle hextends => nomatch hnone.symm.trans hextends
    | up hextends => nomatch hnone.symm.trans hextends
  | circle hextends hseen =>
    cases h' with
    | top => rfl
    | circle => rfl
    | up hextends' hnew =>
      cases hextends.symm.trans hextends'
      exact absurd hseen hnew
  | up hextends hnew _ ih =>
    cases h' with
    | top hnone => nomatch hnone.symm.trans hextends
    | circle hextends' hseen =>
      cases hextends.symm.trans hextends'
      exact absurd hseen hnew
    | up hextends' _ hrest =>
      cases hextends.symm.trans hextends'
      rw [ih hrest]

/-- Climbing from a class ends, and the number of superclasses is what it counts. -/
theorem climbs_iff {count : Nat} : model.Climbs [] cls count ↔ count = model.depth cls := by
  have hdepth : model.Climbs [] cls (model.depth cls) := climbs_depthFrom _ [] cls fun name hname => by simp [hname]
  constructor
  · exact fun h => h.unique hdepth
  · rintro rfl
    exact hdepth

theorem depthFrom_le (unseen : List String) (cls : ApiClass) : depthFrom model unseen cls ≤ unseen.length := by
  fun_induction depthFrom model unseen cls with
  | case1 => exact Nat.zero_le _
  | case2 unseen cls base _ hmem ih =>
    have := length_otherNames_lt hmem
    omega
  | case3 => exact Nat.zero_le _

/-- No class has more superclasses than there are classes. -/
theorem depth_le (model : Model) (cls : ApiClass) : model.depth cls ≤ model.classes.length := by
  have := @depthFrom_le model (model.classes.map (·.name)) cls
  rwa [List.length_map] at this

/-! ## Classes with copies -/

/-- A copy of a member of a class above, as a member of the class. -/
def CopiesAbove (model : Model) (cls : ApiClass) (copy : Member) : Prop :=
  ∃ origin, TransGen model.Extends cls origin ∧ ∃ first ∈ origin.members,
    copy = Member.copyFrom cls.name (first.inheritedFrom.getD origin.name) first

/-- The second class is the first with copies behind its members: copies of members of classes above it, under
names that none of its own members has. -/
structure Extended (model : Model) (cls extended : ApiClass) : Prop where
  same : extended = { cls with members := extended.members }
  members : ∃ copies, extended.relink.members = cls.relink.members ++ copies ∧
    ∀ copy ∈ copies, copy.name ∉ cls.members.map (·.name) ∧ model.CopiesAbove cls copy

theorem relink_members (cls : ApiClass) : cls.relink.members = cls.members.map (Member.inClass cls.name) := rfl

namespace Extended

variable {now baseNow : ApiClass}

theorem refl (model : Model) (cls : ApiClass) : model.Extended cls cls :=
  ⟨rfl, [], (List.append_nil _).symm, List.forall_mem_nil _⟩

theorem name_eq (h : model.Extended cls now) : now.name = cls.name := by rw [h.same]

theorem base?_eq (h : model.Extended cls now) : now.base? = cls.base? := by
  rw [h.same]
  rfl

/-- No name of a member gets lost. -/
theorem names_subset (h : model.Extended cls now) : cls.members.map (·.name) ⊆ now.members.map (·.name) := by
  obtain ⟨copies, hmembers, -⟩ := h.members
  have hnames : ∀ members : List Member, ∀ className, (members.map (Member.inClass className)).map (·.name) =
      members.map (·.name) := fun members className => by
    rw [List.map_map]
    rfl
  have hall := congrArg (List.map (·.name)) hmembers
  rw [relink_members, relink_members, List.map_append, hnames, hnames] at hall
  rw [hall]
  exact List.subset_append_left _ _

/-- What a class hands on to a class under it is a copy of a member that a class above that one documents. -/
theorem copiesAbove (h : model.Extended base baseNow) (hextends : model.Extends cls base) {member : Member}
    (hmember : member ∈ baseNow.members) :
    model.CopiesAbove cls (Member.copyFrom cls.name (member.inheritedFrom.getD base.name) member) := by
  obtain ⟨copies, hmembers, hcopies⟩ := h.members
  have hlinked : member.inClass base.name ∈ base.relink.members ++ copies := by
    rw [← hmembers, relink_members, h.name_eq]
    exact List.mem_map_of_mem hmember
  -- links do not matter to what is copied
  have hcopy : ∀ other : Member, member.inClass base.name = other.inClass base.name →
      ∀ origin, Member.copyFrom cls.name origin member = Member.copyFrom cls.name origin other := by
    intro other hother origin
    have := congrArg
      (fun linked : Member => Member.inClass cls.name { linked with inheritedFrom := some origin }) hother
    calc Member.copyFrom cls.name origin member
        = Member.inClass cls.name { member.inClass base.name with inheritedFrom := some origin } :=
          (Member.inClass_inClass base.name cls.name { member with inheritedFrom := some origin }).symm
      _ = Member.inClass cls.name { other.inClass base.name with inheritedFrom := some origin } := this
      _ = Member.copyFrom cls.name origin other :=
          Member.inClass_inClass base.name cls.name { other with inheritedFrom := some origin }
  rcases List.mem_append.1 hlinked with hown | hcopied
  · obtain ⟨own, hown, hsame⟩ := List.mem_map.1 hown
    have horigin : member.inheritedFrom = own.inheritedFrom := (congrArg Member.inheritedFrom hsame).symm
    exact ⟨base, .single hextends, own, hown, by rw [hcopy own hsame.symm, horigin]⟩
  · obtain ⟨origin, habove, first, hfirst, hsame⟩ := (hcopies _ hcopied).2
    have horigin : member.inheritedFrom = some (first.inheritedFrom.getD origin.name) :=
      congrArg Member.inheritedFrom hsame
    refine ⟨origin, .head hextends habove, first, hfirst, ?_⟩
    rw [horigin, Option.getD_some,
      hcopy { first with inheritedFrom := some (first.inheritedFrom.getD origin.name) } hsame]
    rfl

/-- A class that inherits from its base gets copies only, and none under the name of a member that it has. -/
theorem updateMembers (h : model.Extended cls now) (hextends : model.Extends cls base)
    (hbase : model.Extended base baseNow) :
    model.Extended cls (now.updateMembers (· ++ (inherited now baseNow).1)) := by
  obtain ⟨copies, hmembers, hcopies⟩ := h.members
  refine ⟨by rw [h.same]; rfl, copies ++ (inherited now baseNow).1.map (Member.inClass cls.name), ?_, ?_⟩
  · -- new copies stand behind all that came before them
    have hrelinked : (now.updateMembers (· ++ (inherited now baseNow).1)).relink =
        now.updateMembers (· ++ (inherited now baseNow).1) := (ApiClass.linked_relink _).relink_eq
    rw [hrelinked, ApiClass.updateMembers_members, List.map_append, ← relink_members, hmembers, h.name_eq,
      List.append_assoc]
  · intro copy hcopy
    rcases List.mem_append.1 hcopy with hcopy | hcopy
    · exact hcopies copy hcopy
    · rw [inherited_eq, List.map_map] at hcopy
      obtain ⟨member, hmember, rfl⟩ := List.mem_map.1 hcopy
      obtain ⟨hmember, hnew⟩ := List.mem_filter.1 hmember
      refine ⟨fun hname => of_decide_eq_true hnew (h.names_subset hname), ?_⟩
      have hcopied := hbase.copiesAbove hextends hmember
      rwa [← hbase.name_eq] at hcopied

end Extended

/-- Dealing with a class gives it nothing but copies. -/
theorem extended_inheritAt {now : Model} (h : List.Forall₂ model.Extended model.classes now.classes) (position : Nat) :
    List.Forall₂ model.Extended model.classes (now.inheritAt position).1.classes := by
  have hclass? : ∀ {name baseNow}, now.class? name = some baseNow →
      ∃ base, model.class? name = some base ∧ model.Extended base baseNow := fun {name baseNow} hbase => by
    refine related_of_getLast? (List.rel_filter (fun cls now hnow => ?_) h) hbase
    simp only [hnow.name_eq]
  unfold inheritAt
  split
  · exact h
  · rename_i clsNow hnow
    obtain ⟨cls, hcls, hextended⟩ := related_of_getElem? h hnow
    split
    · exact h
    · rename_i name hname
      split
      · exact h
      · rename_i baseNow hbaseNow
        obtain ⟨base, hbase, hbaseExtended⟩ := hclass? hbaseNow
        have hextends : model.Extends cls base := by
          rw [Extends, ← hextended.base?_eq, hname]
          exact hbase
        exact related_set h hcls (hextended.updateMembers hextends hbaseExtended)

/-! ## Any hierarchy -/

/-- Whatever circles there are in a hierarchy: climbing from a class ends, and counts no more superclasses than there
are classes, one more than from its base if the class is not below a circle; and handing down members leaves every
class its members, linked to it, followed by nothing but copies of members of classes above it, under names that
none of its own members has. -/
theorem inherit_anyHierarchy (model : Model) :
    (∀ cls ∈ model.classes, (∀ count, model.Climbs [] cls count ↔ count = model.depth cls) ∧
        model.depth cls ≤ model.classes.length ∧
        ∀ base, model.Extends cls base → model.AcyclicFrom cls → model.depth cls = model.depth base + 1) ∧
      List.Forall₂
        (fun cls final => ∃ copies, final = { cls with members := cls.relink.members ++ copies } ∧
          ∀ copy ∈ copies, copy.name ∉ cls.members.map (·.name) ∧ model.CopiesAbove cls copy)
        model.classes model.inherit.1.classes := by
  constructor
  · exact fun cls _ => ⟨fun _ => climbs_iff, depth_le model cls, fun base hextends hacyclic =>
      hacyclic.depth_eq_succ hextends⟩
  · have hfold := foldl_inheritStep_preserves (P := fun now => List.Forall₂ model.Extended model.classes now.classes)
      (fun _ position h => extended_inheritAt h position) model.inheritanceOrder
      (model.classes.flatMap (·.orderFindings)) (List.forall₂_same.2 fun cls _ => .refl model cls)
    rw [inherit_eq_foldl]
    refine List.forall₂_map_right_iff.2 (hfold.imp fun cls now hnow => ?_)
    obtain ⟨copies, hmembers, hcopies⟩ := hnow.members
    refine ⟨copies, ?_, hcopies⟩
    rw [← hmembers]
    conv_lhs => rw [hnow.same]
    conv_rhs => rw [hnow.same]
    rfl

/-- Two classes that inherit from each other, and one that inherits from itself. -/
example :
    let model : Model :=
      ⟨[ofMethods "A" (some "B") ["a", "x"], ofMethods "B" (some "A") ["b", "x"], ofMethods "C" (some "C") ["c"]]⟩
    model.classes.map model.depth = [2, 2, 1] ∧
      model.inherit.1.classes.map (fun cls => cls.members.map (·.name)) =
        [["a", "x", "b"], ["b", "x", "a"], ["c"]] := by
  intro model
  have horder : model.inheritanceOrder = [2, 0, 1] := by cbv
  rw [inherit_eq_foldl, horder]
  decide +kernel

end Model

end RefPages
