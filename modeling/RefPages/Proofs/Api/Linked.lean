/-
Links from members to their classes. Linking again, to whatever class, replaces the links and
changes nothing else, so that a member can be handed from class to class.
-/
import RefPages.Api.Class
import RefPages.Proofs.Name.Order

namespace RefPages

/-! ## Sorting by name -/

namespace ApiType

theorem pairwise_sortByName (members : List Member) :
    (sortByName members).Pairwise fun a b => (Name.compareText a.name b.name).isLE = true :=
  have : Std.TransCmp fun a b : Member => Name.compareText a.name b.name :=
    Name.transCmp_on Name.compareText Member.name
  Name.pairwise_mergeSort (fun a b : Member => Name.compareText a.name b.name) members

theorem sortByName_sortByName (members : List Member) :
    sortByName (sortByName members) = sortByName members :=
  List.mergeSort_of_pairwise (pairwise_sortByName members)

/-- What keeps the names keeps the order. -/
theorem sortByName_map {f : Member → Member} (hf : ∀ member, (f member).name = member.name)
    (members : List Member) : sortByName (members.map f) = (sortByName members).map f :=
  (List.map_mergeSort fun a _ b _ => by rw [hf, hf]).symm

end ApiType

/-! ## Linking again -/

namespace Member

theorem linkOptions_linkOptions (first second : String) (method method' : Option String) (type : ApiType) :
    linkOptions second method' (linkOptions first method type) = linkOptions second method' type := by
  have hsort : ∀ options : List Member,
      ApiType.sortByName ((ApiType.sortByName options).map (belongingTo first method)) =
        (ApiType.sortByName options).map (belongingTo first method) := fun options => by
    rw [ApiType.sortByName_map (f := belongingTo first method) fun _ => rfl, ApiType.sortByName_sortByName]
  cases hproperties : type.properties with
  | none => simp [linkOptions, hproperties]
  | some options => simp [linkOptions, hproperties, hsort, belongingTo, Function.comp_def]

theorem linkArg_linkArg (first second : String) (method method' : Option String) (arg : Member) :
    linkArg second method' (linkArg first method arg) = linkArg second method' arg := by
  by_cases hname : arg.name = "options"
  · cases htype : arg.type <;>
      simp [linkArg, belongingTo, hname, htype, linkOptions_linkOptions]
  · simp [linkArg, belongingTo, hname]

/-- Only the last link of a member to a class counts. -/
theorem inClass_inClass (first second : String) (member : Member) :
    inClass second (inClass first member) = inClass second member := by
  unfold inClass relink qualifiedName
  by_cases hmethod : member.isMethod = true
  · have hkind : member.kind = .method := by simpa [isMethod] using hmethod
    simp [isMethod, hkind, linkArg_linkArg, Function.comp_def]
  · have hkind : member.kind ≠ .method := by simpa [isMethod] using hmethod
    simp [isMethod, hkind, linkArg_linkArg, Function.comp_def]

@[simp] theorem inClass_inheritedFrom (cls : String) (member : Member) :
    (inClass cls member).inheritedFrom = member.inheritedFrom := rfl

end Member

/-! ## Linked classes -/

namespace ApiClass

/-- All members of the class are linked to it. -/
def Linked (cls : ApiClass) : Prop := ∀ member ∈ cls.members, member.inClass cls.name = member

@[simp] theorem updateMembers_members (update : List Member → List Member) (cls : ApiClass) :
    (cls.updateMembers update).members = (update cls.members).map (Member.inClass cls.name) := rfl

theorem linked_relink (cls : ApiClass) : cls.relink.Linked := by
  intro member hmember
  obtain ⟨before, -, rfl⟩ := List.mem_map.1 hmember
  exact Member.inClass_inClass _ _ before

theorem Linked.map_members {cls : ApiClass} (h : cls.Linked) :
    cls.members.map (Member.inClass cls.name) = cls.members := by
  conv_rhs => rw [← List.map_id cls.members]
  exact List.map_congr_left h

theorem Linked.relink_eq {cls : ApiClass} (h : cls.Linked) : cls.relink = cls := by
  unfold relink
  rw [h.map_members]

end ApiClass

namespace Model

/-- Linking classes whose members are linked changes nothing. -/
theorem relink_eq_self {model : Model} (h : ∀ cls ∈ model.classes, cls.Linked) : model.relink = model :=
  congrArg Model.mk ((List.map_congr_left fun cls hcls => (h cls hcls).relink_eq).trans (List.map_id _))

/-! ## Classes by name -/

theorem class?_eq_some {model : Model} {name : String} {cls : ApiClass} (h : model.class? name = some cls) :
    cls ∈ model.classes ∧ cls.name = name := by
  have := List.mem_of_getLast? h
  simpa using this

/-- With distinct names a class is looked up by its name. -/
theorem class?_of_mem {model : Model} (hdistinct : (model.classes.map (·.name)).Nodup) {cls : ApiClass}
    (h : cls ∈ model.classes) : model.class? cls.name = some cls := by
  obtain ⟨before, after, hsplit⟩ := List.append_of_mem h
  rw [hsplit, List.map_append, List.map_cons, List.nodup_append] at hdistinct
  obtain ⟨-, hafter, hbefore⟩ := hdistinct
  have hfirst : before.filter (fun other => decide (other.name = cls.name)) = [] := by
    rw [List.filter_eq_nil_iff]
    intro other hother
    simpa using hbefore other.name (List.mem_map_of_mem hother) cls.name List.mem_cons_self
  have hlast : after.filter (fun other => decide (other.name = cls.name)) = [] := by
    rw [List.filter_eq_nil_iff]
    intro other hother hname
    refine (List.nodup_cons.1 hafter).1 ?_
    rw [← of_decide_eq_true hname]
    exact List.mem_map_of_mem hother
  simp [class?, hsplit, hfirst, hlast]

/-- What keeps the names keeps what they stand for. -/
theorem class?_map {f : ApiClass → ApiClass} (hf : ∀ cls, (f cls).name = cls.name) (model : Model)
    (name : String) : class? ⟨model.classes.map f⟩ name = (model.class? name).map f := by
  have hfilter : (model.classes.map f).filter (fun cls => decide (cls.name = name)) =
      (model.classes.filter fun cls => decide (cls.name = name)).map f := by
    rw [List.filter_map]
    simp [Function.comp_def, hf]
  rw [class?, class?, hfilter, List.getLast?_map]

end Model

end RefPages
