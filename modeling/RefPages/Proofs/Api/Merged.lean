/-
Merging models. Looking up a class in a merged model is looking it up in both and joining what is
found, and a model whose classes have distinct names is known from its names and its lookups. So
merging is associative because joining two classes is, and the model without classes changes nothing.
-/
import RefPages.Api.Equality
import RefPages.Proofs.Api.Together
import RefPages.Proofs.Api.Indexed

namespace RefPages

/-! ## Joining classes -/

namespace ApiClass

/-- The class is the first of the parts with the members of all parts, with the first comment that is
not empty, and with the first superclass given. -/
def JoinedFrom (cls : ApiClass) (parts : List ApiClass) : Prop :=
  ∃ first, parts.head? = some first ∧ cls =
    { first with
      members := parts.flatMap (·.members)
      docs := ((parts.map (·.docs)).find? (!·.isEmpty)).getD []
      superclass := parts.findSome? (·.superclass) }

theorem linked_join (first second : ApiClass) : (first.join second).Linked :=
  linked_relink { first with members := first.members ++ second.members }

section

variable {first second third : ApiClass}

/-- Classes of one name whose members are linked to it are joined without linking again. -/
theorem join_eq (hfirst : first.Linked) (hsecond : second.Linked) (hname : second.name = first.name) :
    first.join second =
      { first with
        members := first.members ++ second.members
        docs := if first.docs.isEmpty then second.docs else first.docs
        superclass := first.superclass.orElse fun _ => second.superclass } := by
  have hmembers :
      (first.members ++ second.members).map (Member.inClass first.name) = first.members ++ second.members := by
    rw [List.map_append, hfirst.map_members, ← hname, hsecond.map_members]
  unfold join updateMembers relink
  rw [hmembers]

theorem join_assoc (hfirst : first.Linked) (hsecond : second.Linked) (hthird : third.Linked)
    (hname : second.name = first.name) (hname' : third.name = second.name) :
    (first.join second).join third = first.join (second.join third) := by
  rw [join_eq (linked_join first second) hthird (hname'.trans hname), join_eq hfirst hsecond hname,
    join_eq hfirst (linked_join second third) hname, join_eq hsecond hthird hname', mk.injEq]
  refine ⟨rfl, rfl, ?_, rfl, rfl, rfl, ?_, List.append_assoc _ _ _⟩
  · cases first.superclass <;> rfl
  · cases hdocs : first.docs.isEmpty <;> simp [hdocs]

theorem joinedFrom_self (cls : ApiClass) : cls.JoinedFrom [cls] := by
  obtain ⟨name, label, superclass, langs, experimental, since, docs, members⟩ := cls
  refine ⟨_, rfl, ?_⟩
  rw [mk.injEq]
  refine ⟨rfl, rfl, ?_, rfl, rfl, rfl, ?_, by simp⟩
  · cases superclass <;> rfl
  · cases docs <;> rfl

theorem joinedFrom_join (hfirst : first.Linked) (hsecond : second.Linked) (hname : second.name = first.name) :
    (first.join second).JoinedFrom [first, second] := by
  refine ⟨first, rfl, ?_⟩
  rw [join_eq hfirst hsecond hname, mk.injEq]
  refine ⟨rfl, rfl, ?_, rfl, rfl, rfl, ?_, by simp⟩
  · cases hbase : first.superclass <;> cases hbase' : second.superclass <;> simp [hbase, hbase']
  · cases hdocs : first.docs <;> cases hdocs' : second.docs <;> simp [hdocs, hdocs']

end

end ApiClass

/-! ## Looking up classes -/

namespace Model

section

variable {first second : Model}

/-- With distinct names, the classes are what their names stand for. -/
theorem classes_eq_filterMap {model : Model} (hdistinct : (model.classes.map (·.name)).Nodup) :
    model.classes = (model.classes.map (·.name)).filterMap model.class? := by
  have hself : ∀ cls ∈ model.classes, (model.class? ∘ (·.name)) cls = some cls := fun cls hcls =>
    class?_of_mem hdistinct hcls
  rw [List.filterMap_map, List.filterMap_congr hself, List.filterMap_some]

/-- Models are equal when they have the same names in the same order, and the names stand for the same. -/
theorem eq_of_class?_eq (hfirst : (first.classes.map (·.name)).Nodup)
    (hnames : first.classes.map (·.name) = second.classes.map (·.name))
    (hclass : ∀ name, first.class? name = second.class? name) : first = second := by
  have hsame : first.class? = second.class? := funext hclass
  refine congrArg Model.mk (?_ : first.classes = second.classes)
  rw [classes_eq_filterMap hfirst, hsame, hnames, ← classes_eq_filterMap (hnames ▸ hfirst)]

end

section

variable (classes : List ApiClass) (cls : ApiClass) (name : String)

theorem class?_eq_none_iff : class? ⟨classes⟩ name = none ↔ name ∉ classes.map (·.name) := by
  simp [class?]

theorem class?_append (more : List ApiClass) :
    class? ⟨classes ++ more⟩ name = (class? ⟨more⟩ name).or (class? ⟨classes⟩ name) := by
  simp [class?, List.getLast?_append]

theorem class?_singleton : class? ⟨[cls]⟩ name = if cls.name = name then some cls else none := by
  by_cases hname : cls.name = name <;> simp [class?, hname]

/-- Adding a class joins it to what its name stands for. -/
theorem class?_joinClass :
    class? ⟨joinClass classes cls⟩ name = Option.merge ApiClass.join (class? ⟨classes⟩ name) (class? ⟨[cls]⟩ name) := by
  rw [class?_singleton]
  unfold joinClass
  split
  · rename_i hany
    have hkeeps : ∀ other : ApiClass, (if other.name = cls.name then other.join cls else other).name = other.name := by
      intro other
      split <;> rfl
    rw [class?_map hkeeps ⟨classes⟩ name]
    cases hfound : class? ⟨classes⟩ name with
    | none =>
      have hne : cls.name ≠ name := by
        rintro rfl
        exact (class?_eq_none_iff classes cls.name).1 hfound ((Atop.any_name classes cls.name).1 hany)
      rw [if_neg hne]
      rfl
    | some other =>
      obtain ⟨-, rfl⟩ := class?_eq_some hfound
      by_cases hname : cls.name = other.name
      · rw [if_pos hname, Option.map_some, if_pos hname.symm]
        rfl
      · rw [if_neg hname, Option.map_some, if_neg (Ne.symm hname)]
        rfl
  · rename_i hany
    rw [class?_append, class?_singleton]
    by_cases hname : cls.name = name
    · subst hname
      have hnone := (class?_eq_none_iff classes cls.name).2 (mt (Atop.any_name classes cls.name).2 hany)
      rw [if_pos rfl, hnone]
      rfl
    · rw [if_neg hname, Option.none_or, Option.merge_none_right]

/-- Adding classes of distinct names joins each to what its name stands for. -/
theorem class?_foldl_joinClass {added : List ApiClass} (hadded : (added.map (·.name)).Nodup) :
    class? ⟨added.foldl joinClass classes⟩ name =
      Option.merge ApiClass.join (class? ⟨classes⟩ name) (class? ⟨added⟩ name) := by
  induction added generalizing classes with
  | nil => exact (Option.merge_none_right).symm
  | cons cls added ih =>
    rw [List.map_cons, List.nodup_cons] at hadded
    have hcons : class? ⟨cls :: added⟩ name = (class? ⟨added⟩ name).or (class? ⟨[cls]⟩ name) :=
      class?_append [cls] name added
    rw [List.foldl_cons, ih _ hadded.2, class?_joinClass, hcons, class?_singleton]
    by_cases hname : cls.name = name
    · subst hname
      rw [(class?_eq_none_iff added cls.name).2 hadded.1, Option.none_or, Option.merge_none_right]
    · rw [if_neg hname, Option.or_none, Option.merge_none_right]

end

/-! ## Merging -/

section

variable {first second third : Model}

theorem Fresh.linked_of_class? {model : Model} (h : model.Fresh) {name : String} {cls : ApiClass}
    (hcls : model.class? name = some cls) : cls.Linked :=
  h.linked cls (class?_eq_some hcls).1

/-- A name stands in a merged model for both its classes, joined. -/
theorem class?_merge (hfirst : first.Fresh) (hsecond : second.Fresh) (name : String) :
    (first.merge second).class? name = Option.merge ApiClass.join (first.class? name) (second.class? name) := by
  have hboth : class? ⟨(first.classes ++ second.classes).foldl joinClass []⟩ name =
      Option.merge ApiClass.join (first.class? name) (second.class? name) := by
    rw [List.foldl_append, class?_foldl_joinClass _ name hsecond.distinct,
      class?_foldl_joinClass _ name hfirst.distinct]
    exact congrArg (Option.merge _ · _) Option.merge_none_left
  -- what is joined and what is linked stays as it is
  rw [merge, relink, class?_map (f := ApiClass.relink) fun _ => rfl, hboth]
  cases hfound : first.class? name with
  | none =>
    cases hother : second.class? name with
    | none => rfl
    | some cls => exact congrArg some (hsecond.linked_of_class? hother).relink_eq
  | some cls =>
    cases hother : second.class? name with
    | none => exact congrArg some (hfirst.linked_of_class? hfound).relink_eq
    | some other => exact congrArg some (cls.linked_join other).relink_eq

theorem fresh_empty : Model.empty.Fresh := ⟨sound_nil, by simp [empty]⟩

theorem merge_empty (h : first.Fresh) : first.merge .empty = first := by
  refine (eq_of_class?_eq h.distinct ?_ fun name => ?_).symm
  · rw [names_merge h.distinct fresh_empty.distinct]
    simp [empty]
  · rw [class?_merge h fresh_empty]
    exact Option.merge_none_right.symm

theorem empty_merge (h : first.Fresh) : Model.empty.merge first = first := by
  refine (eq_of_class?_eq h.distinct ?_ fun name => ?_).symm
  · rw [names_merge fresh_empty.distinct h.distinct]
    simp [empty]
  · rw [class?_merge fresh_empty h]
    exact Option.merge_none_left.symm

theorem merge_assoc (hfirst : first.Fresh) (hsecond : second.Fresh) (hthird : third.Fresh) :
    (first.merge second).merge third = first.merge (second.merge third) := by
  have hleft := hfirst.merge hsecond
  have hright := hsecond.merge hthird
  refine eq_of_class?_eq (hleft.merge hthird).distinct ?_ fun name => ?_
  · rw [names_merge hleft.distinct hthird.distinct, names_merge hfirst.distinct hsecond.distinct,
      names_merge hfirst.distinct hright.distinct, names_merge hsecond.distinct hthird.distinct, List.filter_append,
      List.filter_filter, List.append_assoc]
    congr 2
    refine List.filter_congr fun name _ => ?_
    rw [← Bool.decide_and, decide_eq_decide, List.mem_append, List.mem_filter, decide_eq_true_eq]
    tauto
  · rw [class?_merge hleft hthird, class?_merge hfirst hsecond, class?_merge hfirst hright, class?_merge hsecond hthird]
    cases hone : first.class? name with
    | none => rw [Option.merge_none_left, Option.merge_none_left]
    | some one =>
      cases htwo : second.class? name with
      | none => rw [Option.merge_none_left, Option.merge_none_right]
      | some two =>
        cases hthree : third.class? name with
        | none => rw [Option.merge_none_right, Option.merge_none_right]
        | some three =>
          have hname := (class?_eq_some hone).2
          have hname' := (class?_eq_some htwo).2
          have hname'' := (class?_eq_some hthree).2
          exact congrArg some (ApiClass.join_assoc (hfirst.linked_of_class? hone) (hsecond.linked_of_class? htwo)
            (hthird.linked_of_class? hthree) (hname'.trans hname.symm) (hname''.trans hname'.symm))

/-- A class of a merged model is joined from what its name stands for in the first and in the second. -/
theorem joinedFrom_merge (hfirst : first.Fresh) (hsecond : second.Fresh) {cls : ApiClass}
    (hcls : cls ∈ (first.merge second).classes) : cls.JoinedFrom ([first, second].filterMap (·.class? cls.name)) := by
  have hfound := class?_of_mem (hfirst.merge hsecond).distinct hcls
  rw [class?_merge hfirst hsecond] at hfound
  cases hone : first.class? cls.name with
  | none =>
    rw [hone, Option.merge_none_left] at hfound
    simpa [hone, hfound] using cls.joinedFrom_self
  | some one =>
    cases htwo : second.class? cls.name with
    | none =>
      rw [hone, htwo, Option.merge_none_right] at hfound
      cases hfound
      simpa [hone, htwo] using cls.joinedFrom_self
    | some two =>
      rw [hone, htwo] at hfound
      have hname := (class?_eq_some htwo).2.trans (class?_eq_some hone).2.symm
      have hjoined := ApiClass.joinedFrom_join (hfirst.linked_of_class? hone) (hsecond.linked_of_class? htwo) hname
      rw [← Option.some.inj hfound] at hone htwo ⊢
      simpa [hone, htwo] using hjoined

end

theorem eraseDups_eq_self {names : List String} (h : names.Nodup) : names.eraseDups = names := by
  induction names with
  | nil => rfl
  | cons name names ih =>
    obtain ⟨hname, hnames⟩ := List.nodup_cons.1 h
    have hfilter : names.filter (fun other => !other == name) = names := by
      rw [List.filter_eq_self]
      intro other hother
      have hne : other ≠ name := fun heq => hname (heq ▸ hother)
      simpa using hne
    rw [List.eraseDups_cons, hfilter, ih hnames]

/-- Merging does not depend on how models are grouped, and the model without classes changes nothing. A
merged model has the names of both, each once and in the order in which they first appear, and each of
its classes is joined from those of its name. -/
theorem merge_laws {first second third : Model} (hfirst : first.Produced) (hsecond : second.Produced)
    (hthird : third.Produced) :
    (first.merge second).merge third = first.merge (second.merge third) ∧
      first.merge .empty = first ∧ Model.empty.merge first = first ∧
      ((first.merge second).classes.map (·.name)).Nodup ∧
      (first.merge second).classes.map (·.name) = ((first.classes ++ second.classes).map (·.name)).eraseDups ∧
      ∀ cls ∈ (first.merge second).classes, cls.JoinedFrom ([first, second].filterMap (·.class? cls.name)) := by
  have hone := hfirst.fresh
  have htwo := hsecond.fresh
  refine ⟨merge_assoc hone htwo hthird.fresh, merge_empty hone, empty_merge hone, (hone.merge htwo).distinct, ?_,
    fun cls hcls => joinedFrom_merge hone htwo hcls⟩
  have hnew : (second.classes.map (·.name)).removeAll (first.classes.map (·.name)) =
      (second.classes.map (·.name)).filter fun name => name ∉ first.classes.map (·.name) :=
    List.filter_congr fun name _ => by rw [List.elem_eq_mem, decide_not]
  rw [names_merge hone.distinct htwo.distinct, List.map_append, List.eraseDups_append, eraseDups_eq_self hone.distinct,
    hnew, eraseDups_eq_self (htwo.distinct.filter _)]

/-- A class that three sources speak of, with a comment and a superclass that only the second gives. -/
theorem merge_laws_three :
    let first := Model.ofMethod []
    let second : Model :=
      ⟨[ApiClass.ofMembers "B" none [], { ApiClass.ofMembers "A" (some "B") [] with docs := [.paragraph "Text"] }]⟩
    let third := Model.ofMethod [flagArg]
    let merged := (first.merge second).merge third
    Model.parse "# class: A\n## method: A.a\n" = .ok first ∧
      Model.parse "# class: B\n# class: A\n* extends: [B]\n\nText\n" = .ok second ∧
      Model.parse "# class: A\n## method: A.a\n### param: A.a.x\n- `x` <[boolean]>\n" = .ok third ∧
      merged.classes.map (fun cls => (cls.name, cls.superclass, cls.docs, cls.members.map (·.args.length))) =
        [("A", some "B", [.paragraph "Text"], [0, 1]), ("B", none, [], [])] ∧
      merged = first.merge (second.merge third) ∧ first.merge .empty = first ∧ Model.empty.merge first = first ∧
      ((first.merge second).classes.map (·.name)).Nodup ∧
      (first.merge second).classes.map (·.name) = ((first.classes ++ second.classes).map (·.name)).eraseDups ∧
      ∀ cls ∈ (first.merge second).classes, cls.JoinedFrom ([first, second].filterMap (·.class? cls.name)) := by
  intro first second third merged
  have hfirst : Model.parse "# class: A\n## method: A.a\n" = .ok first := by decide +kernel
  have hsecond : Model.parse "# class: B\n# class: A\n* extends: [B]\n\nText\n" = .ok second := by decide +kernel
  exact ⟨hfirst, hsecond, Model.parse_flagMethod, by decide +kernel,
    merge_laws (.of_parse hfirst) (.of_parse hsecond) (.of_parse Model.parse_flagMethod)⟩

end Model

/-! ## Merging with tables -/

theorem eq_of_map_eq {α β : Type} {f : α → β} {as bs : List α}
    (hinj : ∀ a ∈ as, ∀ b ∈ bs, f a = f b → a = b) (h : as.map f = bs.map f) : as = bs := by
  induction as generalizing bs with
  | nil => exact (List.map_eq_nil_iff.1 h.symm).symm
  | cons a as ih =>
    cases bs with
    | nil => cases h
    | cons b bs =>
      obtain ⟨hhead, htail⟩ := List.cons.inj h
      rw [hinj a List.mem_cons_self b List.mem_cons_self hhead,
        ih (fun a' ha' b' hb' => hinj a' (List.mem_cons_of_mem _ ha') b' (List.mem_cons_of_mem _ hb')) htail]

theorem IndexedMember.eq_of_linked {className : String} {first second : IndexedMember}
    (hfirst : first.inClass className = first) (hsecond : second.inClass className = second)
    (h : first.member = second.member) : first = second := by
  have hargs : ∀ indexed : IndexedMember, indexed.inClass className = indexed →
      indexed.args = .ofNames (indexed.member.args.map (·.name)) := fun indexed hindexed =>
    (congrArg IndexedMember.args hindexed).symm
  rw [mk.injEq]
  exact ⟨h, by rw [hargs first hfirst, hargs second hsecond, h]⟩

/-- The tables of a class are known from the class. -/
theorem IndexedClass.Built.eq_of_contents {first second : IndexedClass} (hfirst : first.Built) (hsecond : second.Built)
    (h : first.contents = second.contents) : first = second := by
  have hname : first.name = second.name := congrArg ApiClass.name h
  have hplain : first.members.map (·.member) = second.members.map (·.member) := congrArg ApiClass.members h
  have hmembers : first.members = second.members := eq_of_map_eq
    (fun a ha b hb => IndexedMember.eq_of_linked (hfirst.members a ha) (hname ▸ hsecond.members b hb)) hplain
  have hindex : first.index = second.index := by rw [hfirst.index, hsecond.index, hmembers]
  rw [mk.injEq]
  exact ⟨hname, congrArg ApiClass.label h, congrArg ApiClass.superclass h, congrArg ApiClass.langs h,
    congrArg ApiClass.experimental h, congrArg ApiClass.since h, congrArg ApiClass.docs h, hmembers, hindex⟩

namespace IndexedModel

/-- The tables of a model are known from the model. -/
theorem Built.eq_of_contents {first second : IndexedModel} (hfirst : first.Built) (hsecond : second.Built)
    (h : first.contents = second.contents) : first = second := by
  have hclasses : first.classes = second.classes := eq_of_map_eq
    (fun a ha b hb => (hfirst.classes a ha).eq_of_contents (hsecond.classes b hb)) (congrArg Model.classes h)
  rw [mk.injEq]
  exact ⟨hclasses, by rw [hfirst.index, hsecond.index, hclasses]⟩

/-- With their tables, too, merged models do not depend on how models are grouped. -/
theorem merge_assoc {first second third : IndexedModel} (hfirst : first.contents.Fresh)
    (hsecond : second.contents.Fresh) (hthird : third.contents.Fresh) :
    (first.merge second).merge third = first.merge (second.merge third) := by
  refine Built.eq_of_contents (built_ofClasses _) (built_ofClasses _) ?_
  rw [contents_merge, contents_merge, contents_merge, contents_merge, Model.merge_assoc hfirst hsecond hthird]

end IndexedModel

end RefPages
