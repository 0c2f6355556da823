/-
Indices of models. The operations on models that keep tables of positions are those on plain models,
whatever the tables were before, and leave tables behind in which every name stands for the last class,
member or argument of that name.
-/
import RefPages.Proofs.Api.Forms
import RefPages.Proofs.Api.Options
import RefPages.Proofs.Api.Positions

namespace RefPages

/-! ## What the indices are to say -/

/-- The argument or option belongs to the class of the member and, if the member is a method, to it. -/
structure Member.Belongs (member part : Member) : Prop where
  className : part.className = member.className
  enclosingMethod : part.enclosingMethod = if member.isMethod then some member.qualifiedName else none

/-- Arguments are found by name, and they and the options are linked to the member. -/
structure IndexedMember.Consistent (indexed : IndexedMember) : Prop where
  arg : ∀ name, indexed.arg? name = lastNamed? name indexed.member.args
  within : ∀ name position, indexed.args.find? name = some position → position < indexed.member.args.length
  args : ∀ arg ∈ indexed.member.args, indexed.member.Belongs arg
  options : ∀ arg ∈ indexed.member.args, arg.name = "options" → ∀ option ∈ arg.options, indexed.member.Belongs option
  sorted : ∀ arg ∈ indexed.member.args, arg.name = "options" →
    arg.options.Pairwise fun a b => (Name.compareText a.name b.name).isLE = true

/-- Members are found by name and by kind, and they are linked to the class. -/
structure IndexedClass.Consistent (cls : IndexedClass) : Prop where
  member : ∀ name, cls.member? name = (cls.members.filter (·.member.name = name)).getLast?
  within : ∀ name position, cls.index.members.find? name = some position → position < cls.members.length
  kinds : ∀ kind, cls.membersOf kind = cls.members.filter (·.member.kind = kind)
  kindsWithin : ∀ kind, ∀ position ∈ cls.index.positionsOf kind, position < cls.members.length
  className : ∀ indexed ∈ cls.members, indexed.member.className = cls.name
  members : ∀ indexed ∈ cls.members, indexed.Consistent

/-- Classes are found by name. -/
structure IndexedModel.Consistent (model : IndexedModel) : Prop where
  cls : ∀ name, model.class? name = (model.classes.filter (·.name = name)).getLast?
  within : ∀ name position, model.index.find? name = some position → position < model.classes.length
  classes : ∀ cls ∈ model.classes, cls.Consistent

/-! ## Tables made anew -/

namespace Member

theorem names_relink (member : Member) : member.relink.args.map (·.name) = member.args.map (·.name) := by
  show (member.args.map (linkArg _ _)).map (·.name) = _
  rw [List.map_map]
  exact List.map_congr_left fun arg _ => linkArg_name _ _ arg

theorem linkArg_className (className : String) (method : Option String) (arg : Member) :
    (linkArg className method arg).className = className := by
  unfold linkArg
  dsimp only
  split <;> rfl

theorem linkArg_enclosingMethod (className : String) (method : Option String) (arg : Member) :
    (linkArg className method arg).enclosingMethod = method := by
  unfold linkArg
  dsimp only
  split <;> rfl

/-- A linked member has all its arguments and options linked to it. -/
theorem belongs_of_linked {className : String} {member : Member} (h : member.inClass className = member) :
    member.className = className ∧ ∀ arg ∈ member.args, member.Belongs arg ∧ (arg.name = "options" →
      (∀ option ∈ arg.options, member.Belongs option) ∧
        arg.options.Pairwise fun a b => (Name.compareText a.name b.name).isLE = true) := by
  have hclass : member.className = className := (congrArg Member.className h).symm
  refine ⟨hclass, fun arg harg => ?_⟩
  have hargs : member.args = member.args.map (linkArg className (member.methodIn className)) :=
    (congrArg Member.args h).symm
  have hmethod : member.methodIn className = if member.isMethod then some member.qualifiedName else none := by
    rw [methodIn, qualifiedName, hclass]
  rw [hargs] at harg
  obtain ⟨before, -, rfl⟩ := List.mem_map.1 harg
  refine ⟨⟨(linkArg_className _ _ before).trans hclass.symm, (linkArg_enclosingMethod _ _ before).trans hmethod⟩,
    fun hname => ?_⟩
  · rw [linkArg_name] at hname
    rw [options_linkArg hname]
    refine ⟨fun option hoption => ?_, ?_⟩
    · obtain ⟨option, -, rfl⟩ := List.mem_map.1 hoption
      exact ⟨hclass.symm, hmethod⟩
    · exact List.pairwise_map.2 (ApiType.pairwise_sortByName _)

end Member

namespace IndexedMember

theorem inClass_inClass (first second : String) (indexed : IndexedMember) :
    (indexed.inClass first).inClass second = indexed.inClass second := by
  refine (mk.injEq _ _ _ _).mpr ⟨Member.inClass_inClass first second indexed.member, ?_⟩
  exact congrArg Positions.ofNames (Member.names_relink _)

theorem consistent_of_linked {className : String} {indexed : IndexedMember} (h : indexed.inClass className = indexed) :
    indexed.Consistent := by
  have hmarks : indexed.args.Marks (indexed.member.args.map (·.name)) := by
    have htable : indexed.args = .ofNames (indexed.member.args.map (·.name)) := (congrArg IndexedMember.args h).symm
    rw [htable]
    exact Positions.marks_ofNames _
  obtain ⟨-, hbelongs⟩ := Member.belongs_of_linked (congrArg IndexedMember.member h)
  refine ⟨hmarks.lookup, fun name position hfind => ?_, fun arg harg => (hbelongs arg harg).1,
    fun arg harg hname => ((hbelongs arg harg).2 hname).1, fun arg harg hname => ((hbelongs arg harg).2 hname).2⟩
  simpa using hmarks.lt hfind

end IndexedMember

namespace IndexedClass

/-- The tables are those of the members as they are, which are linked to the class. -/
structure Built (cls : IndexedClass) : Prop where
  members : ∀ indexed ∈ cls.members, indexed.inClass cls.name = indexed
  index : cls.index = .ofMembers (cls.members.map (·.member))

theorem built_rebuild (cls : IndexedClass) : cls.rebuild.Built := by
  refine ⟨fun indexed hindexed => ?_, rfl⟩
  obtain ⟨before, -, rfl⟩ := List.mem_map.1 hindexed
  exact IndexedMember.inClass_inClass _ _ before

theorem Built.consistent {cls : IndexedClass} (h : cls.Built) : cls.Consistent := by
  have hmarks : cls.index.Marks (cls.members.map (·.member)) := by
    rw [h.index]
    exact ClassIndex.marks_ofMembers _
  have hnames := hmarks.names
  rw [List.map_map] at hnames
  refine ⟨hnames.lookup, fun name position hfind => ?_, hmarks.members_of_kind, fun kind position hposition => ?_,
    fun indexed hindexed => ?_, fun indexed hindexed => IndexedMember.consistent_of_linked (h.members indexed hindexed)⟩
  · simpa using hnames.lt hfind
  · simpa using hmarks.lt hposition
  · exact (Member.belongs_of_linked (congrArg IndexedMember.member (h.members indexed hindexed))).1

end IndexedClass

namespace IndexedModel

/-- The tables are those of the classes as they are. -/
structure Built (model : IndexedModel) : Prop where
  classes : ∀ cls ∈ model.classes, cls.Built
  index : model.index = .ofNames (model.classes.map (·.name))

theorem built_ofClasses (classes : List IndexedClass) : (ofClasses classes).Built := by
  refine ⟨fun cls hcls => ?_, ?_⟩
  · obtain ⟨before, -, rfl⟩ := List.mem_map.1 hcls
    exact before.built_rebuild
  · show Positions.ofNames (classes.map (·.name)) = .ofNames ((classes.map (·.rebuild)).map (·.name))
    rw [List.map_map]
    rfl

theorem Built.consistent {model : IndexedModel} (h : model.Built) : model.Consistent := by
  have hmarks : model.index.Marks (model.classes.map (·.name)) := by
    rw [h.index]
    exact Positions.marks_ofNames _
  refine ⟨hmarks.lookup, fun name position hfind => ?_, fun cls hcls => (h.classes cls hcls).consistent⟩
  simpa using hmarks.lt hfind

end IndexedModel

/-! ## Operations without the tables -/

namespace IndexedClass

theorem contents_ofClass (cls : ApiClass) : (ofClass cls).contents = cls := by
  obtain ⟨name, label, superclass, langs, experimental, since, docs, members⟩ := cls
  simp [ofClass, contents, IndexedMember.ofMember, Function.comp_def]

theorem contents_rebuild (cls : IndexedClass) : cls.rebuild.contents = cls.contents.relink := by
  have hmembers : (cls.members.map (IndexedMember.inClass cls.name)).map (·.member) =
      (cls.members.map (·.member)).map (Member.inClass cls.name) := by
    rw [List.map_map, List.map_map]
    rfl
  unfold contents rebuild ApiClass.relink
  rw [hmembers]

/-- The members are changed as those of the plain class are, up to what linking replaces. -/
theorem contents_updateMembers {cls : IndexedClass} {update : List IndexedMember → List IndexedMember}
    {plain : List Member → List Member}
    (h : (update cls.members).map (fun indexed => indexed.member.inClass cls.name) =
      (plain (cls.members.map (·.member))).map (Member.inClass cls.name)) :
    (cls.updateMembers update).contents = cls.contents.updateMembers plain := by
  have hmembers : ((update cls.members).map (·.member)).map (Member.inClass cls.name) =
      (plain (cls.members.map (·.member))).map (Member.inClass cls.name) := by rwa [List.map_map]
  rw [updateMembers, contents_rebuild]
  unfold contents ApiClass.updateMembers ApiClass.relink
  rw [hmembers]

theorem contents_setMembers {cls : IndexedClass} {members : List IndexedMember} {plain : List Member}
    (h : members.map (fun indexed => indexed.member.inClass cls.name) = plain.map (Member.inClass cls.name)) :
    (cls.setMembers members).contents = ApiClass.relink { cls.contents with members := plain } :=
  @contents_updateMembers cls (fun _ => members) (fun _ => plain) h

theorem contents_append (cls : IndexedClass) (more : List IndexedMember) :
    (cls.updateMembers (· ++ more)).contents = cls.contents.updateMembers (· ++ more.map (·.member)) := by
  refine contents_updateMembers ?_
  rw [← List.map_append, List.map_map]
  rfl

theorem contents_join (first second : IndexedClass) :
    (first.join second).contents = first.contents.join second.contents := by
  unfold ApiClass.join
  rw [show second.contents.members = second.members.map (·.member) from rfl, ← contents_append]
  rfl

end IndexedClass

/-! ## Merging -/

/-- Among distinct names, changing what stands at the place of a name is changing what has the name. -/
theorem modify_eq_map {α : Type} {items : List α} {nameOf : α → String} (hdistinct : (items.map nameOf).Nodup)
    {name : String} {position : Nat} (hplace : (items.map nameOf)[position]? = some name) (change : α → α) :
    items.modify position change = items.map fun item => if nameOf item = name then change item else item := by
  refine List.ext_getElem? fun other => ?_
  rw [List.getElem?_modify, List.getElem?_map]
  cases hitem : items[other]? with
  | none => rfl
  | some item =>
    have hother : (items.map nameOf)[other]? = some (nameOf item) := by rw [List.getElem?_map, hitem, Option.map_some]
    have hsame : position = other ↔ nameOf item = name := by
      constructor
      · rintro rfl
        exact Option.some.inj (hother.symm.trans hplace)
      · rintro rfl
        obtain ⟨hlt, -⟩ := List.getElem?_eq_some_iff.1 hplace
        exact (List.getElem?_inj hlt hdistinct).1 (hplace.trans hother.symm)
    simp only [Option.map_eq_map, Option.map_some, hsame]

namespace IndexedModel

/-- The classes that have been merged so far have distinct names, which the table has the places of. -/
structure Merged (state : List IndexedClass × Positions) : Prop where
  distinct : (state.1.map (·.name)).Nodup
  marks : state.2.Marks (state.1.map (·.name))

theorem Merged.joinClass {state : List IndexedClass × Positions} (h : Merged state) (cls : IndexedClass) :
    Merged (joinClass state cls) ∧
      (joinClass state cls).1.map (·.contents) = RefPages.joinClass (state.1.map (·.contents)) cls.contents := by
  have hany : (state.1.map (·.contents)).any (·.name = cls.contents.name) = true ↔ cls.name ∈ state.1.map (·.name) := by
    rw [List.any_map, List.any_eq_true, List.mem_map]
    exact exists_congr fun other => and_congr_right fun _ => decide_eq_true_iff
  unfold IndexedModel.joinClass RefPages.joinClass
  cases hfind : state.2.find? cls.name with
  | none =>
    have hnew := h.marks.missing hfind
    rw [if_neg (mt hany.1 hnew)]
    dsimp only
    refine ⟨⟨?_, ?_⟩, List.map_append⟩
    · rw [List.map_append, List.nodup_append]
      refine ⟨h.distinct, List.nodup_singleton _, fun name hname other hother => ?_⟩
      rw [List.mem_singleton.1 hother]
      rintro rfl
      exact hnew hname
    · have := h.marks.insert cls.name
      rwa [List.length_map, ← List.map_singleton, ← List.map_append] at this
  | some position =>
    have hplace := (h.marks.found hfind).1
    have hmodify := modify_eq_map h.distinct hplace (·.join cls)
    have hnames : (state.1.modify position (·.join cls)).map (·.name) = state.1.map (·.name) := by
      rw [hmodify, List.map_map]
      exact List.map_congr_left fun other _ => by dsimp only [Function.comp_apply]; split <;> rfl
    rw [if_pos (hany.2 (List.mem_of_getElem? hplace))]
    refine ⟨⟨hnames ▸ h.distinct, hnames ▸ h.marks⟩, ?_⟩
    dsimp only
    rw [hmodify, List.map_map, List.map_map]
    refine List.map_congr_left fun other _ => ?_
    dsimp only [Function.comp_apply]
    by_cases hname : other.name = cls.name
    · rw [if_pos hname, if_pos (show other.contents.name = cls.contents.name from hname),
        IndexedClass.contents_join]
    · rw [if_neg hname, if_neg (show ¬other.contents.name = cls.contents.name from hname)]

theorem Merged.foldl {state : List IndexedClass × Positions} (h : Merged state) (classes : List IndexedClass) :
    (classes.foldl IndexedModel.joinClass state).1.map (·.contents) =
      (classes.map (·.contents)).foldl RefPages.joinClass (state.1.map (·.contents)) := by
  induction classes generalizing state with
  | nil => rfl
  | cons cls classes ih =>
    obtain ⟨hmerged, hcontents⟩ := h.joinClass cls
    rw [List.foldl_cons, List.map_cons, List.foldl_cons, ih hmerged, hcontents]

theorem contents_ofClasses (classes : List IndexedClass) :
    (ofClasses classes).contents = Model.relink ⟨classes.map (·.contents)⟩ := by
  unfold ofClasses contents Model.relink
  rw [List.map_map, List.map_map]
  exact congrArg Model.mk (List.map_congr_left fun cls _ => cls.contents_rebuild)

theorem contents_merge (first second : IndexedModel) :
    (first.merge second).contents = first.contents.merge second.contents := by
  have hstart : Merged ([], .empty) := ⟨List.nodup_nil, Positions.marks_empty⟩
  rw [merge, contents_ofClasses, hstart.foldl, List.map_append]
  rfl

/-- What a text declares is linked as it is. -/
theorem contents_parse (text : String) : (parse text).map contents = Model.parse text := by
  unfold parse
  cases hparse : Model.parse text with
  | error fault => rfl
  | ok model =>
    have hproduced : model.Produced := .of_parse hparse
    have hcontents : (model.classes.map IndexedClass.ofClass).map (·.contents) = model.classes := by
      rw [List.map_map]
      exact (List.map_congr_left fun cls _ => IndexedClass.contents_ofClass cls).trans (List.map_id _)
    refine congrArg Except.ok ?_
    rw [contents_ofClasses, hcontents]
    exact Model.relink_eq_self fun cls hcls => hproduced.fresh.linked cls hcls

end IndexedModel

end RefPages
