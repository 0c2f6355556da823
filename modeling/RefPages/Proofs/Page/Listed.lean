/-
What the page of a class lists. Each form of each member of its own has one entry in the table of
contents and one heading in the section of its kind, with one signature and one anchor. Each form of
each member that is inherited has one entry, in the table of contents for the class it comes from.
-/
import Mathlib
import RefPages.Api.Equality
import RefPages.Proofs.Name.Order
import RefPages.Proofs.Page.Headings

namespace RefPages

open Markup

/-! ## Lists divided by a key -/

theorem nodup_eraseDups {α : Type} [DecidableEq α] (as : List α) : as.eraseDups.Nodup := by
  induction h : as.length using Nat.strong_induction_on generalizing as with
  | _ n ih =>
    cases as with
    | nil => exact List.nodup_nil
    | cons a as =>
      have hlt : (as.filter fun b => !b == a).length < n := by
        rw [← h]
        exact Nat.lt_succ_of_le (List.length_filter_le _ _)
      rw [List.eraseDups_cons, List.nodup_cons]
      refine ⟨fun hmem => ?_, ih _ hlt _ rfl⟩
      have := (List.mem_filter.1 (List.mem_eraseDups.1 hmem)).2
      simp at this

/-- What has one of the keys is what has the first, what has the second, and so on. -/
theorem flatMap_filter_perm {α β : Type} [DecidableEq β] (key : α → Option β) {keys : List β} (hkeys : keys.Nodup)
    (as : List α) :
    (keys.flatMap fun k => as.filter fun a => key a = some k).Perm (as.filter fun a => key a ∈ keys.map some) := by
  induction keys with
  | nil => simp
  | cons k keys ih =>
    obtain ⟨hnew, hkeys⟩ := List.nodup_cons.1 hkeys
    have hfirst : (as.filter fun a => key a ∈ (k :: keys).map some).filter (fun a => key a = some k) =
        as.filter fun a => key a = some k := by
      rw [List.filter_filter]
      refine List.filter_congr fun a _ => ?_
      by_cases hkey : key a = some k <;> simp [hkey]
    have hothers : (as.filter fun a => key a ∈ (k :: keys).map some).filter (fun a => !decide (key a = some k)) =
        as.filter fun a => key a ∈ keys.map some := by
      rw [List.filter_filter]
      refine List.filter_congr fun a _ => ?_
      by_cases hkey : key a = some k <;> simp [hkey, hnew]
    rw [List.flatMap_cons, ← hfirst]
    refine ((ih hkeys).append_left _).trans ?_
    rw [← hothers]
    exact List.filter_append_perm _ _

namespace Edition

variable (edition : Edition)

/-! ## Tables of contents -/

instance : Std.TransCmp compareEntries := by
  have hnames := Name.transCmp_on Name.compareNames fun entry : String × String => entry.1
  have htexts := Name.transCmp_on Name.compareText fun entry : String × String => entry.2
  exact inferInstanceAs (Std.TransCmp
    (compareLex (fun a b : String × String => Name.compareNames a.1 b.1) fun a b => Name.compareText a.2 b.2))

/-- An entry with a link to an anchor on a page. -/
def entryOn (page : String) (entry : String × String) : Node :=
  .item .dash ("[" ++ entry.1 ++ "](" ++ page ++ "#" ++ entry.2 ++ ")") []

/-- The text of such an entry. -/
def entryText (page : String) (entry : String × String) : String :=
  "[" ++ entry.1 ++ "](" ++ page ++ "#" ++ entry.2 ++ ")"

/-- The entries for members: the label of the member, with the signature and the anchor of each form. -/
def formEntries (className : String) (members : List Member) : List (String × (String × String)) :=
  members.flatMap fun member => (edition.formHeadings className member).map fun form => (member.label, form)

/-- An entry as it is sorted: the label and the text. -/
def written (page : String) (entry : String × (String × String)) : String × String :=
  (entry.1, entryText page entry.2)

/-- The nodes list all forms of the members, each once and with a link to the anchor that it has in a class,
in the order of the labels of the members and then of the texts. -/
def ListsForms (page className : String) (members : List Member) (nodes : List Node) : Prop :=
  ∃ entries : List (String × (String × String)), entries.Perm (edition.formEntries className members) ∧
    nodes = entries.map (fun entry => entryOn page entry.2) ∧
    entries.Pairwise fun a b =>
      ((Name.compareNames a.1 b.1).then (Name.compareText (entryText page a.2) (entryText page b.2))).isLE = true

theorem listsForms_toc (page className : String) (members : List Member) :
    edition.ListsForms page className members (edition.toc page className members) := by
  have htexts : members.flatMap (edition.tocTexts page className) =
      (edition.formEntries className members).map (written page) := by
    rw [formEntries, List.map_flatMap]
    refine List.flatMap_congr fun member _ => ?_
    unfold tocTexts formHeadings
    rw [List.mapIdx_eq_zipIdx_map, List.mapIdx_eq_zipIdx_map, List.map_map, List.map_map]
    rfl
  have hsort : ((edition.formEntries className members).mergeSort fun a b =>
        (compareEntries (written page a) (written page b)).isLE).map (written page) =
      ((edition.formEntries className members).map (written page)).mergeSort fun a b => (compareEntries a b).isLE :=
    List.map_mergeSort (f := written page) fun _ _ _ _ => rfl
  have horder := Name.transCmp_on compareEntries (written page)
  refine ⟨_, List.mergeSort_perm _ _, ?_,
    Name.pairwise_mergeSort (fun a b => compareEntries (written page a) (written page b))
      (edition.formEntries className members)⟩
  rw [toc, htexts]
  rw [← hsort, List.map_map]
  rfl

/-- A table of contents has one entry for each form of each member. -/
theorem toc_perm (page className : String) (members : List Member) :
    (edition.toc page className members).Perm
      ((members.flatMap (edition.formHeadings className)).map (entryOn page)) := by
  obtain ⟨entries, hperm, hnodes, -⟩ := edition.listsForms_toc page className members
  have hforms : (edition.formEntries className members).map (·.2) =
      members.flatMap (edition.formHeadings className) := by
    rw [formEntries, List.map_flatMap]
    simp
  rw [hnodes, ← hforms, List.map_map]
  exact hperm.map _

/-! ## Classes that members are inherited from -/

/-- The members that a class has inherited from another one. -/
def inheritedFrom (cls : ApiClass) (base : String) : List Member :=
  cls.members.filter (·.inheritedFrom = some base)

theorem nodup_basesOf (cls : ApiClass) : (basesOf cls).Nodup :=
  (List.mergeSort_perm _ _).nodup_iff.2 (nodup_eraseDups _)

/-- Every inherited member is from one of the classes. -/
theorem inheritedFrom_perm (cls : ApiClass) :
    ((basesOf cls).flatMap (inheritedFrom cls)).Perm (cls.members.filter (·.inheritedFrom.isSome)) := by
  have hall : (cls.members.filter fun member => member.inheritedFrom ∈ (basesOf cls).map some) =
      cls.members.filter (·.inheritedFrom.isSome) := by
    refine List.filter_congr fun member hmember => ?_
    cases horigin : member.inheritedFrom with
    | none => simp
    | some base =>
      have hbase : base ∈ cls.members.filterMap (·.inheritedFrom) := List.mem_filterMap.2 ⟨member, hmember, horigin⟩
      simpa [basesOf, List.mem_mergeSort] using List.mem_filterMap.1 hbase
  rw [← hall]
  exact flatMap_filter_perm Member.inheritedFrom (nodup_basesOf cls) cls.members

end Edition

/-- What is between the head of the page of a class and its end: a table of contents, the sections for what
is inherited, and for each kind of members the section of this kind, if there is one. -/
structure Edition.ListsAll (edition : Edition) (cls : ApiClass) (contents inherited : List Node)
    (sections : List (List Node)) : Prop where
  /-- The table of contents has the forms of all members that are not inherited. -/
  contents : edition.ListsForms "" cls.name (ownMembers cls) contents
  /-- The sections have the forms of these members by kind. -/
  sections : List.Forall₂
    (fun kind nodes => edition.HoldsForms cls.name kind.2 ((ownMembers cls).filter (·.kind = kind.1)) nodes)
    [(.event, "Events"), (.method, "Methods"), (.property, "Properties")] sections
  kinds : (sectioned cls).Perm (ownMembers cls)
  /-- There is one table of contents for each class that members are inherited from, with their forms. -/
  inherited : List.Forall₂
    (fun base node => ∃ entries,
      node = .heading 2 ("Inherited from " ++ ((edition.model.class? base).map (·.label)).getD base) entries ∧
        edition.ListsForms (pageLink (stemOf edition.model base) edition.extension) base (inheritedFrom cls base)
          entries)
    (basesOf cls) inherited
  bases : (basesOf cls).Nodup
  handedDown : ((basesOf cls).flatMap (inheritedFrom cls)).Perm (cls.members.filter (·.inheritedFrom.isSome))

namespace Edition

variable {edition : Edition}

/-- The page of a class has one section for each kind of members, with one heading for each form of each
member that is not inherited; its table of contents has one entry for each of these forms, with the
signature and the anchor of the heading. What is inherited has one entry for each form, in the table of
contents for the class that it is inherited from, and no heading. -/
theorem classPage_lists {cls : ApiClass} {page : List Node} (h : edition.classPage cls = .ok page) :
    ∃ contents inherited sections,
      page = classHead cls :: Page.shownDocs edition.dialect cls.docs ++
        (cls.superclass.map fun base => Node.paragraph ("Extends: " ++ bracketed base)).toList ++
        contents ++ inherited ++ sections.flatten ∧
      edition.ListsAll cls contents inherited sections := by
  obtain ⟨sections, hsections, h⟩ := bind_eq_ok.1 h
  cases h
  refine ⟨_, _, sections, rfl, edition.listsForms_toc "" cls.name (ownMembers cls),
    (mapM_eq_ok.1 hsections).imp fun _ _ => holdsForms_kindSection, sectioned_perm cls, ?_, nodup_basesOf cls,
    inheritedFrom_perm cls⟩
  rw [List.forall₂_map_right_iff]
  exact List.forall₂_same.2 fun base _ => ⟨_, rfl, edition.listsForms_toc _ base (inheritedFrom cls base)⟩

/-! ## A class with members of all kinds -/

/-- A class with an event, a method that has three forms in C#, a property, and a method and a property that
are inherited from two classes. -/
def variedClass : ApiClass :=
  let int := ApiType.plain "int"
  let void := ApiType.plain "void"
  let union :=
    { ApiType.ofAlternatives "" [int, ApiType.plain "float", ApiType.plain "path"] with
      expression := some "int|float|path" }
  ApiClass.ofMembers "A" (some "B")
    [.ofName .event "ready" (some void),
      { Member.ofName .method "go" (some void) with args := [Member.property "x" union true] },
      { Member.ofName .property "name" (some int) with inheritedFrom := some "C" },
      .ofName .property "size" (some int),
      { Member.ofName .method "stop" (some void) with inheritedFrom := some "B" }]

/-- The edition of the class in C#. -/
def variedEdition : Edition where
  dialect := ⟨.csharp, ["A"] ++ ApiClass.foreignBases⟩
  model := ⟨[variedClass]⟩
  links := linksBetween ⟨.csharp, ["A"] ++ ApiClass.foreignBases⟩ ⟨[variedClass]⟩ "mdx"
  extension := "mdx"

/-- The sections on the page of the class. -/
theorem kindSections_variedClass : sectionTitles.mapM (variedEdition.kindSection "A" (ownMembers variedClass)) =
    .ok [[.heading 2 "Events" [.heading 3 "a.Ready += handler \x7b#a-event-ready\x7d" []]],
      [.heading 2 "Methods"
        [.heading 3 "a.Go(x) \x7b#a-go\x7d" [.paragraph "**Arguments**", .item .dash "\x60x\x60 [int]" []],
          .heading 3 "a.Go(x) \x7b#a-go-1\x7d" [.paragraph "**Arguments**", .item .dash "\x60x\x60 [float]" []],
          .heading 3 "a.Go(x) \x7b#a-go-2\x7d" [.paragraph "**Arguments**", .item .dash "\x60x\x60 [string]" []]]],
      [.heading 2 "Properties"
        [.heading 3 "A.Size \x7b#a-size\x7d" [.paragraph "**Type**", .item .dash "[int]" []]]]] := by
  decide +kernel

/-- The page of the class has all five forms of its own members and both inherited members. -/
theorem classPage_lists_varied :
    variedEdition.formEntries "A" (ownMembers variedClass) =
        [("ready", "a.Ready += handler", "a-event-ready"), ("go", "a.Go(x)", "a-go"), ("go", "a.Go(x)", "a-go-1"),
          ("go", "a.Go(x)", "a-go-2"), ("size", "A.Size", "a-size")] ∧
      basesOf variedClass = ["B", "C"] ∧
      ∃ page, variedEdition.classPage variedClass = .ok page ∧
        ∃ contents inherited sections,
          page = classHead variedClass :: Page.shownDocs variedEdition.dialect variedClass.docs ++
            (variedClass.superclass.map fun base => Node.paragraph ("Extends: " ++ bracketed base)).toList ++
            contents ++ inherited ++ sections.flatten ∧
          variedEdition.ListsAll variedClass contents inherited sections := by
  obtain ⟨page, hpage⟩ : ∃ page, variedEdition.classPage variedClass = .ok page :=
    ⟨_, bind_eq_ok.2 ⟨_, kindSections_variedClass, rfl⟩⟩
  exact ⟨by cbv, by cbv, page, hpage, classPage_lists hpage⟩

end Edition

end RefPages
