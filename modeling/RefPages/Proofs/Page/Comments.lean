/-
Which comments a page of a class shows: that of the class, those of its own members, and those of
arguments and values with all properties below them.
-/
import RefPages.Page.ClassPage
import RefPages.Proofs.Api.Options

namespace RefPages

open Markup

/-! ## Comments of a class -/

/-- The list item of a member shows a comment: its own, or one that the item of a property below it
shows. -/
inductive Member.Lists : Member → List Node → Prop where
  | own (member : Member) : Lists member member.docs
  | property {member property : Member} {docs : List Node} (hproperty : property ∈ member.options)
    (h : Lists property docs) : Lists member docs

/-- The properties that are shown of what a method returns, of the value of a property, or of the
data of an event. -/
def Member.valueProperties (member : Member) : List Member :=
  match member.type with
  | some type =>
    if type.name = "void" ∧ (member.isMethod && member.isAsync) = false then []
    else type.deepProperties?.getD []
  | none => []

/-- The page of a class shows a comment. -/
inductive Dialect.Prints (dialect : Dialect) (cls : ApiClass) : List Node → Prop where
  | ofClass : Prints dialect cls cls.docs
  | ofMember {member : Member} {form : Form} (hmember : member ∈ Edition.ownMembers cls)
    (hform : form ∈ dialect.forms member) : Prints dialect cls member.docs
  | ofArg {member arg : Member} {form : Form} {docs : List Node} (hmember : member ∈ Edition.ownMembers cls)
    (hmethod : member.isMethod = true) (hform : form ∈ dialect.forms member) (harg : arg ∈ form.args)
    (h : arg.Lists docs) : Prints dialect cls docs
  | ofValue {member property : Member} {form : Form} {docs : List Node} (hmember : member ∈ Edition.ownMembers cls)
    (hform : form ∈ dialect.forms member) (hproperty : property ∈ member.valueProperties)
    (h : property.Lists docs) : Prints dialect cls docs

/-! ## What is on a page -/

/-- All of these nodes are somewhere in the forest. -/
def Markup.Shows (page nodes : List Node) : Prop := ∀ node ∈ nodes, node ∈ Node.preorderAll page

namespace Markup

theorem mem_preorderAll {nodes : List Node} {node inner : Node} (h : node ∈ nodes) (hinner : inner ∈ node.preorder) :
    inner ∈ Node.preorderAll nodes := by
  induction nodes with
  | nil => cases h
  | cons first nodes ih =>
    rw [Node.preorderAll, List.mem_append]
    rcases List.mem_cons.1 h with rfl | h
    · exact .inl hinner
    · exact .inr (ih h)

theorem self_mem_preorder (node : Node) : node ∈ node.preorder := by
  cases node <;> simp [Node.preorder]

theorem Shows.of_subset {page nodes : List Node} (h : nodes ⊆ page) : Shows page nodes :=
  fun node hnode => mem_preorderAll (h hnode) (self_mem_preorder node)

theorem Shows.of_sublist {page part nodes : List Node} (h : Shows part nodes) (hpart : part.Sublist page) :
    Shows page nodes := by
  intro node hnode
  have hsublist : (Node.preorderAll part).Sublist (Node.preorderAll page) := by
    clear h hnode
    induction hpart with
    | slnil => exact List.Sublist.refl _
    | cons node _ ih =>
      rw [Node.preorderAll]
      exact ih.trans (List.sublist_append_right _ _)
    | cons_cons node _ ih =>
      rw [Node.preorderAll, Node.preorderAll]
      exact ih.append_left _
  exact hsublist.subset (h node hnode)

theorem Shows.heading {page children nodes : List Node} {level : Nat} {text : String}
    (hnode : .heading level text children ∈ page) (h : Shows children nodes) : Shows page nodes :=
  fun inner hinner => mem_preorderAll hnode (List.mem_cons_of_mem _ (h inner hinner))

theorem Shows.item {page children nodes : List Node} {marker : Marker} {text : String}
    (hnode : .item marker text children ∈ page) (h : Shows children nodes) : Shows page nodes :=
  fun inner hinner => mem_preorderAll hnode (List.mem_cons_of_mem _ (h inner hinner))

end Markup

namespace Page

variable {dialect : Dialect}

theorem mem_memberItems {areOptions : Bool} {members : List Member} {member : Member} (h : member ∈ members) :
    (member.name, argumentItem dialect areOptions member) ∈ memberItems dialect areOptions members := by
  induction members with
  | nil => cases h
  | cons first members ih =>
    rw [memberItems]
    rcases List.mem_cons.1 h with rfl | h
    · exact List.mem_cons_self
    · exact List.mem_cons_of_mem _ (ih h)

theorem propertyItems?_eq (areOptions : Bool) (member : Member) :
    propertyItems? dialect areOptions member.type = memberItems dialect areOptions member.options := by
  unfold Member.options
  rcases member.type with _ | ⟨name, properties, union, args, returns, templates, expression⟩
  · rfl
  · cases properties <;> rfl

theorem exists_item_of_inNameOrder {α : Type} {named : List (String × Except Fault α)} {items : List α}
    (h : inNameOrder named = .ok items) {name : String} {item : Except Fault α} (hmem : (name, item) ∈ named) :
    ∃ a ∈ items, item = .ok a := by
  obtain ⟨a, ha, hitem⟩ := related_of_mem_left (mapM_eq_ok.1 h) (List.mem_mergeSort.2 hmem)
  exact ⟨a, ha, hitem⟩

theorem argumentItem_eq_ok {isOption : Bool} {arg : Member} {item : Node}
    (h : argumentItem dialect isOption arg = .ok item) :
    ∃ text properties, inNameOrder (memberItems dialect (arg.name = "options") arg.options) = .ok properties ∧
      item = .item .dash text (properties ++ shownDocs dialect arg.docs) := by
  rw [← propertyItems?_eq]
  cases arg
  rw [argumentItem] at h
  obtain ⟨typeText, -, h⟩ := bind_eq_ok.1 h
  obtain ⟨properties, hproperties, h⟩ := bind_eq_ok.1 h
  cases h
  exact ⟨_, properties, hproperties, rfl⟩

/-- What the list item of an argument is said to show is in it. -/
theorem shows_argumentItem {arg : Member} {docs : List Node} (hlists : arg.Lists docs) {isOption : Bool}
    {item : Node} (h : argumentItem dialect isOption arg = .ok item) {page : List Node} (hitem : item ∈ page) :
    Shows page (shownDocs dialect docs) := by
  induction hlists generalizing isOption item page with
  | own member =>
    obtain ⟨text, properties, -, rfl⟩ := argumentItem_eq_ok h
    exact Shows.item hitem (Shows.of_subset (List.subset_append_right _ _))
  | property hproperty _ ih =>
    obtain ⟨text, properties, hproperties, rfl⟩ := argumentItem_eq_ok h
    obtain ⟨inner, hinner, hown⟩ := exists_item_of_inNameOrder hproperties (mem_memberItems hproperty)
    exact Shows.item hitem (ih hown (List.mem_append_left _ hinner))

theorem shows_valueProperties {type : ApiType} {items : List Node} (h : valueProperties dialect type = .ok items)
    {property : Member} (hproperty : property ∈ type.deepProperties?.getD []) {docs : List Node}
    (hlists : property.Lists docs) : Shows items (shownDocs dialect docs) := by
  obtain ⟨inner, hinner, hown⟩ := exists_item_of_inNameOrder h (mem_memberItems hproperty)
  exact shows_argumentItem hlists hown hinner

/-- What is shown of the properties of a result is in the list item for it. -/
theorem shows_resultItem? {method property : Member} (hmethod : method.isMethod = true)
    (hproperty : property ∈ method.valueProperties) {docs : List Node} (hlists : property.Lists docs)
    {item? : Option Node} (h : resultItem? dialect method = .ok item?) :
    Shows item?.toList (shownDocs dialect docs) := by
  unfold Member.valueProperties at hproperty
  unfold resultItem? at h
  rw [hmethod, Bool.true_and] at hproperty
  cases htype : method.type with
  | none =>
    rw [htype] at hproperty
    cases hproperty
  | some type =>
    rw [htype] at hproperty h
    dsimp only at hproperty h
    split at hproperty
    · cases hproperty
    · rename_i hvoid
      rw [if_neg (by simpa using hvoid)] at h
      obtain ⟨text, -, h⟩ := bind_eq_ok.1 h
      obtain ⟨properties, hproperties, h⟩ := bind_eq_ok.1 h
      cases h
      exact Shows.item List.mem_cons_self (shows_valueProperties hproperties hproperty hlists)

/-- What is shown of the properties of a value is in the list item for it. -/
theorem shows_valueItem? {member property : Member} (hmember : member.isMethod = false)
    (hproperty : property ∈ member.valueProperties) {docs : List Node} (hlists : property.Lists docs)
    {item? : Option Node} (h : valueItem? dialect member = .ok item?) :
    Shows item?.toList (shownDocs dialect docs) := by
  unfold Member.valueProperties at hproperty
  unfold valueItem? at h
  rw [hmember, Bool.false_and] at hproperty
  cases htype : member.type with
  | none =>
    rw [htype] at hproperty
    cases hproperty
  | some type =>
    rw [htype] at hproperty h
    dsimp only at hproperty h
    split at hproperty
    · cases hproperty
    · rename_i hvoid
      rw [if_neg (by simpa using hvoid)] at h
      obtain ⟨text, -, h⟩ := bind_eq_ok.1 h
      obtain ⟨properties, hproperties, h⟩ := bind_eq_ok.1 h
      cases h
      exact Shows.item List.mem_cons_self (shows_valueProperties hproperties hproperty hlists)

end Page

namespace Edition

variable {edition : Edition}

theorem shows_titled {title : String} {items nodes : List Node} (h : Shows items nodes) :
    Shows (titled title items) nodes := by
  unfold titled
  cases items with
  | nil => exact h
  | cons item items => exact h.of_sublist (List.sublist_cons_self _ _)

theorem typeNodes_method {member : Member} (hmethod : member.isMethod = true) {form : Form} :
    edition.typeNodes member form = do
      let args ← form.args.mapM (Page.argumentItem edition.dialect false)
      let result ← Page.resultItem? edition.dialect member
      return titled "**Arguments**" args ++ titled "**Returns**" result.toList := by
  unfold typeNodes
  rw [of_decide_eq_true hmethod]

theorem typeNodes_value {member : Member} (hmethod : member.isMethod = false) (form : Form) {about : List Node}
    (h : edition.typeNodes member form = .ok about) :
    ∃ title item?, Page.valueItem? edition.dialect member = .ok item? ∧ about = titled title item?.toList := by
  unfold typeNodes at h
  cases hkind : member.kind with
  | method => exact absurd (decide_eq_true hkind) (by rw [← Member.isMethod, hmethod]; decide)
  | property =>
    rw [hkind] at h
    obtain ⟨item?, hitem, h⟩ := bind_eq_ok.1 h
    cases h
    exact ⟨_, item?, hitem, rfl⟩
  | event =>
    rw [hkind] at h
    obtain ⟨item?, hitem, h⟩ := bind_eq_ok.1 h
    cases h
    exact ⟨_, item?, hitem, rfl⟩

/-- A page has a section for each form of each member of its own. -/
theorem exists_section {cls : ApiClass} {page : List Node} (h : edition.classPage cls = .ok page) {member : Member}
    (hmember : member ∈ ownMembers cls) {form : Form} (hform : form ∈ edition.dialect.forms member) :
    ∃ about, edition.typeNodes member form = .ok about ∧
      ∀ nodes, Shows (Page.shownDocs edition.dialect member.docs ++ about) nodes → Shows page nodes := by
  obtain ⟨sections, hsections, h⟩ := bind_eq_ok.1 h
  cases h
  have hkind : ∃ title, (member.kind, title) ∈ sectionTitles := by
    cases member.kind
    · exact ⟨"Properties", by decide⟩
    · exact ⟨"Methods", by decide⟩
    · exact ⟨"Events", by decide⟩
  obtain ⟨title, hkind⟩ := hkind
  obtain ⟨ofKind, hofKind, hkindSection⟩ := related_of_mem_left (mapM_eq_ok.1 hsections) hkind
  obtain ⟨ofMembers, hofMembers, hkindSection⟩ := bind_eq_ok.1 hkindSection
  have hown : member ∈ (ownMembers cls).filter (·.kind = member.kind) :=
    List.mem_filter.2 ⟨hmember, decide_eq_true rfl⟩
  obtain ⟨ofForms, hofForms, hmemberSections⟩ := related_of_mem_left (mapM_eq_ok.1 hofMembers) hown
  obtain ⟨index, hindex, hget⟩ := List.mem_iff_getElem.1 hform
  have hindexed : (index, form) ∈ (edition.dialect.forms member).mapIdx fun index form => (index, form) :=
    List.mem_mapIdx.2 ⟨index, hindex, by rw [hget]⟩
  obtain ⟨node, hnode, hformSection⟩ := related_of_mem_left (mapM_eq_ok.1 hmemberSections) hindexed
  obtain ⟨about, habout, hformSection⟩ := bind_eq_ok.1 hformSection
  cases hformSection
  refine ⟨about, habout, fun nodes hnodes => ?_⟩
  have hflat : ofMembers.flatten.isEmpty = false := by
    cases hempty : ofMembers.flatten.isEmpty with
    | false => rfl
    | true =>
      have hnone := List.isEmpty_iff.1 hempty
      have hmem := List.mem_flatten.2 ⟨ofForms, hofForms, hnode⟩
      rw [hnone] at hmem
      cases hmem
  dsimp only at hkindSection
  rw [hflat] at hkindSection
  cases hkindSection
  have hheading := List.mem_flatten.2 ⟨_, hofKind, List.mem_singleton_self _⟩
  refine Shows.heading (List.mem_append_right _ hheading) ?_
  refine Shows.heading (List.mem_flatten.2 ⟨ofForms, hofForms, hnode⟩) ?_
  refine hnodes.of_sublist ?_
  rw [List.append_assoc]
  exact List.sublist_append_right _ _

/-- Every comment that is said to be printed is on the page, as the language shows it. -/
theorem shows_of_prints {cls : ApiClass} {page : List Node} (h : edition.classPage cls = .ok page)
    {docs : List Node} (hprints : edition.dialect.Prints cls docs) :
    Shows page (Page.shownDocs edition.dialect docs) := by
  cases hprints with
  | ofClass =>
    obtain ⟨sections, -, h⟩ := bind_eq_ok.1 h
    cases h
    refine Shows.of_subset fun node hnode => ?_
    simp [hnode]
  | ofMember hmember hform =>
    obtain ⟨about, -, hshows⟩ := exists_section h hmember hform
    exact hshows _ (Shows.of_subset (List.subset_append_left _ _))
  | ofArg hmember hmethod hform harg hlists =>
    obtain ⟨about, habout, hshows⟩ := exists_section h hmember hform
    refine hshows _ (Shows.of_sublist ?_ (List.sublist_append_right _ _))
    rw [typeNodes_method hmethod] at habout
    obtain ⟨args, hargs, habout⟩ := bind_eq_ok.1 habout
    obtain ⟨result, -, habout⟩ := bind_eq_ok.1 habout
    cases habout
    obtain ⟨item, hitem, hown⟩ := related_of_mem_left (mapM_eq_ok.1 hargs) harg
    refine Shows.of_sublist (shows_titled ?_) (List.sublist_append_left _ _)
    exact Page.shows_argumentItem hlists hown hitem
  | @ofValue member _ _ _ hmember hform hproperty hlists =>
    obtain ⟨about, habout, hshows⟩ := exists_section h hmember hform
    refine hshows _ (Shows.of_sublist ?_ (List.sublist_append_right _ _))
    cases hmethod : member.isMethod with
    | true =>
      rw [typeNodes_method hmethod] at habout
      obtain ⟨args, -, habout⟩ := bind_eq_ok.1 habout
      obtain ⟨result, hresult, habout⟩ := bind_eq_ok.1 habout
      cases habout
      refine Shows.of_sublist (shows_titled ?_) (List.sublist_append_right _ _)
      exact Page.shows_resultItem? hmethod hproperty hlists hresult
    | false =>
      obtain ⟨title, hvalue⟩ := typeNodes_value hmethod _ habout
      obtain ⟨value, hvalue, rfl⟩ := hvalue
      exact shows_titled (Page.shows_valueItem? hmethod hproperty hlists hvalue)

end Edition

end RefPages
