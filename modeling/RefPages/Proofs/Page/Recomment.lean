/-
Pages of a model whose comments are changed. A change that does not show in the comments that a page
prints leaves the page as it is: nothing else on it depends on comments.
-/
import RefPages.Proofs.Dialect.Recomment
import RefPages.Proofs.Page.Comments

namespace RefPages

open Markup (Node)

/-! ## Properties within types -/

namespace ApiType

section

variable {change : List Node → List Node}

mutual

theorem reach_recomment : ∀ type : ApiType,
    (type.recomment change).reach = type.reach.map (recomment change)
  | { properties, union, args, returns, templates, .. } => by
    rw [recomment, reach, reach, List.map_cons, recomment, reachAll?_recomment union, reachAll?_recomment args,
      reachAll?_recomment templates, reach?_recomment returns, reachProperties?_recomment properties]
    simp only [List.map_append]

theorem reach?_recomment : ∀ type : Option ApiType,
    reach? (recommentType? change type) = (reach? type).map (recomment change)
  | none => rfl
  | some type => by
    rw [recommentType?, reach?, reach?, reach_recomment type]

theorem reachAll?_recomment : ∀ types : Option (List ApiType),
    reachAll? (recommentTypes? change types) = (reachAll? types).map (recomment change)
  | none => rfl
  | some types => by
    rw [recommentTypes?, reachAll?, reachAll?, reachAll_recomment types]

theorem reachAll_recomment : ∀ types : List ApiType,
    reachAll (recommentTypes change types) = (reachAll types).map (recomment change)
  | [] => rfl
  | type :: types => by
    rw [recommentTypes, reachAll, reachAll, List.map_append, reach_recomment type, reachAll_recomment types]

theorem reachProperties?_recomment : ∀ properties : Option (List Member),
    reachProperties? (recommentMembers? change properties) = (reachProperties? properties).map (recomment change)
  | none => rfl
  | some properties => by
    rw [recommentMembers?, reachProperties?, reachProperties?, reachProperties_recomment properties]

theorem reachProperties_recomment : ∀ properties : List Member,
    reachProperties (recommentMembers change properties) = (reachProperties properties).map (recomment change)
  | [] => rfl
  | { type, langs := { .. }, .. } :: properties => by
    rw [recommentMembers, Member.recomment, reachProperties, reachProperties, List.map_append,
      reach?_recomment type, reachProperties_recomment properties]

end

theorem deepProperties?_recomment (type : ApiType) :
    (type.recomment change).deepProperties? =
      type.deepProperties?.map (·.map (Member.recomment change)) := by
  have hproperties : (type.reach.map (recomment change)).filterMap (·.properties) =
      (type.reach.filterMap (·.properties)).map (·.map (Member.recomment change)) := by
    rw [List.filterMap_map, List.map_filterMap]
    congr 1
    funext inner
    exact recomment_properties inner
  unfold deepProperties?
  rw [reach_recomment, hproperties, List.find?_map]
  simp only [Function.comp_def, List.isEmpty_map]

end

end ApiType

/-! ## List items -/

namespace Page

section

variable {change : List Node → List Node} (dialect : Dialect)

theorem argumentType_recomment (arg : Member) :
    argumentType dialect (arg.recomment change) = argumentType dialect arg := by
  unfold argumentType
  rw [Member.recomment_type]
  cases arg.type with
  | none => rfl
  | some type => simp only [Option.map_some, Dialect.typeText_recomment]

/-- Pages show a comment in the same way before and after the change. -/
def ShowsSame (dialect : Dialect) (change : List Node → List Node) (docs : List Node) : Prop :=
  shownDocs dialect (change docs) = shownDocs dialect docs

mutual

/-- The list item of an argument depends on the comments that it lists, and on nothing else about
comments. -/
theorem argumentItem_recomment (isOption : Bool) : ∀ arg : Member,
    (∀ docs, arg.Lists docs → ShowsSame dialect change docs) →
      argumentItem dialect isOption (arg.recomment change) = argumentItem dialect isOption arg
  | ⟨kind, name, label, overloadIndex, type, args, docs, required, isAsync, deprecated, experimental, since,
      ⟨only, labels, types, overrides⟩, className, enclosingMethod, inheritedFrom, overloadOf⟩, hsame => by
    have htype := @argumentType_recomment change dialect
      ⟨kind, name, label, overloadIndex, type, args, docs, required, isAsync, deprecated, experimental, since,
        ⟨only, labels, types, overrides⟩, className, enclosingMethod, inheritedFrom, overloadOf⟩
    have hown : shownDocs dialect (change docs) = shownDocs dialect docs := hsame docs (.own _)
    have hproperties := propertyItems?_recomment (name = "options") type fun property hproperty docs hlists =>
      hsame docs (.property hproperty hlists)
    rw [Member.recomment] at htype ⊢
    rw [argumentItem, argumentItem, htype, hproperties, hown]
    rfl

theorem propertyItems?_recomment (areOptions : Bool) : ∀ type : Option ApiType,
    (∀ property ∈ (type.bind (·.properties)).getD [], ∀ docs, property.Lists docs → ShowsSame dialect change docs) →
      propertyItems? dialect areOptions (recommentType? change type) = propertyItems? dialect areOptions type
  | none, _ => rfl
  | some { properties, .. }, hsame => by
    rw [recommentType?, ApiType.recomment, propertyItems?, propertyItems?,
      memberItems?_recomment areOptions properties hsame]

theorem memberItems?_recomment (areOptions : Bool) : ∀ members : Option (List Member),
    (∀ member ∈ members.getD [], ∀ docs, member.Lists docs → ShowsSame dialect change docs) →
      memberItems? dialect areOptions (recommentMembers? change members) = memberItems? dialect areOptions members
  | none, _ => rfl
  | some members, hsame => by
    rw [recommentMembers?, memberItems?, memberItems?, memberItems_recomment areOptions members hsame]

theorem memberItems_recomment (areOptions : Bool) : ∀ members : List Member,
    (∀ member ∈ members, ∀ docs, member.Lists docs → ShowsSame dialect change docs) →
      memberItems dialect areOptions (recommentMembers change members) = memberItems dialect areOptions members
  | [], _ => rfl
  | arg :: args, hsame => by
    rw [recommentMembers, memberItems, memberItems,
      argumentItem_recomment areOptions arg (hsame arg List.mem_cons_self),
      memberItems_recomment areOptions args fun member hmember => hsame member (List.mem_cons_of_mem _ hmember),
      Member.recomment_name]

end

theorem valueProperties_recomment {type : ApiType}
    (hsame : ∀ property ∈ type.deepProperties?.getD [], ∀ docs, property.Lists docs → ShowsSame dialect change docs) :
    valueProperties dialect (type.recomment change) = valueProperties dialect type := by
  unfold valueProperties
  rw [ApiType.deepProperties?_recomment]
  cases hdeep : type.deepProperties? with
  | none => rfl
  | some properties =>
    rw [hdeep] at hsame
    rw [Option.map_some, Option.getD_some, Option.getD_some, ← recommentMembers_eq,
      memberItems_recomment dialect false properties hsame]

theorem resultItem?_recomment {method : Member} (hmethod : method.isMethod = true)
    (hsame : ∀ property ∈ method.valueProperties, ∀ docs, property.Lists docs → ShowsSame dialect change docs) :
    resultItem? dialect (method.recomment change) = resultItem? dialect method := by
  unfold Member.valueProperties at hsame
  unfold resultItem?
  rw [Member.recomment_type, Member.recomment_isAsync]
  cases htype : method.type with
  | none => rfl
  | some type =>
    rw [htype, hmethod, Bool.true_and] at hsame
    dsimp only at hsame
    simp only [Option.map_some, ApiType.recomment_name, Dialect.typeText_recomment]
    by_cases hvoid : type.name = "void" ∧ (!method.isAsync) = true
    · rw [if_pos hvoid, if_pos hvoid]
    · rw [if_neg (by simpa using hvoid)] at hsame
      rw [if_neg hvoid, if_neg hvoid, valueProperties_recomment dialect hsame]

theorem valueItem?_recomment {member : Member} (hmethod : member.isMethod = false)
    (hsame : ∀ property ∈ member.valueProperties, ∀ docs, property.Lists docs → ShowsSame dialect change docs) :
    valueItem? dialect (member.recomment change) = valueItem? dialect member := by
  unfold Member.valueProperties at hsame
  unfold valueItem?
  rw [Member.recomment_type]
  cases htype : member.type with
  | none => rfl
  | some type =>
    rw [htype, hmethod, Bool.false_and] at hsame
    dsimp only at hsame
    simp only [Option.map_some, ApiType.recomment_name, Dialect.typeText_recomment]
    by_cases hvoid : type.name = "void"
    · rw [if_pos hvoid, if_pos hvoid]
    · rw [if_neg (by simpa using hvoid)] at hsame
      rw [if_neg hvoid, if_neg hvoid, valueProperties_recomment dialect hsame]

end

end Page

/-! ## Pages of classes -/

namespace Edition

/-- The edition with all comments changed. -/
def recomment (change : List Node → List Node) (edition : Edition) : Edition :=
  { edition with model := edition.model.recomment change }

section

variable {change : List Node → List Node} (edition : Edition)

theorem stemOf_recomment (model : Model) (className : String) :
    stemOf (model.recomment change) className = stemOf model className := by
  unfold stemOf
  rw [Model.class?_recomment]
  cases model.class? className <;> rfl

theorem formAnchor_recomment (className : String) (member : Member) (index : Nat) :
    formAnchor className (member.recomment change) index = formAnchor className member index := by
  unfold formAnchor Page.anchor Member.isEvent
  rw [Member.recomment_kind, Member.recomment_name]

theorem tocTexts_recomment (page className : String) (member : Member) :
    (edition.recomment change).tocTexts page className (member.recomment change) =
      edition.tocTexts page className member := by
  unfold tocTexts
  rw [recomment, Dialect.forms_recomment, List.mapIdx_eq_zipIdx_map, List.mapIdx_eq_zipIdx_map, List.zipIdx_map,
    List.map_map]
  refine List.map_congr_left fun entry _ => ?_
  obtain ⟨form, index⟩ := entry
  show ((member.recomment change).label, "[" ++ form.signature ++ "](" ++ page ++ "#" ++
    formAnchor className (member.recomment change) index ++ ")") = _
  rw [Member.recomment_label, formAnchor_recomment]

theorem toc_recomment (page className : String) (members : List Member) :
    (edition.recomment change).toc page className (members.map (Member.recomment change)) =
      edition.toc page className members := by
  unfold toc
  rw [List.flatMap_map]
  simp only [tocTexts_recomment]

theorem inheritedSection_recomment (cls : ApiClass) (base : String) :
    (edition.recomment change).inheritedSection (cls.recomment change) base =
      edition.inheritedSection cls base := by
  have hmembers : (cls.recomment change).members.filter (·.inheritedFrom = some base) =
      (cls.members.filter (·.inheritedFrom = some base)).map (Member.recomment change) := by
    rw [ApiClass.recomment, List.filter_map]
    simp only [Function.comp_def, Member.recomment_inheritedFrom]
  have hlabel : (((edition.model.recomment change).class? base).map (·.label)).getD base =
      ((edition.model.class? base).map (·.label)).getD base := by
    rw [Model.class?_recomment]
    cases edition.model.class? base <;> rfl
  unfold inheritedSection
  rw [hmembers, toc_recomment]
  show Node.heading 2 ("Inherited from " ++ (((edition.model.recomment change).class? base).map (·.label)).getD base)
    (edition.toc (pageLink (stemOf (edition.model.recomment change) base) edition.extension) base _) = _
  rw [hlabel, stemOf_recomment]

theorem basesOf_recomment (cls : ApiClass) : basesOf (cls.recomment change) = basesOf cls := by
  unfold basesOf
  rw [ApiClass.recomment, List.filterMap_map]
  simp only [Function.comp_def, Member.recomment_inheritedFrom]

variable {edition}

theorem typeNodes_recomment {member : Member} {form : Form}
    (hargs : member.isMethod = true → ∀ arg ∈ form.args, ∀ docs, arg.Lists docs →
      Page.ShowsSame edition.dialect change docs)
    (hvalue : ∀ property ∈ member.valueProperties, ∀ docs, property.Lists docs →
      Page.ShowsSame edition.dialect change docs) :
    (edition.recomment change).typeNodes (member.recomment change) (form.recomment change) =
      edition.typeNodes member form := by
  unfold typeNodes
  rw [Member.recomment_kind]
  cases hkind : member.kind with
  | method =>
    have hmethod : member.isMethod = true := decide_eq_true hkind
    have hitems : (form.recomment change).args.mapM (Page.argumentItem edition.dialect false) =
        form.args.mapM (Page.argumentItem edition.dialect false) := by
      rw [Form.recomment, List.mapM_map]
      exact mapM_congr fun arg harg => Page.argumentItem_recomment edition.dialect false arg (hargs hmethod arg harg)
    simp only [recomment, hitems, Page.resultItem?_recomment edition.dialect hmethod hvalue]
  | property =>
    have hmethod : member.isMethod = false := by rw [Member.isMethod, hkind]; decide
    simp only [recomment, Page.valueItem?_recomment edition.dialect hmethod hvalue]
  | event =>
    have hmethod : member.isMethod = false := by rw [Member.isMethod, hkind]; decide
    simp only [recomment, Page.valueItem?_recomment edition.dialect hmethod hvalue]

section

variable {cls : ApiClass}
  (hsame : ∀ docs, edition.dialect.Prints cls docs → Page.ShowsSame edition.dialect change docs)

include hsame

theorem formSection_recomment {member : Member} (hmember : member ∈ ownMembers cls) (index : Nat) {form : Form}
    (hform : form ∈ edition.dialect.forms member) :
    (edition.recomment change).formSection cls.name (member.recomment change) index (form.recomment change) =
      edition.formSection cls.name member index form := by
  have htypes := @typeNodes_recomment _ edition _ _
    (fun hmethod arg harg docs hlists => hsame docs (.ofArg hmember hmethod hform harg hlists))
    (fun property hproperty docs hlists => hsame docs (.ofValue hmember hform hproperty hlists))
  have hown : Page.shownDocs edition.dialect (change member.docs) = Page.shownDocs edition.dialect member.docs :=
    hsame _ (.ofMember hmember hform)
  unfold formSection sinceNodes
  rw [htypes, formAnchor_recomment, Member.recomment_since, Member.recomment_docs]
  show (do
    let about ← edition.typeNodes member form
    return Node.heading 3 _ (_ ++ Page.shownDocs edition.dialect (change member.docs) ++ about)) = _
  rw [hown]
  rfl

theorem memberSections_recomment {member : Member} (hmember : member ∈ ownMembers cls) :
    (edition.recomment change).memberSections cls.name (member.recomment change) =
      edition.memberSections cls.name member := by
  have hforms : ((edition.recomment change).dialect.forms (member.recomment change)).mapIdx
        (fun index form => (index, form)) =
      ((edition.dialect.forms member).mapIdx fun index form => (index, form)).map
        fun entry => (entry.1, entry.2.recomment change) := by
    rw [recomment, Dialect.forms_recomment, List.mapIdx_eq_zipIdx_map, List.mapIdx_eq_zipIdx_map, List.zipIdx_map,
      List.map_map, List.map_map]
    rfl
  unfold memberSections
  rw [hforms, List.mapM_map]
  refine mapM_congr ?_
  rintro ⟨index, form⟩ hentry
  obtain ⟨_, _, heq⟩ := List.mem_mapIdx.1 hentry
  obtain ⟨-, rfl⟩ := Prod.mk.inj heq
  exact formSection_recomment hsame hmember index (List.getElem_mem _)

theorem kindSection_recomment (kind : MemberKind × String) :
    (edition.recomment change).kindSection cls.name ((ownMembers cls).map (Member.recomment change)) kind =
      edition.kindSection cls.name (ownMembers cls) kind := by
  have hfilter : ((ownMembers cls).map (Member.recomment change)).filter (·.kind = kind.1) =
      ((ownMembers cls).filter (·.kind = kind.1)).map (Member.recomment change) := by
    rw [List.filter_map]
    simp only [Function.comp_def, Member.recomment_kind]
  have hsections : (((ownMembers cls).filter (·.kind = kind.1)).map (Member.recomment change)).mapM
        ((edition.recomment change).memberSections cls.name) =
      ((ownMembers cls).filter (·.kind = kind.1)).mapM (edition.memberSections cls.name) := by
    rw [List.mapM_map]
    exact mapM_congr fun member hmember => memberSections_recomment hsame (List.mem_filter.1 hmember).1
  unfold kindSection
  rw [hfilter, hsections]

/-- The page of a class depends on the comments that it prints, and on no others. -/
theorem classPage_recomment :
    (edition.recomment change).classPage (cls.recomment change) = edition.classPage cls := by
  have hown : ownMembers (cls.recomment change) = (ownMembers cls).map (Member.recomment change) := by
    unfold ownMembers
    rw [ApiClass.recomment, List.filter_map]
    simp only [Function.comp_def, Member.recomment_inheritedFrom]
  have hkinds : (edition.recomment change).kindSection cls.name ((ownMembers cls).map (Member.recomment change)) =
      edition.kindSection cls.name (ownMembers cls) :=
    funext (kindSection_recomment hsame)
  have hinherited : (edition.recomment change).inheritedSection (cls.recomment change) =
      edition.inheritedSection cls :=
    funext (inheritedSection_recomment edition cls)
  have hdocs : Page.shownDocs edition.dialect (change cls.docs) = Page.shownDocs edition.dialect cls.docs :=
    hsame _ .ofClass
  unfold classPage
  dsimp only
  rw [hown, basesOf_recomment, toc_recomment, hinherited]
  show (do
    let sections ← sectionTitles.mapM ((edition.recomment change).kindSection cls.name _)
    return classHead cls :: Page.shownDocs edition.dialect (change cls.docs) ++ _ ++ _ ++ _ ++ sections.flatten) = _
  rw [hkinds, hdocs]
  rfl

end

end

end Edition

end RefPages
