/-
The references in printed comments. Resolving links looks at the comments of classes, of members, of
their arguments and of the properties of these, and a page prints more than that: what is below the
properties of arguments, and all that is below values.
-/
import Mathlib
import RefPages.Proofs.Api.Answered
import RefPages.Proofs.Page.Comments

namespace RefPages

open Markup

/-! ## Comments that are looked at -/

/-- Every reference in the comment has a target of its own. -/
def TargetedDocs (docs : List Node) : Prop := AllTexts (fun text => Targeted text.toList) docs

/-- The references in the comment of the member, in those of its arguments and in those of the
properties of these have targets. -/
structure Member.Answered (member : Member) : Prop where
  own : TargetedDocs member.docs
  args : ∀ arg ∈ member.args, TargetedDocs arg.docs
  options : ∀ arg ∈ member.args, ∀ option ∈ arg.options, TargetedDocs option.docs

/-- Linking moves the options of an argument around. -/
theorem Member.docs_of_mem_options {className : String} {method : Option String} {arg option : Member}
    (h : option ∈ (linkArg className method arg).options) : ∃ own ∈ arg.options, option.docs = own.docs := by
  by_cases hname : arg.name = "options"
  · rw [options_linkArg hname] at h
    obtain ⟨own, hown, rfl⟩ := List.mem_map.1 h
    exact ⟨own, List.mem_mergeSort.1 hown, rfl⟩
  · have hnone : ¬(arg.belongingTo className method).name = "options" := hname
    unfold linkArg at h
    dsimp only at h
    rw [if_neg hnone] at h
    exact ⟨option, h, rfl⟩

theorem Member.linkArg_docs (className : String) (method : Option String) (arg : Member) :
    (linkArg className method arg).docs = arg.docs := by
  unfold linkArg
  dsimp only
  split <;> rfl

theorem Member.Answered.inClass {member : Member} (h : member.Answered) (className : String) :
    (member.inClass className).Answered := by
  have hargs : ∀ arg ∈ (member.inClass className).args,
      TargetedDocs arg.docs ∧ ∀ option ∈ arg.options, TargetedDocs option.docs := by
    intro arg harg
    obtain ⟨own, hown, rfl⟩ := List.mem_map.1 harg
    refine ⟨?_, fun option hoption => ?_⟩
    · rw [Member.linkArg_docs]
      exact h.args own hown
    · obtain ⟨before, hbefore, hdocs⟩ := Member.docs_of_mem_options hoption
      rw [hdocs]
      exact h.options own hown before hbefore
  exact ⟨h.own, fun arg harg => (hargs arg harg).1, fun arg harg => (hargs arg harg).2⟩

section

variable {render : LinkRenderer} (hrender : render.Answers) {model : Model} {context : Option LinkContext}

include hrender

theorem targeted_resolveDocs {member member' : Member}
    (h : resolveDocs render (.ofModel render model) context member = .ok member') : TargetedDocs member'.docs := by
  obtain ⟨docs, hdocs, rfl⟩ := resolveDocs_eq_ok.1 h
  exact targeted_resolveNodes hrender hdocs

theorem targeted_resolveArg {arg arg' : Member}
    (h : resolveArg render (.ofModel render model) context arg = .ok arg') :
    TargetedDocs arg'.docs ∧ ∀ option ∈ arg'.options, TargetedDocs option.docs := by
  obtain ⟨docs, type, hdocs, htype, rfl⟩ := resolveArg_eq_ok.1 h
  refine ⟨targeted_resolveNodes hrender hdocs, fun option hoption => ?_⟩
  cases hown : arg.type with
  | none =>
    rw [hown, resolveType?] at htype
    cases htype
    cases hoption
  | some own =>
    rw [hown, resolveType?] at htype
    obtain ⟨resolved, hresolved, htype⟩ := bind_eq_ok.1 htype
    cases htype
    cases hproperties : own.properties with
    | none =>
      rw [ApiType.resolveProperties_none hproperties] at hresolved
      cases hresolved
      rw [Member.options, Option.bind_some, hproperties] at hoption
      cases hoption
    | some properties =>
      obtain ⟨options, hoptions, rfl⟩ := (ApiType.resolveProperties_some hproperties).1 hresolved
      obtain ⟨before, -, hbefore⟩ := related_of_mem_right (mapM_eq_ok.1 hoptions) hoption
      exact targeted_resolveDocs hrender hbefore

theorem Member.answered_of_resolveLinks {member member' : Member}
    (h : member.resolveLinks render (.ofModel render model) = .ok member') : member'.Answered := by
  obtain ⟨own, hown, h⟩ := bind_eq_ok.1 h
  obtain ⟨args, hargs, h⟩ := bind_eq_ok.1 h
  cases h
  have hdocs : TargetedDocs own.docs := targeted_resolveDocs hrender hown
  have hargs' : ∀ arg ∈ args, TargetedDocs arg.docs ∧ ∀ option ∈ arg.options, TargetedDocs option.docs := by
    intro arg harg
    obtain ⟨before, -, hbefore⟩ := related_of_mem_right (mapM_eq_ok.1 hargs) harg
    exact targeted_resolveArg hrender hbefore
  exact ⟨hdocs, fun arg harg => (hargs' arg harg).1, fun arg harg => (hargs' arg harg).2⟩

/-- Where references are resolved, none without a target is left. -/
theorem Model.answered_of_resolveLinks {model' : Model} (h : model.resolveLinks render = .ok model') {cls : ApiClass}
    (hcls : cls ∈ model'.classes) : TargetedDocs cls.docs ∧ ∀ member ∈ cls.members, member.Answered := by
  obtain ⟨classes, hclasses, h⟩ := bind_eq_ok.1 h
  cases h
  obtain ⟨before, -, hbefore⟩ := related_of_mem_right (mapM_eq_ok.1 hclasses) hcls
  obtain ⟨docs, hdocs, hbefore⟩ := bind_eq_ok.1 hbefore
  obtain ⟨members, hmembers, hbefore⟩ := bind_eq_ok.1 hbefore
  cases hbefore
  refine ⟨targeted_resolveNodes hrender hdocs, fun member hmember => ?_⟩
  obtain ⟨linked, hlinked, rfl⟩ := List.mem_map.1 hmember
  obtain ⟨own, -, hown⟩ := related_of_mem_right (mapM_eq_ok.1 hmembers) hlinked
  exact (Member.answered_of_resolveLinks hrender hown).inClass _

end

/-! ## Comments that are printed all the same -/

namespace Dialect

theorem mem_of_mem_overloads {args form : List Member} (hform : form ∈ overloads args) {arg : Member}
    (harg : arg ∈ form) : arg ∈ args ∨ ∃ own ∈ args, ∃ type, arg = { own with type := some type } := by
  induction args generalizing form with
  | nil =>
    rw [List.mem_singleton.1 hform] at harg
    cases harg
  | cons first args ih =>
    rw [overloads] at hform
    split at hform
    · obtain ⟨alternative, -, rfl⟩ := List.mem_map.1 hform
      rcases List.mem_cons.1 harg with rfl | harg
      · exact .inr ⟨first, List.mem_cons_self, alternative, rfl⟩
      · exact .inl (List.mem_cons_of_mem first harg)
    · obtain ⟨rest, hrest, rfl⟩ := List.mem_map.1 hform
      rcases List.mem_cons.1 harg with rfl | harg
      · exact .inl List.mem_cons_self
      · rcases ih hrest harg with hown | ⟨own, hown, htype⟩
        · exact .inl (List.mem_cons_of_mem first hown)
        · exact .inr ⟨own, List.mem_cons_of_mem first hown, htype⟩

theorem mem_of_mem_documentedArgs (dialect : Dialect) {member arg : Member}
    (harg : arg ∈ dialect.documentedArgs member) :
    arg ∈ member.args ∨ ∃ own ∈ member.args, arg ∈ own.options := by
  unfold documentedArgs at harg
  split at harg
  · obtain ⟨own, hown, harg⟩ := List.mem_flatMap.1 harg
    split at harg
    · refine .inr ⟨own, hown, ?_⟩
      cases htype : own.type with
      | none =>
        rw [htype] at harg
        cases harg
      | some type =>
        rw [htype] at harg
        rw [Member.options, htype]
        exact List.mem_mergeSort.1 harg
    · rw [List.mem_singleton.1 harg]
      exact .inl hown
  · exact .inl harg

/-- The arguments that a form documents are those of the member, options of them, or one of them with an
alternative for its type. -/
theorem mem_args_of_mem_forms (dialect : Dialect) {member arg : Member} {form : Form}
    (hform : form ∈ dialect.forms member) (harg : arg ∈ form.args) :
    arg ∈ member.args ∨ (∃ own ∈ member.args, arg ∈ own.options) ∨
      ∃ own ∈ member.args, ∃ type, arg = { own with type := some type } := by
  unfold forms at hform
  dsimp only at hform
  obtain ⟨args, hargs, rfl⟩ := List.mem_map.1 hform
  split at hargs
  · exact (mem_of_mem_overloads hargs harg).imp_right .inr
  · rw [List.mem_singleton.1 hargs] at harg
    exact (mem_of_mem_documentedArgs dialect harg).imp_right .inl

/-- The page of a class shows a comment that resolving links does not look at: it is below a property of
an argument, below an argument that is an option or has an alternative for its type, or below a value. -/
inductive PrintsBelow (dialect : Dialect) (cls : ApiClass) : List Node → Prop
  | ofOption {member arg option property : Member} {form : Form} {docs : List Node}
    (hmember : member ∈ Edition.ownMembers cls) (hmethod : member.isMethod = true)
    (hform : form ∈ dialect.forms member) (harg : arg ∈ form.args) (hoption : option ∈ arg.options)
    (hproperty : property ∈ option.options) (h : property.Lists docs) : PrintsBelow dialect cls docs
  | ofForm {member arg option : Member} {form : Form} {docs : List Node}
    (hmember : member ∈ Edition.ownMembers cls) (hmethod : member.isMethod = true)
    (hform : form ∈ dialect.forms member) (harg : arg ∈ form.args) (hother : arg ∉ member.args)
    (hoption : option ∈ arg.options) (h : option.Lists docs) : PrintsBelow dialect cls docs
  | ofValue {member property : Member} {form : Form} {docs : List Node} (hmember : member ∈ Edition.ownMembers cls)
    (hform : form ∈ dialect.forms member) (hproperty : property ∈ member.valueProperties)
    (h : property.Lists docs) : PrintsBelow dialect cls docs

theorem PrintsBelow.prints {dialect : Dialect} {cls : ApiClass} {docs : List Node} (h : dialect.PrintsBelow cls docs) :
    dialect.Prints cls docs := by
  cases h with
  | ofOption hmember hmethod hform harg hoption hproperty h =>
    exact .ofArg hmember hmethod hform harg (.property hoption (.property hproperty h))
  | ofForm hmember hmethod hform harg _ hoption h => exact .ofArg hmember hmethod hform harg (.property hoption h)
  | ofValue hmember hform hproperty h => exact .ofValue hmember hform hproperty h

/-- A comment that is printed has been looked at, or it is one of the others. -/
theorem Prints.cases {dialect : Dialect} {cls : ApiClass} {docs : List Node} (h : dialect.Prints cls docs)
    (hcls : TargetedDocs cls.docs) (hmembers : ∀ member ∈ cls.members, member.Answered) :
    TargetedDocs docs ∨ dialect.PrintsBelow cls docs := by
  have hown : ∀ member ∈ Edition.ownMembers cls, member.Answered := fun member hmember =>
    hmembers member (List.mem_filter.1 hmember).1
  cases h with
  | ofClass => exact .inl hcls
  | ofMember hmember => exact .inl (hown _ hmember).own
  | ofValue hmember hform hproperty h => exact .inr (.ofValue hmember hform hproperty h)
  | @ofArg member arg form docs hmember hmethod hform harg h =>
    have hanswered := hown member hmember
    cases h with
    | own =>
      left
      rcases mem_args_of_mem_forms dialect hform harg with
        hplain | ⟨first, hfirst, hoption⟩ | ⟨first, hfirst, type, rfl⟩
      · exact hanswered.args arg hplain
      · exact hanswered.options first hfirst arg hoption
      · exact hanswered.args first hfirst
    | @property _ option _ hoption h =>
      by_cases hplain : arg ∈ member.args
      · cases h with
        | own => exact .inl (hanswered.options arg hplain option hoption)
        | property hproperty h => exact .inr (.ofOption hmember hmethod hform harg hoption hproperty h)
      · exact .inr (.ofForm hmember hmethod hform harg hplain hoption h)

end Dialect

/-- After links have been resolved, all references in the comments on a page have targets exactly when those
do that are in comments which resolving does not look at. -/
theorem Edition.prints_targeted_iff {render : LinkRenderer} (hrender : render.Answers) {model model' : Model}
    (h : model.resolveLinks render = .ok model') {cls : ApiClass} (hcls : cls ∈ model'.classes) {edition : Edition}
    {page : List Node} (hpage : edition.classPage cls = .ok page) :
    (∀ docs, edition.dialect.Prints cls docs → Markup.Shows page (Page.shownDocs edition.dialect docs)) ∧
      ((∀ docs, edition.dialect.Prints cls docs → TargetedDocs (Page.shownDocs edition.dialect docs)) ↔
        ∀ docs, edition.dialect.PrintsBelow cls docs → TargetedDocs (Page.shownDocs edition.dialect docs)) := by
  obtain ⟨hdocs, hmembers⟩ := Model.answered_of_resolveLinks hrender h hcls
  refine ⟨fun docs => shows_of_prints hpage, fun hall docs hbelow => hall docs hbelow.prints,
    fun hbelow docs hprints => ?_⟩
  rcases hprints.cases hdocs hmembers with htargeted | hprints
  · exact targeted_shownDocs edition.dialect htargeted
  · exact hbelow docs hprints

/-- A renderer with the same text for all links. -/
def sameText : LinkRenderer := fun _ => some "\x60a\x60"

theorem answers_sameText : sameText.Answers := by
  have hsealed : Sealed ('\x60' :: ['a'] ++ ['\x60']) := sealed_of_backticks (by simp)
  refine ⟨fun _ => ⟨_, rfl, hsealed⟩, fun cls text h => ?_⟩
  cases h
  decide

/-- A class with a method that says something about itself. -/
def commentedClass (comment : String) : ApiClass :=
  ApiClass.ofMembers "A" none [{ Member.ofName .method "a" none with docs := [.paragraph comment] }]

/-- The edition of the class in JavaScript. -/
def commentedEdition : Edition := ⟨⟨.js, ["A"]⟩, ⟨[commentedClass "See \x60a\x60."]⟩, sameText, "mdx"⟩

/-- The reference in the comment on the method has been resolved on the page. -/
theorem Edition.prints_targeted_iff_method :
    Model.resolveLinks sameText ⟨[commentedClass "See [\x60method: A.a\x60]."]⟩ =
        .ok ⟨[commentedClass "See \x60a\x60."]⟩ ∧
      ∃ page, commentedEdition.classPage (commentedClass "See \x60a\x60.") = .ok page ∧
        ∀ docs, commentedEdition.dialect.Prints (commentedClass "See \x60a\x60.") docs →
          Markup.Shows page (Page.shownDocs commentedEdition.dialect docs) ∧
            TargetedDocs (Page.shownDocs commentedEdition.dialect docs) := by
  have hresolve : Model.resolveLinks sameText ⟨[commentedClass "See [\x60method: A.a\x60]."]⟩ =
      .ok ⟨[commentedClass "See \x60a\x60."]⟩ := by cbv
  have hsections :
      sectionTitles.mapM (commentedEdition.kindSection "A" (ownMembers (commentedClass "See \x60a\x60."))) =
        .ok [[], [.heading 2 "Methods" [.heading 3 "a.a() \x7b#a-a\x7d" [.paragraph "See \x60a\x60."]]], []] := by cbv
  obtain ⟨page, hpage⟩ : ∃ page, commentedEdition.classPage (commentedClass "See \x60a\x60.") = .ok page :=
    ⟨_, bind_eq_ok.2 ⟨_, hsections, rfl⟩⟩
  obtain ⟨hshows, htargeted⟩ := prints_targeted_iff answers_sameText hresolve (List.mem_singleton_self _) hpage
  refine ⟨hresolve, page, hpage, fun docs hprints =>
    ⟨hshows docs hprints, htargeted.2 (fun docs hbelow => ?_) docs hprints⟩⟩
  -- there are neither arguments nor a value
  cases hbelow with
  | ofOption hmember _ hform harg =>
    obtain rfl := List.mem_singleton.1 hmember
    obtain rfl := List.mem_singleton.1 hform
    cases harg
  | ofForm hmember _ hform harg =>
    obtain rfl := List.mem_singleton.1 hmember
    obtain rfl := List.mem_singleton.1 hform
    cases harg
  | ofValue hmember _ hproperty =>
    obtain rfl := List.mem_singleton.1 hmember
    cases hproperty

/-- A class with a method that returns an object with a property that says something. -/
def resultClass (about : String) : ApiClass :=
  ApiClass.ofMembers "A" none
    [Member.ofName .method "a" (some (ApiType.object
      [{ Member.ofName .property "x" (some (ApiType.plain "int")) with docs := [.paragraph about] }]))]

/-- The comment on a property of what a method returns keeps its references. -/
theorem Edition.prints_bare :
    sameText.Answers ∧
      Model.resolveLinks sameText ⟨[resultClass "See [\x60method: A.a\x60]."]⟩ =
        .ok ⟨[resultClass "See [\x60method: A.a\x60]."]⟩ ∧
      ∃ docs, Dialect.Prints ⟨.js, ["A"]⟩ (resultClass "See [\x60method: A.a\x60].") docs ∧
        ¬TargetedDocs (Page.shownDocs ⟨.js, ["A"]⟩ docs) := by
  refine ⟨answers_sameText, by cbv, [.paragraph "See [\x60method: A.a\x60]."], ?_, ?_⟩
  · exact .ofValue (List.mem_singleton_self _) (List.mem_singleton_self (Form.mk "a.a()" []))
      (List.mem_singleton_self _) (.own _)
  · have hshown : Page.shownDocs ⟨.js, ["A"]⟩ [.paragraph "See [\x60method: A.a\x60]."] =
        [.paragraph "See [\x60method: A.a\x60]."] := by cbv
    rw [hshown, TargetedDocs, AllTexts, AllTexts, Node.AllTexts, and_true]
    intro h
    refine h ⟨"[\x60method: A.a\x60]".toList, "method".toList, "A.a".toList, none⟩ ?_ rfl
    decide

end RefPages
