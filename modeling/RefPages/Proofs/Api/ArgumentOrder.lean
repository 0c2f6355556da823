/-
The arguments of the members of a model: no two have one name, the options stand behind all others and are in the
order of their names, and the others are in the order of the first headings about them. What a heading says is
found in the member that it is about, as an argument, as its form in a language or as an option.
-/
import RefPages.Api.Equality
import RefPages.Proofs.Api.ArgumentList
import RefPages.Proofs.Api.Indexed
import RefPages.Proofs.Api.Owned

namespace RefPages

/-! ## What headings say -/

/-- Bullets that restrict an item to languages name one. -/
theorem Metadata.only_of_read {nodes : List Markup.Node} {metadata : Metadata}
    (h : Metadata.read nodes = .ok metadata) : metadata.langs.only ≠ some [] :=
  langs_of_read (P := fun rules => rules.only ≠ some []) (fun _ honly => honly)
    (fun _ _ _ hrules hadd => (LangRules.kept_of_addDetail hadd).1.symm ▸ hrules) h

theorem exists_type_of_readProperty {node : Markup.Node} {property : Member} (h : readProperty node = .ok property) :
    ∃ type, property.type = some type := by
  unfold readProperty at h
  split at h
  · obtain ⟨line, -, h⟩ := bind_eq_ok.1 h
    obtain ⟨metadata, -, h⟩ := bind_eq_ok.1 h
    obtain ⟨properties, -, h⟩ := bind_eq_ok.1 h
    obtain ⟨type, -, h⟩ := bind_eq_ok.1 h
    cases h
    exact ⟨type, rfl⟩
  · cases h

namespace ArgumentDoc

/-- What holds of every argument that a heading documents. -/
structure Formed (doc : ArgumentDoc) : Prop where
  overrides : doc.arg.langs.overrides = .empty
  only : doc.arg.langs.only ≠ some []
  type : ∃ type, doc.arg.type = some type

theorem formed_of_read {heading : String} {content : List Markup.Node} {doc : ArgumentDoc}
    (h : ArgumentDoc.read heading content = .ok doc) : doc.Formed := by
  suffices hrest : doc.arg.langs.only ≠ some [] ∧ ∃ type, doc.arg.type = some type from
    ⟨overrides_of_read h, hrest.1, hrest.2⟩
  unfold ArgumentDoc.read at h
  split at h
  · split at h
    · split at h
      · obtain ⟨metadata, hmetadata, h⟩ := bind_eq_ok.1 h
        split at h
        · obtain ⟨arg, harg, h⟩ := bind_eq_ok.1 h
          cases h
          obtain ⟨type, htype⟩ := exists_type_of_readProperty harg
          exact ⟨Metadata.only_of_read hmetadata, type, htype⟩
        · cases h
      · cases h
    · cases h
  · cases h

variable {first doc : ArgumentDoc} {docs before after later : List ArgumentDoc}

/-- A heading is about an argument that is there. -/
theorem exists_argument (hdoc : doc ∈ docs) :
    ∃ first later, docs.filter (·.about = doc.about) = first :: later ∧
      first.argument later ∈ arguments docs := by
  cases hfilter : docs.filter (·.about = doc.about) with
  | nil => exact absurd (List.mem_filter.2 ⟨hdoc, decide_eq_true rfl⟩) (hfilter ▸ List.not_mem_nil)
  | cons first later => exact ⟨first, later, rfl, argument_mem hfilter⟩

/-- The form for a language is that of the last heading which names it. -/
theorem lastFor?_of_last {lang : Lang} (hnames : doc.names lang = true)
    (hafter : ∀ other ∈ after, other.names lang = false) :
    lastFor? (before ++ doc :: after) lang = some doc.arg := by
  have hnone : after.filter (·.names lang) = [] :=
    List.filter_eq_nil_iff.2 fun other hother => by rw [hafter other hother]; exact Bool.false_ne_true
  have hlast : (doc :: after).filter (·.names lang) = [doc] := by rw [List.filter_cons, if_pos hnames, hnone]
  rw [lastFor?, List.filter_append, hlast, List.getLast?_append, List.getLast?_singleton]
  rfl

/-- An argument has the options of its type, and behind them those that headings add. -/
theorem options_argument (hfirst : first.Formed) (later : List ArgumentDoc) :
    (first.argument later).options = first.start.options ++ (first :: later).filterMap option? := by
  have htype : ∃ type, first.start.type = some type := by
    unfold start
    split
    · exact ⟨_, rfl⟩
    · exact hfirst.type
  obtain ⟨type, htype⟩ := htype
  have hwhole : (first.argument later).type = some (withOptions (first :: later) type) := by
    rw [argument, htype]
    rfl
  rw [Member.options, Member.options, hwhole, htype]
  exact properties_withOptions _ type

end ArgumentDoc

/-! ## Options behind all others -/

/-- The first argument for options goes behind all others. -/
theorem optionsLast_cases (args : List Member) :
    (∀ arg ∈ args, arg.name ≠ "options") ∧ optionsLast args = args ∨
      ∃ before options after, args = before ++ options :: after ∧ options.name = "options" ∧
        optionsLast args = before ++ after ++ [options] := by
  unfold optionsLast
  split
  · rename_i options hfind
    obtain ⟨hoptions, before, after, rfl, hbefore⟩ := List.find?_eq_some_iff_append.1 hfind
    have hnone : ∀ arg ∈ before, ¬ decide (arg.name = "options") = true := fun arg harg => by
      simpa using hbefore arg harg
    refine .inr ⟨before, options, after, rfl, of_decide_eq_true hoptions, ?_⟩
    rw [List.eraseP_append_right _ hnone,
      List.eraseP_cons_of_pos (p := fun arg : Member => decide (arg.name = "options")) hoptions]
  · rename_i hnone
    exact .inl ⟨fun arg harg => by simpa using List.find?_eq_none.1 hnone arg harg, rfl⟩

theorem getLast?_optionsLast {args : List Member} (hdistinct : (args.map (·.name)).Nodup) {arg : Member}
    (harg : arg ∈ args) (hname : arg.name = "options") : (optionsLast args).getLast? = some arg := by
  rcases optionsLast_cases args with ⟨hnone, -⟩ | ⟨before, options, after, rfl, hoptions, hlast⟩
  · exact absurd hname (hnone arg harg)
  · have hsame : options = arg :=
      List.inj_on_of_nodup_map hdistinct (by simp) harg (hoptions.trans hname.symm)
    rw [hlast, hsame, List.getLast?_append, List.getLast?_singleton]
    rfl

/-- The others stay in order. -/
theorem filter_names_optionsLast (args : List Member) :
    ((optionsLast args).map (·.name)).filter (· ≠ "options") = (args.map (·.name)).filter (· ≠ "options") := by
  rcases optionsLast_cases args with ⟨-, hsame⟩ | ⟨before, options, after, rfl, hoptions, hlast⟩
  · rw [hsame]
  · rw [hlast]
    simp [hoptions]

/-- Which of several equal elements stays does not depend on the others. -/
theorem eraseDups_filter {α : Type} [DecidableEq α] (test : α → Bool) (as : List α) :
    (as.filter test).eraseDups = as.eraseDups.filter test := by
  induction hlength : as.length using Nat.strong_induction_on generalizing as with
  | _ n ih =>
    cases as with
    | nil => simp
    | cons a as =>
      have hshorter : (as.filter fun b => !b == a).length < n := by
        rw [← hlength]
        exact Nat.lt_succ_of_le (List.length_filter_le _ as)
      have hrest := ih _ hshorter _ rfl
      rw [List.eraseDups_cons]
      by_cases ha : test a = true
      · rw [List.filter_cons_of_pos ha, List.filter_cons_of_pos ha, List.eraseDups_cons, ← hrest, List.filter_filter,
          List.filter_filter]
        simp only [Bool.and_comm]
      · rw [List.filter_cons_of_neg ha, List.filter_cons_of_neg ha, ← hrest, List.filter_filter]
        congr 1
        refine List.filter_congr fun b _ => ?_
        by_cases hb : b = a
        · simp [hb, ha]
        · simp [hb]

/-! ## Arguments as headings say -/

/-- The names of the parameters, in the order of the first headings about them. -/
def paramNames (docs : List ArgumentDoc) : List String :=
  ((docs.filter (!·.isOption)).map (·.arg.name)).eraseDups

/-- An argument that is as documented, but for what further headings and its place in a method give it. -/
structure Member.IsNew (documented arg : Member) : Prop where
  same : arg =
    { documented with
      type := arg.type
      langs := { documented.langs with overrides := arg.langs.overrides }
      className := arg.className
      enclosingMethod := arg.enclosingMethod }
  type : documented.name ≠ "options" → arg.type = documented.type
  options : documented.name = "options" →
    ∀ option ∈ documented.options, option.belongingTo arg.className arg.enclosingMethod ∈ arg.options

/-- What a heading gives to a member, between the headings before and after it about arguments of this member. -/
inductive ContributesTo (member : Member) (before : List ArgumentDoc) (doc : ArgumentDoc) (after : List ArgumentDoc) :
    Prop
  /-- The first heading about a parameter: a new argument. -/
  | argument {arg : Member} (isParam : doc.isOption = false)
      (first : ∀ other ∈ before, other.about ≠ doc.arg.name) (mem : arg ∈ member.args)
      (isNew : doc.arg.IsNew arg)
  /-- A further heading about it: its form in languages, up to the next heading that gives the form in one. -/
  | form {arg : Member} {langs : List Lang} (isParam : doc.isOption = false)
      (further : ∃ other ∈ before, other.about = doc.arg.name) (mem : arg ∈ member.args)
      (name : arg.name = doc.arg.name) (only : doc.arg.langs.only = some langs) (some_lang : langs ≠ [])
      (forms : ∀ lang ∈ langs, (∀ other ∈ after, other.about = doc.arg.name → other.names lang = false) →
        arg.langs.overrides.get? lang = some doc.arg)
  /-- A heading about an option: a property of the argument for options. -/
  | option {arg : Member} (isOption : doc.isOption = true) (mem : arg ∈ member.args) (name : arg.name = "options")
      (property : { doc.arg with required := false }.belongingTo arg.className arg.enclosingMethod ∈ arg.options)

/-- The arguments of a member are arranged, and they are what the headings about them say. -/
structure ArgsArranged (className : String) (docs : List ArgumentDoc) (member : Member) : Prop where
  /-- The arguments depend on these headings only. -/
  args : member.args =
    (optionsLast (ArgumentDoc.arguments docs)).map (Member.linkArg className (member.methodIn className))
  distinct : (member.args.map (·.name)).Nodup
  last : ∀ arg ∈ member.args, arg.name = "options" → member.args.getLast? = some arg
  sorted : ∀ arg ∈ member.args, arg.name = "options" →
    arg.options.Pairwise fun first second => (Name.compareText first.name second.name).isLE = true
  order : (member.args.map (·.name)).filter (· ≠ "options") = (paramNames docs).filter (· ≠ "options")
  contributes : ∀ before doc after, docs = before ++ doc :: after → ContributesTo member before doc after

namespace ArgumentDoc

variable {docs : List ArgumentDoc}

/-- The names of the arguments that are not for options. -/
theorem filter_names_arguments (docs : List ArgumentDoc) :
    ((arguments docs).map (·.name)).filter (· ≠ "options") = (paramNames docs).filter (· ≠ "options") := by
  rw [names_arguments, paramNames, ← eraseDups_filter, ← eraseDups_filter]
  congr 1
  induction docs with
  | nil => rfl
  | cons doc docs ih =>
    by_cases hoption : doc.isOption = true
    · have habout : doc.about = "options" := if_pos hoption
      simpa [habout, hoption] using ih
    · have habout : doc.about = doc.arg.name := if_neg hoption
      by_cases hname : doc.arg.name = "options"
      · simpa [habout, hoption, hname] using ih
      · simpa [habout, hoption, hname] using ih

/-- An argument for no options has the type that the first heading about it gives. -/
theorem withOptions_of_param (h : ∀ doc ∈ docs, doc.isOption = false) : withOptions docs = id := by
  have hnone : docs.filterMap option? = [] := List.filterMap_eq_nil_iff.2 fun doc hdoc => by
    rw [option?, h doc hdoc, if_neg Bool.false_ne_true]
  funext type
  rw [withOptions, hnone]
  rfl

theorem isNew_linkArg {doc : ArgumentDoc} (hformed : doc.Formed) (hparam : doc.isOption = false)
    {later : List ArgumentDoc} (hlater : ∀ other ∈ later, other.about = doc.arg.name) (className : String)
    (method : Option String) : doc.arg.IsNew (Member.linkArg className method (doc.argument later)) := by
  have hstart : doc.start = doc.arg := if_neg (by rw [hparam]; exact Bool.false_ne_true)
  have hname : (doc.argument later).name = doc.arg.name := by rw [argument, hstart]
  refine ⟨?_, fun hne => ?_, fun hoptions option hoption => ?_⟩
  · unfold Member.linkArg
    dsimp only
    rw [argument, hstart]
    split <;> rfl
  · have hparams : ∀ other ∈ doc :: later, other.isOption = false := by
      refine List.forall_mem_cons.2 ⟨hparam, fun other hother => ?_⟩
      by_contra hoption
      exact hne ((hlater other hother).symm.trans (if_pos (Bool.eq_true_of_not_eq_false hoption)))
    have htype : (doc.argument later).type = doc.arg.type := by
      rw [argument, hstart, withOptions_of_param hparams, Option.map_id]
      rfl
    unfold Member.linkArg
    dsimp only
    rw [if_neg (by rw [Member.belongingTo, hname]; exact hne)]
    exact htype
  · rw [Member.options_linkArg (hname.trans hoptions), Member.linkArg_className, Member.linkArg_enclosingMethod]
    refine List.mem_map_of_mem (List.mem_mergeSort.2 ?_)
    rw [options_argument hformed, hstart]
    exact List.mem_append_left _ hoption

/-- Every heading contributes to the arguments that all headings of a member make. -/
theorem contributesTo {member : Member} {className : String} {method : Option String}
    (hargs : member.args = (optionsLast (arguments docs)).map (Member.linkArg className method))
    (hformed : ∀ doc ∈ docs, doc.Formed) (hfollows : docs.Pairwise fun earlier doc => doc.MayFollow earlier)
    {before after : List ArgumentDoc} {doc : ArgumentDoc} (hdocs : docs = before ++ doc :: after) :
    ContributesTo member before doc after := by
  have hdoc : doc ∈ docs := hdocs ▸ List.mem_append_right _ List.mem_cons_self
  obtain ⟨first, later, hfilter, harg⟩ := exists_argument hdoc
  have hmem : Member.linkArg className method (first.argument later) ∈ member.args := by
    rw [hargs]
    exact List.mem_map_of_mem ((optionsLast_perm _).mem_iff.2 harg)
  have hfirst := List.mem_filter.1 (hfilter ▸ List.mem_cons_self : first ∈ docs.filter (·.about = doc.about))
  have hname : (first.argument later).name = doc.about := by rw [name_argument, of_decide_eq_true hfirst.2]
  by_cases hoption : doc.isOption = true
  · have habout : doc.about = "options" := if_pos hoption
    refine .option hoption hmem (by rw [Member.linkArg_name, hname, habout]) ?_
    rw [Member.options_linkArg (hname.trans habout), Member.linkArg_className, Member.linkArg_enclosingMethod]
    refine List.mem_map_of_mem (List.mem_mergeSort.2 ?_)
    rw [options_argument (hformed first hfirst.1)]
    have hown : doc ∈ first :: later := hfilter ▸ List.mem_filter.2 ⟨hdoc, decide_eq_true rfl⟩
    exact List.mem_append_right _ (List.mem_filterMap.2 ⟨doc, hown, if_pos hoption⟩)
  · have hparam : doc.isOption = false := Bool.eq_false_of_not_eq_true hoption
    have habout : doc.about = doc.arg.name := if_neg hoption
    rw [habout] at hname hfilter
    rw [hdocs, List.filter_append, List.filter_cons_of_pos (by simpa using habout)] at hfilter
    -- the heading is the first about its argument when none of those before it is
    cases hbefore : before.filter (·.about = doc.arg.name) with
    | nil =>
      rw [hbefore] at hfilter
      cases hfilter
      refine .argument hparam (fun other hother => ?_) hmem (isNew_linkArg (hformed doc hdoc) hparam ?_ _ _)
      · simpa using List.filter_eq_nil_iff.1 hbefore other hother
      · exact fun other hother => of_decide_eq_true (List.mem_filter.1 hother).2
    | cons head rest =>
      rw [hbefore] at hfilter
      cases hfilter
      have hmemBefore : first ∈ before.filter (·.about = doc.arg.name) := hbefore ▸ List.mem_cons_self
      have hhead := List.mem_filter.1 hmemBefore
      have hsame : first.about = doc.arg.name := of_decide_eq_true hhead.2
      rw [hdocs] at hfollows
      have hfollow : doc.MayFollow first :=
        (List.pairwise_append.1 hfollows).2.2 first hhead.1 doc List.mem_cons_self
      have honly := hfollow (hsame.trans habout.symm) hparam
      obtain ⟨langs, hlangs⟩ := Option.ne_none_iff_exists'.1 honly
      refine .form hparam ⟨first, hhead.1, hsame⟩ hmem (by rw [Member.linkArg_name, hname]) hlangs ?_
        fun lang hlang hlast => ?_
      · rintro rfl
        exact (hformed doc hdoc).only hlangs
      · have hnames : doc.names lang = true := by
          simp [names, hlangs, hparam, hlang]
        rw [Member.linkArg_langs]
        refine (PerLang.get?_ofFn _ lang).trans (lastFor?_of_last hnames fun other hother => ?_)
        obtain ⟨hmem, hother⟩ := List.mem_filter.1 hother
        exact hlast other hmem (of_decide_eq_true hother)

end ArgumentDoc

/-- The arguments that headings make one after another are arranged. -/
theorem argsArranged_inClass {className : String} {part : MemberSection} {args : List Member}
    (hformed : ∀ doc ∈ part.docs, doc.Formed)
    (hargs : part.docs.foldlM (fun args doc => doc.addToArgs args) [] = .ok args) :
    ArgsArranged className part.docs (Member.inClass className { part.member with args := optionsLast args }) := by
  have hoverrides := fun doc hdoc => (hformed doc hdoc).overrides
  have hdistinct := (Documented.of_foldlM hoverrides hargs).distinct
  obtain ⟨rfl, hfollows⟩ := ArgumentDoc.eq_arguments_of_foldlM hoverrides hargs
  have hwhole := Member.inClass_args className
    { part.member with args := optionsLast (ArgumentDoc.arguments part.docs) }
  have hnames : ∀ (args : List Member) method,
      (args.map (Member.linkArg className method)).map (·.name) = args.map (·.name) := fun args method => by
    simp [Function.comp_def]
  refine ⟨hwhole, ?_, fun arg harg hname => ?_, fun arg harg hname => ?_, ?_, fun before doc after hdocs => ?_⟩
  · rw [hwhole, hnames]
    exact ((optionsLast_perm _).map _).nodup_iff.2 hdistinct
  · rw [hwhole] at harg ⊢
    obtain ⟨bare, hbare, rfl⟩ := List.mem_map.1 harg
    rw [Member.linkArg_name] at hname
    rw [List.getLast?_map, getLast?_optionsLast hdistinct ((optionsLast_perm _).mem_iff.1 hbare) hname]
    rfl
  · rw [hwhole] at harg
    obtain ⟨bare, -, rfl⟩ := List.mem_map.1 harg
    rw [Member.linkArg_name] at hname
    rw [Member.options_linkArg hname]
    exact List.pairwise_map.2 (ApiType.pairwise_sortByName _)
  · rw [hwhole, hnames, filter_names_optionsLast, ArgumentDoc.filter_names_arguments]
  · exact ArgumentDoc.contributesTo hwhole hformed hfollows hdocs

/-! ## Models -/

namespace Model

/-- What becomes of a heading about an argument, between the headings before and after it. It contributes to the
last member of its name that a heading before it declares, and all other members are as if it were not there. -/
inductive Heeds (model : Model) (before : List Declaration) (declaration : Declaration) (after : List Declaration) :
    Prop
  | intro {doc : ArgumentDoc} {cls : ApiClass} {earlier later : List Declaration} {own : Declaration} {member : Member}
      (read : ArgumentDoc.read declaration.text declaration.content = .ok doc)
      (cls_mem : cls ∈ model.classes) (cls_name : cls.name = doc.className)
      (split : before = earlier ++ own :: later) (declares : own.declares doc.className doc.method = true)
      (last : later.any (·.declares doc.className doc.method) = false)
      (getElem? : cls.members[(sectionsIn doc.className earlier).length]? = some member)
      (name : member.name = doc.method)
      (contributes :
        ContributesTo member (docsOf doc.className doc.method later) doc (docsOf doc.className doc.method after))
      (apart : ∀ className n, className ≠ doc.className ∨ n ≠ (sectionsIn doc.className earlier).length →
        (sectionsIn className (before ++ declaration :: after))[n]? = (sectionsIn className (before ++ after))[n]?)

variable {documents : List (List Markup.Node)} {model : Model}

/-- The members of a class are those that headings declare, with the arguments that the headings of each make. -/
theorem argsArranged_ofDocuments (h : Model.ofDocuments documents = .ok model) {cls : ApiClass}
    (hcls : cls ∈ model.classes) :
    List.Forall₂ (fun part member => member.name = part.member.name ∧ ArgsArranged cls.name part.docs member)
      (sectionsIn cls.name (documents.flatMap declarations)) cls.members := by
  rw [← MemberSection.ofClass_eq]
  obtain ⟨hlength, hgiven⟩ := List.forall₂_iff_zip.1 (Model.given_ofDocuments h hcls)
  refine List.forall₂_iff_zip.2 ⟨hlength, fun {part member} hmem => ?_⟩
  obtain ⟨args, hargs, rfl⟩ := hgiven hmem
  refine ⟨rfl, argsArranged_inClass (fun doc hdoc => ?_) hargs⟩
  obtain ⟨declaration, -, hread⟩ := MemberSection.read_of_mem_docs (List.of_mem_zip hmem).1 hdoc
  exact ArgumentDoc.formed_of_read hread

/-- Every heading of the third level is heeded. -/
theorem heeds_ofDocuments (h : Model.ofDocuments documents = .ok model) {before after : List Declaration}
    {declaration : Declaration} (hdeclarations : documents.flatMap declarations = before ++ declaration :: after)
    (hlevel : declaration.level = 3) : model.Heeds before declaration after := by
  obtain ⟨doc, hread, hbefore⟩ := declares_ofDocuments h hdeclarations hlevel
  obtain ⟨earlier, own, later, rfl, hown, hlater⟩ := exists_last_of_any hbefore
  obtain ⟨bare, hbare, hname⟩ := Declaration.exists_member?_of_declares hown
  have hmember : ∀ className, declaration.member? className = none := fun _ => Declaration.member?_of_argument hlevel
  -- the heading is about one name of one class only
  have hargument : ∀ className name, declaration.argument? className name =
      if doc.className = className ∧ doc.method = name then some doc else none := fun _ _ =>
    Declaration.argument?_of_read hlevel hread
  rw [← hname] at hlater
  have hsection := getElem?_sectionsIn_owner hbare hlater ((hargument _ _).trans (if_pos ⟨rfl, hname.symm⟩))
    earlier after
  have hwhole : documents.flatMap declarations = earlier ++ own :: (later ++ declaration :: after) := by
    rw [hdeclarations, List.append_assoc, List.cons_append]
  obtain ⟨cls, hcls, hclass⟩ := exists_class_ofDocuments h doc.className fun hnone => by
    rw [← hwhole, hnone] at hsection
    cases hsection
  have hsections := argsArranged_ofDocuments h hcls
  rw [hclass, hwhole] at hsections
  obtain ⟨member, hget, hsame, harranged⟩ := related_of_getElem? hsections.flip hsection
  rw [hname] at hlater
  refine .intro hread hcls hclass rfl hown hlater hget (hsame.trans hname) ?_ fun className n hother => ?_
  · exact hname ▸ harranged.contributes _ _ _ rfl
  · simp only [List.append_assoc, List.cons_append]
    by_cases hclassName : className = doc.className
    · subst hclassName
      refine getElem?_sectionsIn_without (hmember _) hbare (hname ▸ hlater) (fun name hne => ?_) after
        (hother.resolve_left fun hne => hne rfl)
      rw [hargument, if_neg fun hboth => hne (hboth.2.symm.trans hname.symm)]
    · have hsame := sectionsIn_without (earlier ++ own :: later) (hmember className)
        (fun name _ => (hargument _ _).trans (if_neg fun hboth => hclassName hboth.1.symm)) after
      simp only [List.append_assoc, List.cons_append] at hsame
      rw [hsame]

/-- The arguments of every member that a text declares are arranged, and each heading about an argument contributes
to the last member of its name before it and to no other. -/
theorem arguments_of_parse {text : String} {model : Model} (h : Model.parse text = .ok model) :
    ∃ nodes, Markup.parse text = .ok nodes ∧
      (∀ cls ∈ model.classes,
        List.Forall₂ (fun part member => member.name = part.member.name ∧ ArgsArranged cls.name part.docs member)
          (sectionsIn cls.name (declarations nodes)) cls.members) ∧
      ∀ before declaration after, declarations nodes = before ++ declaration :: after → declaration.level = 3 →
        model.Heeds before declaration after := by
  obtain ⟨nodes, hnodes, hmodel⟩ := bind_eq_ok.1 h
  have hone : [nodes].flatMap declarations = declarations nodes := List.flatMap_singleton declarations nodes
  refine ⟨nodes, hnodes, fun cls hcls => ?_, fun before declaration after hdeclarations hlevel => ?_⟩
  · rw [← hone]
    exact argsArranged_ofDocuments hmodel hcls
  · exact heeds_ofDocuments hmodel (hone.trans hdeclarations) hlevel

end Model

/-- A parameter as a type line documents it. -/
def plainParam (name type : String) : Member :=
  Member.property name { ApiType.plain type with expression := some ("[" ++ type ++ "]") } true

/-- A parameter with a form of its own for one language, and an option documented before it. -/
def doubledArgs : List Member :=
  let form := { plainParam "x" "any" with langs := { LangRules.everywhere with only := some [.js] } }
  [{ plainParam "x" "int" with
      langs := { LangRules.everywhere with overrides := PerLang.empty.insert .js form } },
    Member.property "options" (.object [{ plainParam "t" "int" with required := false }]) false]

/-- A class with a method that has these arguments. -/
def doubledClass : ApiClass :=
  ApiClass.ofMembers "A" none
    [{ Member.ofName .method "a" (some (ApiType.plain "void")) with args := doubledArgs }]

/-- A text that documents the option before the parameter, and the parameter twice. -/
def doubledText : String :=
  "# class: A\n## method: A.a\n### option: A.a.t\n- `t` <[int]>\n### param: A.a.x\n- `x` <[int]>\n" ++
    "### param: A.a.x\n* langs: js\n- `x` <[any]>\n"

theorem Model.parse_doubledText : Model.parse doubledText = .ok ⟨[doubledClass]⟩ := by
  refine bind_eq_ok.2 ⟨[.heading 1 "class: A" [.heading 2 "method: A.a"
    [.heading 3 "option: A.a.t" [.item .dash "`t` <[int]>" []],
      .heading 3 "param: A.a.x" [.item .dash "`x` <[int]>" []],
      .heading 3 "param: A.a.x" [.item .star "langs: js" [], .item .dash "`x` <[any]>" []]]]], ?_, by decide +kernel⟩
  exact (Markup.parse_of_toList (Text.toList_append_ofList String.toList_ofList _)).trans rfl

/-- The option goes behind the parameter, and the second heading about the parameter gives its form. -/
theorem Model.arguments_of_parse_doubledText :
    Model.parse doubledText = .ok ⟨[doubledClass]⟩ ∧ ∃ nodes, Markup.parse doubledText = .ok nodes ∧
      List.Forall₂ (fun part member => member.name = part.member.name ∧ ArgsArranged "A" part.docs member)
        (sectionsIn "A" (declarations nodes)) doubledClass.members ∧
      ∀ before declaration after, declarations nodes = before ++ declaration :: after → declaration.level = 3 →
        Model.Heeds ⟨[doubledClass]⟩ before declaration after := by
  obtain ⟨nodes, hnodes, harranged, hheeds⟩ := Model.arguments_of_parse Model.parse_doubledText
  exact ⟨Model.parse_doubledText, nodes, hnodes, harranged _ List.mem_cons_self, hheeds⟩

end RefPages
