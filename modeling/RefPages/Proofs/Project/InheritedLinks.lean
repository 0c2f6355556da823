/-
Where the entries for inherited members lead. Members are handed down before a language leaves out
classes and members, and what it does to a copy it does to the original as well. So an entry leads
to a section on the page of the class that documents the member, exactly when the language has this
class at all.
-/
import RefPages.Proofs.Api.Outline
import RefPages.Proofs.Page.Comments
import RefPages.Proofs.Page.Listed
import RefPages.Proofs.Project.Files
import RefPages.Proofs.Project.Gated

namespace RefPages

open Markup

/-! ## Copies and originals in a language -/

namespace Model

/-- What is inherited from a class of the model is in outline what this class has of its own. -/
structure Mirrored (model : Model) : Prop where
  distinct : (model.classes.map (·.name)).Nodup
  mirrors : ∀ cls ∈ model.classes, ∀ member ∈ cls.members, ∀ owner ∈ model.classes,
    member.inheritedFrom = some owner.name →
      ∃ own ∈ owner.members, own.inheritedFrom = none ∧ own.outline = member.outline

theorem eq_of_name_eq {model : Model} (hdistinct : (model.classes.map (·.name)).Nodup) {cls cls' : ApiClass}
    (hcls : cls ∈ model.classes) (hcls' : cls' ∈ model.classes) (hname : cls.name = cls'.name) : cls = cls' :=
  List.inj_on_of_nodup_map hdistinct hcls hcls' hname

theorem Traceable.mirrored_inLang {model filtered : Model} (h : model.Traceable)
    (hargs : model.Everywhere fun member => ArgsDistinct member.args) {lang : Lang} {style : OverloadStyle}
    (hfiltered : model.inLang lang style = .ok filtered) : filtered.Mirrored := by
  have hclasses := inLang_eq_ok hfiltered
  have hname : ∀ cls kept, ApiClass.inLang lang style cls = .ok kept → kept.name = cls.name := by
    intro cls kept hkept
    obtain ⟨-, -, hname, -⟩ := ApiClass.inLang_eq_ok hkept
    exact hname
  have hnames : filtered.classes.map (·.name) = (model.classes.filter (·.langs.includes lang)).map (·.name) :=
    map_eq_of_mapM hname (mapM_eq_ok.2 hclasses)
  refine ⟨hnames ▸ (List.filter_sublist.map _).nodup h.distinct, fun kept hkept shown hshown owner' howner' hbase => ?_⟩
  obtain ⟨cls, hcls, hclsKept⟩ := related_of_mem_right hclasses hkept
  obtain ⟨owner, howner, hownerKept⟩ := related_of_mem_right hclasses howner'
  obtain ⟨members, hmembers, -, -, heq⟩ := ApiClass.inLang_eq_ok hclsKept
  obtain ⟨owned, howned, hownerName, -, heqOwned⟩ := ApiClass.inLang_eq_ok hownerKept
  obtain ⟨hcls, -⟩ := List.mem_filter.1 hcls
  obtain ⟨howner, -⟩ := List.mem_filter.1 howner
  rw [heq] at hshown
  obtain ⟨seen, hseen, rfl⟩ := List.mem_map.1 hshown
  obtain ⟨member, hmember, hmemberSeen⟩ := related_of_mem_right hmembers hseen
  obtain ⟨hmember, hincludes⟩ := List.mem_filter.1 hmember
  obtain ⟨houtline, horigin⟩ := Member.outline_inLang (hargs cls hcls member hmember) hmemberSeen
  rw [Member.inClass_inheritedFrom, horigin] at hbase
  obtain ⟨source, hsource, hsourceName, own, hown, hnone, rfl⟩ := h.origin cls hcls member hmember _ hbase
  obtain rfl := eq_of_name_eq h.distinct hsource howner (hsourceName.trans hownerName)
  -- the original has the languages of the copy
  obtain ⟨ownSeen, hownSeen, hownInLang⟩ := related_of_mem_left howned (List.mem_filter.2 ⟨hown, hincludes⟩)
  obtain ⟨houtlineOwn, horiginOwn⟩ := Member.outline_inLang (hargs source hsource own hown) hownInLang
  refine ⟨ownSeen.inClass source.name, heqOwned ▸ List.mem_map_of_mem hownSeen, ?_, ?_⟩
  · rw [Member.inClass_inheritedFrom, horiginOwn, hnone]
  · rw [Member.outline_inClass, Member.outline_inClass, houtline, houtlineOwn, Member.shapesForLang_copyFrom]
    rfl

theorem Mirrored.stable {model : Model} (h : model.Mirrored) : model.stable.Mirrored := by
  have hnames : model.stable.classes.map (·.name) = (model.classes.filter (!·.experimental)).map (·.name) := by
    simp [Model.stable, relink, ApiClass.updateMembers, ApiClass.relink, Function.comp_def]
  refine ⟨hnames ▸ (List.filter_sublist.map _).nodup h.distinct, fun kept hkept shown hshown owner' howner' hbase => ?_⟩
  obtain ⟨cls, hcls, -, rfl⟩ := mem_stable.1 hkept
  obtain ⟨owner, howner, -, rfl⟩ := mem_stable.1 howner'
  obtain ⟨member, hmember, hstable, rfl⟩ := mem_members_stable.1 hshown
  have horigin : member.inheritedFrom = some owner.name := by
    rw [Member.inClass_inheritedFrom] at hbase
    cases member
    exact hbase
  obtain ⟨own, hown, hnone, houtline⟩ := h.mirrors cls hcls member hmember owner howner horigin
  have hexperimental : own.experimental = false := (congrArg Member.Outline.experimental houtline).trans hstable
  refine ⟨own.stable.inClass owner.name, mem_members_stable.2 ⟨own, hown, hexperimental, rfl⟩, ?_, ?_⟩
  · rw [Member.inClass_inheritedFrom, ← hnone]
    cases own
    rfl
  · rw [Member.outline_inClass, Member.outline_inClass, Member.outline_stable, Member.outline_stable, houtline]

theorem Mirrored.resolveLinks {model resolved : Model} (h : model.Mirrored) {render : LinkRenderer}
    (hresolved : model.resolveLinks render = .ok resolved) : resolved.Mirrored := by
  obtain ⟨classes, hclasses, hresolved⟩ := bind_eq_ok.1 hresolved
  cases hresolved
  have hclasses := mapM_eq_ok.1 hclasses
  have hclass : ∀ {cls kept : ApiClass}, ApiClass.resolveLinks render (.ofModel render model) cls = .ok kept →
      ∃ members, List.Forall₂ (fun member seen => Member.resolveLinks render (.ofModel render model) member = .ok seen)
        cls.members members ∧ kept.name = cls.name ∧ kept.members = members.map (Member.inClass cls.name) := by
    intro cls kept hkept
    obtain ⟨docs, -, hkept⟩ := bind_eq_ok.1 hkept
    obtain ⟨members, hmembers, hkept⟩ := bind_eq_ok.1 hkept
    cases hkept
    exact ⟨members, mapM_eq_ok.1 hmembers, rfl, rfl⟩
  have hnames : classes.map (·.name) = model.classes.map (·.name) :=
    map_eq_of_mapM (fun _ _ hkept => (hclass hkept).choose_spec.2.1) (mapM_eq_ok.2 hclasses)
  refine ⟨hnames ▸ h.distinct, fun kept hkept shown hshown owner' howner' hbase => ?_⟩
  obtain ⟨cls, hcls, hclsKept⟩ := related_of_mem_right hclasses hkept
  obtain ⟨owner, howner, hownerKept⟩ := related_of_mem_right hclasses howner'
  obtain ⟨members, hmembers, -, heq⟩ := hclass hclsKept
  obtain ⟨owned, howned, hownerName, heqOwned⟩ := hclass hownerKept
  rw [heq] at hshown
  obtain ⟨seen, hseen, rfl⟩ := List.mem_map.1 hshown
  obtain ⟨member, hmember, hmemberSeen⟩ := related_of_mem_right hmembers hseen
  obtain ⟨houtline, horigin⟩ := Member.outline_resolveLinks hmemberSeen
  rw [Member.inClass_inheritedFrom, horigin, hownerName] at hbase
  obtain ⟨own, hown, hnone, hsame⟩ := h.mirrors cls hcls member hmember owner howner hbase
  obtain ⟨ownSeen, hownSeen, hownResolved⟩ := related_of_mem_left howned hown
  obtain ⟨houtlineOwn, horiginOwn⟩ := Member.outline_resolveLinks hownResolved
  refine ⟨ownSeen.inClass owner.name, heqOwned ▸ List.mem_map_of_mem hownSeen, ?_, ?_⟩
  · rw [Member.inClass_inheritedFrom, horiginOwn, hnone]
  · rw [Member.outline_inClass, Member.outline_inClass, houtline, houtlineOwn, hsame]

end Model

/-! ## Models of projects -/

theorem mapError_eq_ok {α ε ε' : Type} {x : Except ε α} {f : ε → ε'} {a : α} :
    x.mapError f = .ok a ↔ x = .ok a := by
  cases x with
  | error fault => exact ⟨nofun, nofun⟩
  | ok value => exact ⟨fun h => by cases h; rfl, fun h => by cases h; rfl⟩

namespace Disk

theorem exists_documents {disk : Disk} {paths : List Path} {start drafts : Drafts}
    (h : paths.foldlM disk.feedFile start = .ok drafts) :
    ∃ documents : List (List Node), documents.foldlM Drafts.feed start = .ok drafts := by
  induction paths generalizing start with
  | nil => exact ⟨[], h⟩
  | cons path paths ih =>
    rw [List.foldlM_cons] at h
    obtain ⟨next, hnext, h⟩ := bind_eq_ok.1 h
    obtain ⟨text, -, hnext⟩ := bind_eq_ok.1 hnext
    obtain ⟨nodes, -, hnext⟩ := bind_eq_ok.1 (mapError_eq_ok.1 hnext)
    obtain ⟨documents, hdocuments⟩ := ih h
    exact ⟨nodes :: documents, by rw [List.foldlM_cons, hnext]; exact hdocuments⟩

/-- The model of a project is read from documents and merged. -/
theorem produced_apiModel {disk : Disk} {folders : List Path} {model : Model} (h : disk.apiModel folders = .ok model) :
    model.Produced := by
  have hempty : Model.ofDocuments [] = .ok Model.empty := rfl
  refine foldlM_preserves (fun merged folder merged' hmerged hstep => ?_) (Model.Produced.ofDocuments hempty) h
  obtain ⟨ofFolder, hofFolder, hstep⟩ := bind_eq_ok.1 hstep
  cases hstep
  obtain ⟨drafts, hdrafts, hofFolder⟩ := bind_eq_ok.1 hofFolder
  cases hofFolder
  obtain ⟨documents, hdocuments⟩ := exists_documents hdrafts
  exact hmerged.merge (.ofDocuments (bind_eq_ok.2 ⟨drafts, hdocuments, rfl⟩))

end Disk

theorem Model.Produced.assembled {model : Model} (h : model.Produced) : model.Assembled := by
  induction h with
  | ofDocuments h => exact .ofDocuments h
  | merge _ _ hfirst hsecond => exact hfirst.merge hsecond

/-! ## Entries for inherited members -/

namespace Edition

variable (edition : Edition)

/-- The signatures and the anchors of the entries for what a class has inherited from another one. -/
def inheritedEntries (cls : ApiClass) (base : String) : List (String × String) :=
  (cls.members.filter (·.inheritedFrom = some base)).flatMap (edition.formHeadings base)

variable {edition}

theorem formAnchor_congr (className : String) {member member' : Member} (h : member.outline = member'.outline)
    (index : Nat) : formAnchor className member index = formAnchor className member' index := by
  have hname : member.name = member'.name := congrArg Member.Outline.name h
  have hkind : member.kind = member'.kind := congrArg Member.Outline.kind h
  unfold formAnchor Page.anchor Member.isEvent
  rw [hname, hkind]

theorem mem_children_preorder {node child : Node} (h : child ∈ node.children) : child ∈ node.preorder := by
  cases node with
  | heading level text children => exact List.mem_cons_of_mem _ (mem_preorderAll h (self_mem_preorder child))
  | item marker text children => exact List.mem_cons_of_mem _ (mem_preorderAll h (self_mem_preorder child))
  | code | note | properties | paragraph => cases h

/-- The page of a class has a heading for each form of each member of its own. -/
theorem exists_heading {cls : ApiClass} {page : List Node} (h : edition.classPage cls = .ok page)
    {heading : String × String} (hheading : heading ∈ edition.memberHeadings cls) :
    ∃ node ∈ Node.preorderAll page, node.headingLine? = some (headingOf heading) := by
  obtain ⟨front, sections, rfl, hlines⟩ := headingLines_classPage h
  have hmem : some (headingOf heading) ∈ (sections.flatMap Node.children).map Node.headingLine? := by
    rw [hlines]
    exact List.mem_map_of_mem hheading
  obtain ⟨node, hnode, hline⟩ := List.mem_map.1 hmem
  obtain ⟨parent, hparent, hchild⟩ := List.mem_flatMap.1 hnode
  exact ⟨node, mem_preorderAll (List.mem_append_right _ hparent) (mem_children_preorder hchild), hline⟩

/-- What is inherited from a class has sections on the page of this class. -/
theorem exists_memberHeading {cls owner : ApiClass} (hmirrored : edition.model.Mirrored)
    (hcls : cls ∈ edition.model.classes) (howner : owner ∈ edition.model.classes) {entry : String × String}
    (hentry : entry ∈ edition.inheritedEntries cls owner.name) :
    ∃ signature, (signature, entry.2) ∈ edition.memberHeadings owner := by
  obtain ⟨member, hmember, hentry⟩ := List.mem_flatMap.1 hentry
  obtain ⟨hmember, hbase⟩ := List.mem_filter.1 hmember
  obtain ⟨own, hown, hnone, houtline⟩ :=
    hmirrored.mirrors cls hcls member hmember owner howner (of_decide_eq_true hbase)
  obtain ⟨index, hindex, rfl⟩ := List.mem_mapIdx.1 hentry
  have hlt : index < (edition.dialect.forms own).length := by
    rwa [edition.dialect.length_forms_congr houtline]
  have hsectioned : own ∈ sectioned owner :=
    (sectioned_perm owner).mem_iff.2 (List.mem_filter.2 ⟨hown, by rw [hnone]; rfl⟩)
  refine ⟨(edition.dialect.forms own)[index].signature,
    List.mem_flatMap.2 ⟨own, hsectioned, List.mem_mapIdx.2 ⟨index, hlt, ?_⟩⟩⟩
  rw [formAnchor_congr owner.name houtline]

end Edition

/-! ## Files -/

namespace Project

variable {project : Project}

/-- Among some files there is the page of a class, at the place that links to its page name, with a section
under an anchor. -/
def HasSection (project : Project) (edition : Edition) (files : List PageFile) (className anchor : String) : Prop :=
  ∃ owner ∈ edition.model.classes, owner.name = className ∧
    ∃ page, edition.classPage owner = .ok page ∧
      (∃ signature, ∃ node ∈ Node.preorderAll page,
        node.headingLine? = some (Edition.headingOf (signature, anchor))) ∧
      ∃ file ∈ files, file.lang = edition.dialect.lang ∧
        file.path = (project.config.outputRoot project.root edition.dialect.lang).join
          (project.fileName (Edition.stemOf edition.model className)) ∧
        ∃ definitions, file.text = Page.text project.config.maxColumns definitions page

theorem mirrored_edition {disk : Disk} {model : Model} {findings : List Diagnostic}
    (hlint : project.lint disk = .ok (model, findings)) {lang : Lang} {edition : Edition}
    (hedition : project.edition lang model = .ok edition) : edition.model.Mirrored := by
  obtain ⟨declared, hdeclared, hlint⟩ := bind_eq_ok.1 hlint
  have hproduced := Disk.produced_apiModel hdeclared
  have hmodel : model = declared.inherit.1 := (congrArg Prod.fst (Except.ok.inj hlint)).symm
  have htraceable : model.Traceable := hmodel ▸ hproduced.fresh.traceable.inherit
  have hargs : model.Everywhere fun member => ArgsDistinct member.args :=
    hmodel ▸ hproduced.assembled.inherit.argsDistinct
  obtain ⟨kept, hkept, hedition⟩ := bind_eq_ok.1 hedition
  obtain ⟨filtered, hfiltered, hkept⟩ := bind_eq_ok.1 hkept
  have hmirrored := htraceable.mirrored_inLang hargs hfiltered
  have hkeptMirrored : kept.Mirrored := by
    cases hkept
    split
    · exact hmirrored
    · exact hmirrored.stable
  obtain ⟨resolved, hresolved, hedition⟩ := bind_eq_ok.1 hedition
  cases hedition
  exact hkeptMirrored.resolveLinks hresolved

/-- There is a file with the page of every class. -/
theorem exists_file {disk : Disk} {edition : Edition} {guides : List Guide} {files : List PageFile}
    (h : project.editionFiles disk edition guides = .ok files) {cls : ApiClass} (hcls : cls ∈ edition.model.classes) :
    ∃ page, edition.classPage cls = .ok page ∧ ∃ file ∈ files, file.lang = edition.dialect.lang ∧
      file.path = (project.config.outputRoot project.root edition.dialect.lang).join
        (project.fileName (Edition.stemOf edition.model cls.name)) ∧
      ∃ definitions, file.text = Page.text project.config.maxColumns definitions page := by
  obtain ⟨definitions, -, h⟩ := bind_eq_ok.1 h
  obtain ⟨classFiles, hclassFiles, h⟩ := bind_eq_ok.1 h
  obtain ⟨guideFiles, -, h⟩ := bind_eq_ok.1 h
  cases h
  obtain ⟨file, hfile, hmade⟩ := related_of_mem_left (mapM_eq_ok.1 hclassFiles) (List.mem_mergeSort.2 hcls)
  obtain ⟨page, hpage, hmade⟩ := bind_eq_ok.1 hmade
  obtain rfl := Except.ok.inj hmade
  exact ⟨page, hpage, _, List.mem_append_left _ hfile, pageFile_lang .., pageFile_path .., definitions,
    pageFile_text ..⟩

/-- The entries for what a class has inherited from another one are links to the page of this other class.
Each of them leads to a section there, among the files of the same language, exactly when the language has
this class. -/
theorem inherited_links_iff {disk : Disk} {langs : List Lang} {files : List PageFile} {findings : List Diagnostic}
    (hgenerate : project.generate disk langs = .ok (files, findings)) {lang : Lang}
    (hlang : lang ∈ if langs.isEmpty then project.config.languages else langs) :
    ∃ model edition, project.lint disk = .ok (model, findings) ∧ project.edition lang model = .ok edition ∧
      ∀ cls ∈ edition.model.classes, ∀ base ∈ Edition.basesOf cls,
        (edition.inheritedSection cls base).children.Perm ((edition.inheritedEntries cls base).map
          (Edition.entryOn (Edition.pageLink (Edition.stemOf edition.model base) project.config.extension))) ∧
        ∀ entry ∈ edition.inheritedEntries cls base,
          (project.HasSection edition files base entry.2 ↔ (edition.model.class? base).isSome) := by
  obtain ⟨⟨model, found⟩, hlint, h⟩ := bind_eq_ok.1 hgenerate
  obtain ⟨guides, -, h⟩ := bind_eq_ok.1 h
  obtain ⟨perLang, hperLang, h⟩ := bind_eq_ok.1 h
  cases h
  obtain ⟨ofLang, hofLang, hfiles⟩ := related_of_mem_left (mapM_eq_ok.1 hperLang) hlang
  rw [languageFiles_eq] at hfiles
  obtain ⟨edition, hedition, hfiles⟩ := bind_eq_ok.1 hfiles
  have hmirrored := mirrored_edition hlint hedition
  have hextension : edition.extension = project.config.extension := by
    obtain ⟨kept, -, hedition⟩ := bind_eq_ok.1 hedition
    obtain ⟨resolved, -, hedition⟩ := bind_eq_ok.1 hedition
    cases hedition
    rfl
  refine ⟨model, edition, hlint, hedition, fun cls hcls base hbase => ⟨?_, fun entry hentry => ⟨?_, fun hsome => ?_⟩⟩⟩
  · rw [← hextension]
    exact edition.toc_perm _ base _
  · rintro ⟨owner, howner, rfl, -⟩
    rw [Model.class?_of_mem hmirrored.distinct howner]
    rfl
  · obtain ⟨owner, hfound⟩ := Option.isSome_iff_exists.1 hsome
    obtain ⟨howner, rfl⟩ := Model.class?_eq_some hfound
    obtain ⟨page, hpage, file, hfile, hplace⟩ := exists_file hfiles howner
    obtain ⟨signature, hheading⟩ := Edition.exists_memberHeading hmirrored hcls howner hentry
    exact ⟨owner, howner, rfl, page, hpage, ⟨signature, Edition.exists_heading hpage hheading⟩, file,
      List.mem_flatten.2 ⟨ofLang, hofLang, hfile⟩, hplace⟩

/-! ## A class for one language, and a class that extends it -/

/-- A disk with a document that declares a class for JavaScript and a class that extends it. -/
def extendingDisk : Disk where
  entries :=
    [(["docs".toList], .folder), (["docs".toList, "src".toList], .folder),
      (["docs".toList, "src".toList, "api".toList], .folder),
      (["docs".toList, "src".toList, "api".toList, "a.md".toList],
        .file (.text "# class: A\n* langs: js\n## method: A.a\n# class: B\n* extends: [A]\n## method: B.b\n"))]
  here := []

/-- A method that returns nothing, inherited or not. -/
def voidMethod (name : String) (origin : Option String) : Member :=
  { Member.ofName .method name (some (ApiType.plain "void")) with inheritedFrom := origin }

/-- The class for JavaScript. -/
def jsClass : ApiClass :=
  { ApiClass.ofMembers "A" none [voidMethod "a" none] with langs := { LangRules.everywhere with only := some [.js] } }

/-- The class that extends it, with what it inherits. -/
def extendingClass : ApiClass := ApiClass.ofMembers "B" (some "A") [voidMethod "b" none, voidMethod "a" (some "A")]

/-- The edition of some of the classes. -/
def extendingEdition (lang : Lang) (classes : List ApiClass) : Edition where
  dialect := ⟨lang, classes.map (·.name) ++ ApiClass.foreignBases⟩
  model := ⟨classes⟩
  links := Edition.linksBetween ⟨lang, classes.map (·.name) ++ ApiClass.foreignBases⟩ ⟨classes⟩ "mdx"
  extension := "mdx"

theorem lint_extendingDisk : rootProject.lint extendingDisk = .ok (⟨[jsClass, extendingClass]⟩, []) := by
  have hpaths :
      (extendingDisk.documents [] (.ofString "./docs/src/api")).map (Path.below (.ofString "./docs/src/api")) =
        [.ofString "./docs/src/api/a.md"] := by
    cbv
  have hnodes : Markup.parse "# class: A\n* langs: js\n## method: A.a\n# class: B\n* extends: [A]\n## method: B.b\n" =
      .ok [.heading 1 "class: A" [.item .star "langs: js" [], .heading 2 "method: A.a" []],
        .heading 1 "class: B" [.item .star "extends: [A]" [], .heading 2 "method: B.b" []]] :=
    (Markup.parse_of_toList String.toList_ofList).trans rfl
  have hmodel : extendingDisk.apiModel [.ofString "./docs/src/api"] =
      .ok ⟨[jsClass, ApiClass.ofMembers "B" (some "A") [voidMethod "b" none]]⟩ :=
    apiModel_of_document hpaths rfl hnodes rfl rfl
  refine bind_eq_ok.2 ⟨_, hmodel, ?_⟩
  cbv

theorem edition_extendingDisk : rootProject.edition .js ⟨[jsClass, extendingClass]⟩ =
    .ok (extendingEdition .js [jsClass, extendingClass]) := by
  rfl

theorem inheritedEntries_extendingClass :
    (extendingEdition .js [jsClass, extendingClass]).inheritedEntries extendingClass "A" = [("b.a()", "a-a")] := by
  rfl

theorem basesOf_extendingClass : Edition.basesOf extendingClass = ["A"] := by
  cbv

/-- The pages of both classes in JavaScript. -/
def extendingPages : List PageFile :=
  [⟨.js, .ofString "./out/js/class-a.mdx",
      "---\nid: class-a\ntitle: \"A\"\n---\n\n- [a.a()](#a-a)\n\n## Methods\n\n### a.a() \x7b#a-a\x7d\n\n" ++
        "[A]: ./class-a.mdx \"A\"\n[B]: ./class-b.mdx \"B\"\n"⟩,
    ⟨.js, .ofString "./out/js/class-b.mdx",
      "---\nid: class-b\ntitle: \"B\"\n---\n\nExtends: [A]\n- [b.b()](#b-b)\n\n## Inherited from A\n" ++
        "- [b.a()](./class-a.mdx#a-a)\n\n## Methods\n\n### b.b() \x7b#b-b\x7d\n\n" ++
        "[A]: ./class-a.mdx \"A\"\n[B]: ./class-b.mdx \"B\"\n"⟩]

theorem linkDefinitions_extendingDisk :
    rootProject.linkDefinitions extendingDisk (extendingEdition .js [jsClass, extendingClass]) =
      .ok ["[A]: ./class-a.mdx \"A\"", "[B]: ./class-b.mdx \"B\""] := by
  cbv

set_option maxRecDepth 3000 in
theorem editionFiles_extendingDisk :
    rootProject.editionFiles extendingDisk (extendingEdition .js [jsClass, extendingClass]) [] =
      .ok extendingPages := by
  have hclasses : [jsClass, extendingClass].mergeSort (fun a b => (Name.compareText a.label b.label).isLE) =
      [jsClass, extendingClass] := by
    cbv
  refine (editionFiles_eq_ok linkDefinitions_extendingDisk hclasses).2 (.cons ?_ (.cons ?_ .nil))
  · refine ⟨rfl, by decide +kernel, ?_⟩
    rw [String.toList_append, String.toList_ofList, String.toList_ofList]
    decide +kernel
  · refine ⟨rfl, by decide +kernel, ?_⟩
    rw [String.toList_append, String.toList_append, String.toList_ofList, String.toList_ofList, String.toList_ofList]
    decide +kernel

/-- There are no guides, so what is generated for a language are the pages of the classes. -/
theorem generate_extendingDisk {lang : Lang} {files : List PageFile}
    (h : rootProject.languageFiles extendingDisk ⟨[jsClass, extendingClass]⟩ [] lang = .ok files) :
    rootProject.generate extendingDisk [lang] = .ok (files, []) := by
  have hguides : rootProject.guides extendingDisk = .ok [] := by cbv
  have hlangs : [lang].mapM (rootProject.languageFiles extendingDisk ⟨[jsClass, extendingClass]⟩ []) = .ok [files] :=
    mapM_eq_ok.2 (.cons h .nil)
  refine bind_eq_ok.2 ⟨_, lint_extendingDisk, bind_eq_ok.2 ⟨_, hguides, bind_eq_ok.2 ⟨_, hlangs, ?_⟩⟩⟩
  rw [List.flatten_singleton]
  rfl

theorem generate_extendingDisk_js : rootProject.generate extendingDisk [.js] = .ok (extendingPages, []) := by
  refine generate_extendingDisk ?_
  rw [languageFiles_eq, edition_extendingDisk]
  exact editionFiles_extendingDisk

/-- In JavaScript, the entry for the inherited method leads to the page of the class. -/
theorem inherited_links_js :
    rootProject.generate extendingDisk [.js] = .ok (extendingPages, []) ∧
      ("b.a()", "a-a") ∈ (extendingEdition .js [jsClass, extendingClass]).inheritedEntries extendingClass "A" ∧
      rootProject.HasSection (extendingEdition .js [jsClass, extendingClass]) extendingPages "A" "a-a" := by
  obtain ⟨model, edition, hlint, hedition, hlinks⟩ :=
    inherited_links_iff generate_extendingDisk_js (List.mem_singleton_self Lang.js)
  obtain rfl := (Prod.ext_iff.1 (Except.ok.inj (lint_extendingDisk.symm.trans hlint))).1
  obtain rfl := Except.ok.inj (edition_extendingDisk.symm.trans hedition)
  have hentry : ("b.a()", "a-a") ∈
      (extendingEdition .js [jsClass, extendingClass]).inheritedEntries extendingClass "A" := by
    rw [inheritedEntries_extendingClass]
    exact List.mem_singleton_self _
  have hbase : "A" ∈ Edition.basesOf extendingClass := by
    rw [basesOf_extendingClass]
    exact List.mem_singleton_self _
  obtain ⟨-, hsections⟩ := hlinks extendingClass (List.mem_cons_of_mem _ List.mem_cons_self) "A" hbase
  exact ⟨generate_extendingDisk_js, hentry, (hsections _ hentry).2 rfl⟩

/-- The page of the class that extends the other one in Python, which lacks the other one. -/
def danglingPage : PageFile where
  lang := .python
  path := .ofString "./out/python/class-b.mdx"
  text :=
    "---\nid: class-b\ntitle: \"B\"\n---\n\nExtends: [A]\n- [b.b](#b-b)\n\n## Inherited from A\n" ++
      "- [b.a](./class-a.mdx#a-a)\n\n## Methods\n\n### b.b \x7b#b-b\x7d\n\n[B]: ./class-b.mdx \"B\"\n"

theorem edition_extendingDisk_python : rootProject.edition .python ⟨[jsClass, extendingClass]⟩ =
    .ok (extendingEdition .python [extendingClass]) := by
  rfl

set_option maxRecDepth 3000 in
theorem editionFiles_extendingDisk_python :
    rootProject.editionFiles extendingDisk (extendingEdition .python [extendingClass]) [] = .ok [danglingPage] := by
  have hdefinitions : rootProject.linkDefinitions extendingDisk (extendingEdition .python [extendingClass]) =
      .ok ["[B]: ./class-b.mdx \"B\""] := by
    decide +kernel
  refine (editionFiles_eq_ok hdefinitions (List.mergeSort_singleton _)).2 (.cons ⟨rfl, by decide +kernel, ?_⟩ .nil)
  rw [danglingPage, String.toList_append, String.toList_ofList, String.toList_ofList]
  decide +kernel

set_option maxRecDepth 3000 in
/-- In Python, the only page has a link to a page that there is not. -/
theorem inherited_link_dangles :
    rootProject.generate extendingDisk [.python] = .ok ([danglingPage], []) ∧
      Text.contains "- [b.a](./class-a.mdx#a-a)".toList danglingPage.text.toList = true ∧
      ∀ file ∈ [danglingPage], file.path ≠ .ofString "./out/python/class-a.mdx" := by
  refine ⟨generate_extendingDisk ?_, ?_, fun file hfile => ?_⟩
  · rw [languageFiles_eq, edition_extendingDisk_python]
    exact editionFiles_extendingDisk_python
  · rw [danglingPage, String.toList_append, String.toList_ofList, String.toList_ofList, String.toList_ofList]
    rfl
  · rw [List.mem_singleton.1 hfile]
    decide

end Project

end RefPages
