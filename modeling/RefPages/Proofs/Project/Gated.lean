/-
Comments that are for other languages. They do not show on the pages of a language; but references
in them are looked up all the same, and one that leads nowhere stops the language.
-/
import Mathlib
import RefPages.Api.Equality
import RefPages.Project.Generate
import RefPages.Proofs.Api.InheritedComments
import RefPages.Proofs.Page.Faults
import RefPages.Proofs.Page.Redact

namespace RefPages

open Markup

/-! ## The model of a language -/

theorem Config.languageModel_redact (config : Config) (lang : Lang) (base : Model) :
    config.languageModel lang (base.redact lang) = (config.languageModel lang base).map (Model.redact lang) := by
  unfold languageModel
  rw [Model.redact, Model.inLang_recomment]
  cases base.inLang lang config.overloadStyle with
  | error fault => rfl
  | ok model =>
    show Except.ok _ = Except.ok _
    cases config.includeExperimental with
    | true => rfl
    | false => exact congrArg Except.ok (Model.stable_recomment model)

namespace Project

variable (project : Project)

/-- The edition of a project in a language. -/
def edition (lang : Lang) (base : Model) : Except Fault Edition := do
  let model ← project.config.languageModel lang base
  Edition.ofModel lang project.config.extension model

theorem languageFiles_eq (disk : Disk) (base : Model) (guides : List Guide) (lang : Lang) :
    project.languageFiles disk base guides lang =
      project.edition lang base >>= (project.editionFiles disk · guides) := by
  unfold languageFiles edition
  rw [bind_assoc]

/-- Making an edition is stopped by what stops the model of the language, or by a reference. -/
theorem edition_redact {lang : Lang} {base : Model} {edition : Edition} (h : project.edition lang base = .ok edition) :
    ∃ kept, project.edition lang (base.redact lang) = .ok kept ∧ kept.redact lang = edition.redact lang := by
  obtain ⟨model, hmodel, h⟩ := bind_eq_ok.1 h
  obtain ⟨kept, hkept, hsame⟩ := Edition.ofModel_redact h
  refine ⟨kept, bind_eq_ok.2 ⟨model.redact lang, ?_, hkept⟩, hsame⟩
  rw [Config.languageModel_redact, hmodel]
  rfl

/-! ## Pages -/

section

variable {change : List Node → List Node} {edition : Edition}
  (hshown : ∀ docs, Page.ShowsSame edition.dialect change docs) (hlinks : edition.links.Ignores change)

include hshown hlinks

/-- The files of an edition do not depend on what does not show of its comments. -/
theorem editionFiles_recomment (disk : Disk) (guides : List Guide) :
    project.editionFiles disk (edition.recomment change) guides = project.editionFiles disk edition guides := by
  have hclasses : (edition.recomment change).model.classes.mergeSort
        (fun a b => (Name.compareText a.label b.label).isLE) =
      (edition.model.classes.mergeSort fun a b => (Name.compareText a.label b.label).isLE).map
        (ApiClass.recomment change) := by
    refine (List.map_mergeSort fun a _ b _ => ?_).symm
    rfl
  have hguides : (edition.recomment change).guidePage = edition.guidePage := by
    funext path nodes
    exact Edition.guidePage_recomment hlinks path nodes
  have hstems : Edition.stemOf (edition.recomment change).model = Edition.stemOf edition.model :=
    funext (Edition.stemOf_recomment edition.model)
  have hpages : ∀ cls : ApiClass, (edition.recomment change).classPage (cls.recomment change) = edition.classPage cls :=
    fun cls => Edition.classPage_recomment fun docs _ => hshown docs
  unfold editionFiles linkDefinitions
  dsimp only
  rw [Edition.classDefinitions_recomment, hclasses, hguides, hstems]
  refine bind_congr fun definitions => ?_
  rw [List.mapM_map]
  simp only [Function.comp_def, hpages]
  rfl

end

/-- The files of an edition are never stopped by a reference alone. -/
theorem failsOnly_editionFiles (disk : Disk) (guides : List Guide) (edition : Edition) :
    FailsOnly Fault.Elsewhere (project.editionFiles disk edition guides) := by
  have hlines : ∀ path, FailsOnly Fault.Elsewhere (disk.linkLines path) := by
    intro path
    unfold Disk.linkLines
    split
    · refine FailsOnly.bind ?_ fun _ _ => .pure _
      unfold Disk.read
      split
      · exact .ok _
      · exact .error id
    · exact .ok _
  have hdefinitions : FailsOnly Fault.Elsewhere (project.linkDefinitions disk edition) :=
    (hlines _).bind fun _ _ => (hlines _).bind fun _ _ => .pure _
  refine hdefinitions.bind fun definitions _ => FailsOnly.bind (FailsOnly.mapM fun cls _ => ?_) fun _ _ => ?_
  · exact (edition.failsOnly_classPage cls).bind fun _ _ => .pure _
  · refine FailsOnly.bind (FailsOnly.mapM fun guide _ => ?_) fun _ _ => .pure _
    exact (edition.failsOnly_guidePage _ _).bind fun _ _ => .pure _

/-! ## Two projects that differ in what a language drops -/

/-- What stops the edition of a project in a language, if anything does. References are looked up
in all comments, for whichever language they are. -/
def editionFault? (lang : Lang) (base : Model) : Option Fault :=
  match project.edition lang base with
  | .ok _ => none
  | .error fault => some fault

variable {project}

theorem links_edition {lang : Lang} {base : Model} {edition : Edition} (h : project.edition lang base = .ok edition) :
    edition.dialect.lang = lang ∧ edition.links.Ignores (redactAll lang) := by
  obtain ⟨model, -, h⟩ := bind_eq_ok.1 h
  obtain ⟨hlang, hlinks⟩ := Edition.links_ofModel h
  rw [hlinks]
  exact ⟨hlang, Edition.ignores_linksBetween _ _ _⟩

/-- When all references can be resolved, the files are those for what is left to the language. -/
theorem languageFiles_redact {lang : Lang} {base : Model} {edition : Edition}
    (h : project.edition lang base = .ok edition) (disk : Disk) (guides : List Guide) :
    project.languageFiles disk (base.redact lang) guides lang = project.languageFiles disk base guides lang := by
  have hfiles : ∀ {base : Model} {edition : Edition}, project.edition lang base = .ok edition →
      project.editionFiles disk (edition.redact lang) guides = project.editionFiles disk edition guides := by
    intro base edition h
    obtain ⟨rfl, hlinks⟩ := links_edition h
    exact project.editionFiles_recomment (Page.showsSame_redactAll _) hlinks disk guides
  obtain ⟨kept, hkept, hsame⟩ := project.edition_redact h
  rw [languageFiles_eq, languageFiles_eq, h, hkept]
  show project.editionFiles disk kept guides = project.editionFiles disk edition guides
  rw [← hfiles hkept, hsame, hfiles h]

/-- The model of a language is stopped in the same way. -/
theorem languageModel_fault {config : Config} {lang : Lang} {base base' : Model}
    (hsame : base.redact lang = base'.redact lang) {fault : Fault}
    (h : config.languageModel lang base = .error fault) : config.languageModel lang base' = .error fault := by
  have hredact := config.languageModel_redact lang base
  rw [hsame, Config.languageModel_redact, h] at hredact
  cases hmodel : config.languageModel lang base' with
  | error other =>
    rw [hmodel] at hredact
    cases hredact
    rfl
  | ok model =>
    rw [hmodel] at hredact
    cases hredact

/-- When only one edition is stopped, the files of the other are not stopped by the same fault. -/
theorem editionFiles_ne_fault {lang : Lang} {base base' : Model} (hsame : base.redact lang = base'.redact lang)
    {fault : Fault} {edition : Edition} (h : project.edition lang base = .error fault)
    (h' : project.edition lang base' = .ok edition) (disk : Disk) (guides : List Guide) :
    project.editionFiles disk edition guides ≠ .error fault := by
  intro hfiles
  refine project.failsOnly_editionFiles disk guides edition fault hfiles ?_
  unfold Project.edition at h h'
  cases hmodel : project.config.languageModel lang base with
  | error own =>
    rw [languageModel_fault hsame hmodel] at h'
    cases h'
  | ok model =>
    rw [hmodel] at h
    exact Edition.failsOnly_ofModel lang project.config.extension model fault h

theorem editionFiles_congr {disk disk' : Disk}
    (hlinks : ∀ path ∈ project.linkFiles, disk.linkLines path = disk'.linkLines path) (edition : Edition)
    (guides : List Guide) : project.editionFiles disk edition guides = project.editionFiles disk' edition guides := by
  have hcommon : disk.linkLines (project.config.commonLinksPath project.root) =
      disk'.linkLines (project.config.commonLinksPath project.root) :=
    hlinks _ List.mem_cons_self
  have hown : disk.linkLines (project.config.languageLinksPath project.root edition.dialect.lang) =
      disk'.linkLines (project.config.languageLinksPath project.root edition.dialect.lang) := by
    refine hlinks _ (List.mem_cons_of_mem _ (List.mem_map_of_mem ?_))
    cases edition.dialect.lang <;> decide
  unfold editionFiles linkDefinitions
  rw [hcommon, hown]

/-- Where two models differ only in what a language drops, the language has the same files, or the
same fault, exactly when its references are stopped in the same way. -/
theorem languageFiles_eq_iff {lang : Lang} {base base' : Model} (hsame : base.redact lang = base'.redact lang)
    {disk disk' : Disk} (hlinks : ∀ path ∈ project.linkFiles, disk.linkLines path = disk'.linkLines path)
    (guides : List Guide) :
    project.languageFiles disk base guides lang = project.languageFiles disk' base' guides lang ↔
      project.editionFault? lang base = project.editionFault? lang base' := by
  have hfiles : ∀ {base edition}, project.edition lang base = .ok edition → ∀ disk,
      project.languageFiles disk base guides lang = project.editionFiles disk edition guides := by
    intro base edition h disk
    rw [languageFiles_eq, h]
    rfl
  have hfault : ∀ {base fault}, project.edition lang base = .error fault → ∀ disk,
      project.languageFiles disk base guides lang = .error fault := by
    intro base fault h disk
    rw [languageFiles_eq, h]
    rfl
  unfold editionFault?
  cases h : project.edition lang base with
  | ok edition =>
    cases h' : project.edition lang base' with
    | ok edition' =>
      refine iff_of_true ?_ rfl
      rw [← languageFiles_redact h, ← languageFiles_redact h', hsame, languageFiles_eq, languageFiles_eq]
      exact bind_congr fun edition => editionFiles_congr hlinks edition guides
    | error fault' =>
      refine iff_of_false ?_ nofun
      rw [hfiles h, hfault h']
      exact editionFiles_ne_fault hsame.symm h' h disk guides
  | error fault =>
    rw [hfault h]
    cases h' : project.edition lang base' with
    | ok edition' =>
      refine iff_of_false ?_ nofun
      rw [hfiles h']
      exact (editionFiles_ne_fault hsame h h' disk' guides).symm
    | error fault' =>
      rw [hfault h']
      constructor
      · intro heq
        cases heq
        rfl
      · intro heq
        cases heq
        rfl

/-- The files for one language are made from the models that are read, after members have been handed
down. -/
theorem generate_eq {lang : Lang} {disk : Disk} {base : Model} {guides : List Guide}
    (hbase : disk.apiModel (project.config.apiRoots project.root) = .ok base)
    (hguides : project.guides disk = .ok guides) :
    project.generate disk [lang] =
      (project.languageFiles disk base.inherit.1 guides lang).map fun files => (files, base.inherit.2) := by
  unfold generate lint
  rw [hbase, hguides]
  show (do
    let files ← [lang].mapM (project.languageFiles disk base.inherit.1 guides)
    pure (files.flatten, base.inherit.2)) = _
  rw [List.mapM_cons, List.mapM_nil]
  cases project.languageFiles disk base.inherit.1 guides lang with
  | error fault => rfl
  | ok files => exact congrArg (fun files => Except.ok (files, base.inherit.2)) (List.append_nil files)

/-- Where two projects differ only in what comments hold for other languages, a language has the
same files and findings, or the same fault, exactly when its references are stopped in the same
way. -/
theorem generate_eq_iff {lang : Lang} {disk disk' : Disk} {base base' : Model} {guides : List Guide}
    (hbase : disk.apiModel (project.config.apiRoots project.root) = .ok base)
    (hbase' : disk'.apiModel (project.config.apiRoots project.root) = .ok base')
    (hguides : project.guides disk = .ok guides) (hguides' : project.guides disk' = .ok guides)
    (hlinks : ∀ path ∈ project.linkFiles, disk.linkLines path = disk'.linkLines path)
    (hsame : base.redact lang = base'.redact lang) :
    project.generate disk [lang] = project.generate disk' [lang] ↔
      project.editionFault? lang base.inherit.1 = project.editionFault? lang base'.inherit.1 := by
  have hinherit : ∀ base : Model, (base.redact lang).inherit = (base.inherit.1.redact lang, base.inherit.2) :=
    Model.inherit_recomment
  have hboth := (hinherit base).symm.trans ((congrArg Model.inherit hsame).trans (hinherit base'))
  obtain ⟨hmodels, hfindings⟩ := Prod.ext_iff.1 hboth
  rw [generate_eq hbase hguides, generate_eq hbase' hguides', ← languageFiles_eq_iff hmodels hlinks guides, hfindings]
  exact map_inj fun files files' h => congrArg Prod.fst h

/-! ## One document -/

/-- A folder with one document has the model that the document declares. -/
theorem apiModel_of_document {disk : Disk} {folder path : Path} {text : String} {nodes : List Markup.Node}
    {model : Model} (hpaths : (disk.documents [] folder).map folder.below = [path]) (hread : disk.read path = .ok text)
    (hparse : Markup.parse text = .ok nodes) (hmodel : Model.ofDocuments [nodes] = .ok model)
    (hlinked : Model.empty.merge model = model) : disk.apiModel [folder] = .ok model := by
  obtain ⟨drafts, hdrafts, hmodel⟩ := bind_eq_ok.1 hmodel
  have hfeed : disk.feedFile [] path = .ok drafts := by
    obtain ⟨fed, hfed, hdrafts⟩ := bind_eq_ok.1 hdrafts
    cases hdrafts
    rw [Disk.feedFile, hread]
    show Except.mapError _ (Markup.parse text >>= fun nodes => Drafts.feed [] nodes) = .ok drafts
    rw [hparse]
    exact congrArg (Except.mapError (Fault.within path.text)) hfed
  have hfolder : disk.folderModel folder = .ok model := by
    refine bind_eq_ok.2 ⟨drafts, ?_, hmodel⟩
    rw [hpaths, List.foldlM_cons, hfeed]
    rfl
  rw [Disk.apiModel, List.foldlM_cons, hfolder]
  exact congrArg Except.ok hlinked

/-! ## A comment for one language -/

/-- A disk with one document about the API: the comment of a class is for JavaScript, and its only
method is for some languages. -/
def gatedDisk (comment langs : String) : Disk where
  entries :=
    [(["docs".toList], .folder), (["docs".toList, "src".toList], .folder),
      (["docs".toList, "src".toList, "api".toList], .folder),
      (["docs".toList, "src".toList, "api".toList, "a.md".toList],
        .file (.text
          ("# class: A\n\n- " ++ comment ++ "\n  * langs: js\n\n## method: A.b\n* langs: " ++ langs ++ "\n")))]
  here := []

/-- What the document declares is all that is declared on the disk. -/
theorem apiModel_gatedDisk {comment langs : List Char} (nodes : List Markup.Node) {model : Model}
    (hnodes : Markup.forest (Markup.logicalLines ("# class: A\n\n- ".toList ++ comment ++
      "\n  * langs: js\n\n## method: A.b\n* langs: ".toList ++ langs ++ "\n".toList)) = .ok nodes)
    (hmodel : Model.ofDocuments [nodes] = .ok model) (hlinked : Model.empty.merge model = model) :
    (gatedDisk (String.ofList comment) (String.ofList langs)).apiModel [.ofString "./docs/src/api"] = .ok model := by
  have hpaths :
      ((gatedDisk (String.ofList comment) (String.ofList langs)).documents [] (.ofString "./docs/src/api")).map
        (Path.below (.ofString "./docs/src/api")) = [.ofString "./docs/src/api/a.md"] := by
    cbv
  refine apiModel_of_document hpaths rfl ((Markup.parse_of_toList ?_).trans hnodes) hmodel hlinked
  simp only [String.toList_append, String.toList_ofList]

/-- The model of the class. -/
def gatedModel (comment : String) (langs : List Lang) : Model :=
  ⟨[ApiClass.relink
    { ApiClass.ofMembers "A" none [] with
      docs := [.item .dash comment [.item .star "langs: js" []]]
      members :=
        [{ Member.ofName .method "b" (some (ApiType.plain "void")) with
          langs := { LangRules.everywhere with only := some langs } }] }]⟩

/-- The document on the disk. -/
def gatedDocument (comment langs : String) : List Markup.Node :=
  [.heading 1 "class: A" [.item .dash comment [.item .star "langs: js" []],
    .heading 2 "method: A.b" [.item .star langs []]]]

/-- The project at the root of the disk, which makes no settings. -/
def rootProject : Project := ⟨.ofString ".", .standard⟩

theorem guides_gatedDisk (comment langs : String) : rootProject.guides (gatedDisk comment langs) = .ok [] := by
  cbv

/-- A reference for another language that leads somewhere does not matter. -/
theorem generate_eq_python :
    (gatedDisk "See [\x60method: A.b\x60]." "js, python").apiModel [.ofString "./docs/src/api"] =
        .ok (gatedModel "See [\x60method: A.b\x60]." [.js, .python]) ∧
      (gatedDisk "See nothing." "js, python").apiModel [.ofString "./docs/src/api"] =
        .ok (gatedModel "See nothing." [.js, .python]) ∧
      (gatedModel "See [\x60method: A.b\x60]." [.js, .python]).redact .python =
        (gatedModel "See nothing." [.js, .python]).redact .python ∧
      rootProject.generate (gatedDisk "See [\x60method: A.b\x60]." "js, python") [.python] =
        rootProject.generate (gatedDisk "See nothing." "js, python") [.python] := by
  have hbase : (gatedDisk "See [\x60method: A.b\x60]." "js, python").apiModel [.ofString "./docs/src/api"] =
      .ok (gatedModel "See [\x60method: A.b\x60]." [.js, .python]) :=
    apiModel_gatedDisk (gatedDocument "See [\x60method: A.b\x60]." "langs: js, python") rfl (by decide +kernel)
      (by decide +kernel)
  have hbase' : (gatedDisk "See nothing." "js, python").apiModel [.ofString "./docs/src/api"] =
      .ok (gatedModel "See nothing." [.js, .python]) :=
    apiModel_gatedDisk (gatedDocument "See nothing." "langs: js, python") rfl (by decide +kernel) (by decide +kernel)
  have hlinks : rootProject.linkFiles.map (gatedDisk "See [\x60method: A.b\x60]." "js, python").linkLines =
      rootProject.linkFiles.map (gatedDisk "See nothing." "js, python").linkLines := by
    decide +kernel
  have hsame : (gatedModel "See [\x60method: A.b\x60]." [.js, .python]).redact .python =
      (gatedModel "See nothing." [.js, .python]).redact .python := by
    decide +kernel
  have hfault : rootProject.editionFault? .python (gatedModel "See [\x60method: A.b\x60]." [.js, .python]).inherit.1 =
      rootProject.editionFault? .python (gatedModel "See nothing." [.js, .python]).inherit.1 := by
    decide +kernel
  refine ⟨hbase, hbase', hsame, ?_⟩
  exact (generate_eq_iff hbase hbase' (guides_gatedDisk ..) (guides_gatedDisk ..) (List.map_inj_left.1 hlinks)
    hsame).2 hfault

/-- A reference for another language that leads nowhere stops a language that drops it. -/
theorem generate_ne_java :
    (gatedDisk "See [\x60method: A.b\x60]." "js").apiModel [.ofString "./docs/src/api"] =
        .ok (gatedModel "See [\x60method: A.b\x60]." [.js]) ∧
      (gatedDisk "See nothing." "js").apiModel [.ofString "./docs/src/api"] = .ok (gatedModel "See nothing." [.js]) ∧
      (gatedModel "See [\x60method: A.b\x60]." [.js]).redact .java = (gatedModel "See nothing." [.js]).redact .java ∧
      rootProject.generate (gatedDisk "See [\x60method: A.b\x60]." "js") [.java] =
        .error (.undefinedMember "[\x60method: A.b\x60]") ∧
      rootProject.generate (gatedDisk "See nothing." "js") [.java] =
        .ok ([⟨.java, .ofString "./out/java/class-a.mdx",
          "---\nid: class-a\ntitle: \"A\"\n---\n\n[A]: ./class-a.mdx \"A\"\n"⟩], []) := by
  have hbase : (gatedDisk "See [\x60method: A.b\x60]." "js").apiModel [.ofString "./docs/src/api"] =
      .ok (gatedModel "See [\x60method: A.b\x60]." [.js]) :=
    apiModel_gatedDisk (gatedDocument "See [\x60method: A.b\x60]." "langs: js") rfl (by decide +kernel)
      (by decide +kernel)
  have hbase' : (gatedDisk "See nothing." "js").apiModel [.ofString "./docs/src/api"] =
      .ok (gatedModel "See nothing." [.js]) :=
    apiModel_gatedDisk (gatedDocument "See nothing." "langs: js") rfl (by decide +kernel) (by decide +kernel)
  refine ⟨hbase, hbase', by decide +kernel, ?_, ?_⟩
  · rw [generate_eq hbase (guides_gatedDisk ..)]
    decide +kernel
  · rw [generate_eq hbase' (guides_gatedDisk ..)]
    decide +kernel

end Project

end RefPages
