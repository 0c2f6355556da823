/-
The files of an edition, class by class. What a file holds can be compared in characters.
-/
import RefPages.Api.Equality
import RefPages.Project.Generate
import RefPages.Proofs.Fallible

namespace RefPages

open Markup

/-- The characters of a page with definitions of links after it. -/
def Page.chars (width : Nat) (definitions : List String) (nodes : List Node) : List Char :=
  ['\n'].intercalate (dropBlankEnd (renderSiblings width none true nodes)) ++ ['\n'] ++
    if definitions.isEmpty then [] else '\n' :: ['\n'].intercalate (definitions.map String.toList) ++ ['\n']

theorem Page.toList_text (width : Nat) (definitions : List String) (nodes : List Node) :
    (Page.text width definitions nodes).toList = Page.chars width definitions nodes := by
  unfold Page.text Page.chars render
  rw [String.toList_append, String.toList_ofList]
  split
  · rfl
  · rw [String.toList_append, String.toList_append, String.toList_intercalate]
    rfl

namespace Project

variable {project : Project} {edition : Edition} {definitions : List String} {classes : List ApiClass}

@[simp] theorem pageFile_lang (lang : Lang) (definitions : List String) (path : Path) (nodes : List Node) :
    (project.pageFile lang definitions path nodes).lang = lang := rfl

@[simp] theorem pageFile_path (lang : Lang) (definitions : List String) (path : Path) (nodes : List Node) :
    (project.pageFile lang definitions path nodes).path = (project.config.outputRoot project.root lang).join path := rfl

@[simp] theorem pageFile_text (lang : Lang) (definitions : List String) (path : Path) (nodes : List Node) :
    (project.pageFile lang definitions path nodes).text = Page.text project.config.maxColumns definitions nodes := rfl

/-- The file has the page of a class, at the place for it. -/
structure PageOf (project : Project) (edition : Edition) (definitions : List String) (cls : ApiClass)
    (file : PageFile) : Prop where
  lang : file.lang = edition.dialect.lang
  path : file.path = (project.config.outputRoot project.root edition.dialect.lang).join
    (project.fileName (Edition.stemOf edition.model cls.name))
  chars : (edition.classPage cls).map (Page.chars project.config.maxColumns definitions) = .ok file.text.toList

theorem pageOf_iff {cls : ApiClass} {file : PageFile} :
    project.PageOf edition definitions cls file ↔
      (edition.classPage cls >>= fun page => pure (project.pageFile edition.dialect.lang definitions
        (project.fileName (Edition.stemOf edition.model cls.name)) page)) = .ok file := by
  rw [bind_eq_ok]
  constructor
  · rintro ⟨hlang, hpath, hchars⟩
    obtain ⟨page, hpage, htext⟩ := map_eq_ok.1 hchars
    rw [← Page.toList_text, String.toList_inj] at htext
    refine ⟨page, hpage, congrArg Except.ok ?_⟩
    unfold pageFile
    rw [htext, ← hpath, ← hlang]
  · rintro ⟨page, hpage, hfile⟩
    obtain rfl := Except.ok.inj hfile
    refine ⟨pageFile_lang .., pageFile_path .., map_eq_ok.2 ⟨page, hpage, ?_⟩⟩
    rw [pageFile_text, Page.toList_text]

/-- Without guides, the files of an edition are the pages of its classes in the order of their labels. -/
theorem editionFiles_eq_ok {disk : Disk} {files : List PageFile}
    (hdefinitions : project.linkDefinitions disk edition = .ok definitions)
    (hclasses : (edition.model.classes.mergeSort fun a b => (Name.compareText a.label b.label).isLE) = classes) :
    project.editionFiles disk edition [] = .ok files ↔
      List.Forall₂ (project.PageOf edition definitions) classes files := by
  have hfiles : project.editionFiles disk edition [] = classes.mapM fun cls =>
      edition.classPage cls >>= fun page => pure (project.pageFile edition.dialect.lang definitions
        (project.fileName (Edition.stemOf edition.model cls.name)) page) := by
    unfold editionFiles
    rw [hdefinitions, hclasses]
    simp only [List.mapM_nil, pure_bind, List.append_nil, bind_pure]
    rfl
  rw [hfiles, mapM_eq_ok]
  exact ⟨List.Forall₂.imp fun _ _ => pageOf_iff.2, List.Forall₂.imp fun _ _ => pageOf_iff.1⟩

end Project

end RefPages
