/-
What a project amounts to: its model with what is wrong in it, the model in one language, and the
files with all pages.
-/
import RefPages.Api.ForLang
import RefPages.Api.Inherit
import RefPages.Api.Stable
import RefPages.Json.Model
import RefPages.Page.ClassPage
import RefPages.Page.Finish
import RefPages.Project.Config
import RefPages.Project.Sources

namespace RefPages

/-- A file with a page. -/
structure PageFile where
  lang : Lang
  path : Path
  text : String
  deriving DecidableEq, Repr

/-- The settings of a project and where it is. -/
structure Project where
  root : Path
  config : Config

/-- The way in which the settings expand options. -/
def Config.overloadStyle (config : Config) : OverloadStyle :=
  if config.csharpShortNotation then .joined else .separate

/-- The part of a model that pages in a language are made from. -/
def Config.languageModel (config : Config) (lang : Lang) (model : Model) : Except Fault Model := do
  let model ← model.inLang lang config.overloadStyle
  return if config.includeExperimental then model else model.stable

namespace Project

/-! ## Models -/

/-- The model of a project, with inherited members, and what is wrong in it. -/
def lint (project : Project) (disk : Disk) : Except Fault (Model × List Diagnostic) := do
  return (← disk.apiModel (project.config.apiRoots project.root)).inherit

/-- The model in a language as a JSON text. -/
def json (project : Project) (disk : Disk) (lang : Lang) : Except Fault String := do
  let (model, _) ← project.lint disk
  return (← project.config.languageModel lang model).jsonText

/-! ## Pages -/

/-- The files with definitions of links, for all pages and for those in each language. -/
def linkFiles (project : Project) : List Path :=
  project.config.commonLinksPath project.root ::
    Lang.all.map (project.config.languageLinksPath project.root)

/-- The guides of a project. -/
def guides (project : Project) (disk : Disk) : Except Fault (List Guide) := do
  let excluded ← Glob.readAll project.config.excludedGuides
  Guide.readAll disk (project.config.sourceRoot project.root)
    (project.config.apiRoots project.root) project.linkFiles excluded

/-- The definitions of links on the pages of an edition. -/
def linkDefinitions (project : Project) (disk : Disk) (edition : Edition) :
    Except Fault (List String) := do
  let common ← disk.linkLines (project.config.commonLinksPath project.root)
  let own ←
    disk.linkLines (project.config.languageLinksPath project.root edition.dialect.lang)
  return edition.classDefinitions ++ common ++ own

/-- The name of a file with a page. -/
def fileName (project : Project) (stem : String) : Path :=
  .ofString (stem ++ "." ++ project.config.extension)

/-- The file with a page at a path below the folder for its language. -/
def pageFile (project : Project) (lang : Lang) (definitions : List String) (path : Path)
    (nodes : List Markup.Node) : PageFile :=
  { lang
    path := (project.config.outputRoot project.root lang).join path
    text := Page.text project.config.maxColumns definitions nodes }

/-- The path of the page of a guide: that of the guide with the name of the page. -/
def guidePath (project : Project) (guide : Guide) : Path :=
  Path.join ⟨['/'].intercalate guide.place.dropLast⟩ (project.fileName guide.stem)

/-- The files with the pages of an edition: those of classes in the order of their labels, then
those of guides. -/
def editionFiles (project : Project) (disk : Disk) (edition : Edition) (guides : List Guide) :
    Except Fault (List PageFile) := do
  let definitions ← project.linkDefinitions disk edition
  let file := project.pageFile edition.dialect.lang definitions
  let classes := edition.model.classes.mergeSort fun a b => (Name.compareText a.label b.label).isLE
  let classFiles ← classes.mapM fun cls => do
    return file (project.fileName (Edition.stemOf edition.model cls.name)) (← edition.classPage cls)
  let guideFiles ← guides.mapM fun guide => do
    return file (project.guidePath guide) (← edition.guidePage guide.path.text guide.nodes)
  return classFiles ++ guideFiles

/-- The files with all pages in a language. -/
def languageFiles (project : Project) (disk : Disk) (model : Model) (guides : List Guide)
    (lang : Lang) : Except Fault (List PageFile) := do
  let model ← project.config.languageModel lang model
  let edition ← Edition.ofModel lang project.config.extension model
  project.editionFiles disk edition guides

/-- The files with all pages in some languages, or in those of the settings when none are given,
and what is wrong in the model. -/
def generate (project : Project) (disk : Disk) (langs : List Lang) :
    Except Fault (List PageFile × List Diagnostic) := do
  let (model, findings) ← project.lint disk
  let guides ← project.guides disk
  let langs := if langs.isEmpty then project.config.languages else langs
  let files ← langs.mapM (project.languageFiles disk model guides)
  return (files.flatten, findings)

end Project

end RefPages
