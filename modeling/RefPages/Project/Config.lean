/-
How a project is set up: where its sources are, which pages are written, and where to. Settings
that a project does not make have standard values.
-/
import RefPages.Project.Disk
import RefPages.Text.Decimal
import RefPages.Toml.Read

namespace RefPages

open Text

/-- The settings of a project. -/
structure Config where
  /-- The folder with all sources. -/
  sourceDir : Path
  /-- The folders in it that document the API. Each is read on its own. -/
  apiDirs : List Path
  /-- The folder for pages, which has a folder for each language. -/
  outputDir : Path
  languages : List Lang
  /-- Whether pages have the extension of Markdown with components. -/
  mdx : Bool
  /-- The widest lines of paragraphs; zero if they are as long as they are. -/
  maxColumns : Nat
  includeExperimental : Bool
  csharpShortNotation : Bool
  /-- The file with definitions of links for all pages. -/
  commonLinks : Path
  /-- The files with definitions of links for the pages in one language, whose name replaces a
  mark. -/
  languageLinks : String
  /-- Patterns of guides that are left out. -/
  excludedGuides : List String
  deriving DecidableEq, Repr

namespace Config

/-- The settings of a project that makes none. -/
def standard : Config where
  sourceDir := .ofString "docs/src"
  apiDirs := [.ofString "api"]
  outputDir := .ofString "out"
  languages := Lang.all
  mdx := true
  maxColumns := 0
  includeExperimental := false
  csharpShortNotation := false
  commonLinks := .ofString "links.md"
  languageLinks := "links-\x7blang\x7d.md"
  excludedGuides := []

/-! ## Places -/

/-- The extension of pages. -/
def extension (config : Config) : String := if config.mdx then "mdx" else "md"

/-- The folder with all sources of the project at a path. -/
def sourceRoot (config : Config) (root : Path) : Path := root.join config.sourceDir

/-- The folders that document the API. -/
def apiRoots (config : Config) (root : Path) : List Path :=
  config.apiDirs.map (config.sourceRoot root).join

/-- The folder for the pages in a language. -/
def outputRoot (config : Config) (root : Path) (lang : Lang) : Path :=
  (root.join config.outputDir).join (.ofString lang.name)

/-- The file with definitions of links for all pages. -/
def commonLinksPath (config : Config) (root : Path) : Path :=
  (config.sourceRoot root).join config.commonLinks

/-- The file with definitions of links for the pages in a language. -/
def languageLinksPath (config : Config) (root : Path) (lang : Lang) : Path :=
  (config.sourceRoot root).join
    ⟨replaceAll "\x7blang\x7d".toList lang.name.toList config.languageLinks.toList⟩

/-- The settings with another folder for sources, unless its name is empty. -/
def withSourceDir (config : Config) (dir : Option Path) : Config :=
  match dir with
  | some dir => if dir.chars.isEmpty then config else { config with sourceDir := dir }
  | none => config

/-! ## Settings from values -/

/-- The text that a value is. -/
def string? : TomlValue → Option String
  | .string text => some (String.ofList text)
  | _ => none

/-- The path that a value is. -/
def path? (value : TomlValue) : Option Path := (string? value).map Path.ofString

/-- The flag that a value is. -/
def flag? : TomlValue → Option Bool
  | .boolean flag => some flag
  | _ => none

/-- The number that a value is: one that a machine can count to. -/
def count? : TomlValue → Option Nat
  | .integer n => if 0 ≤ n ∧ n < wordLimit then some n.toNat else none
  | _ => none

/-- The values that a value consists of. -/
def list? {α : Type} (item? : TomlValue → Option α) : TomlValue → Option (List α)
  | .array values => values.mapM item?
  | _ => none

/-- The language with a name; no other names count here. -/
def named? (name : List Char) : Option Lang := Lang.all.find? (·.name = String.ofList name)

/-- The language that a value names: by a text, or by the only key of a table, under which there
must be nothing. -/
def lang? : TomlValue → Option Lang
  | .string name => named? name
  | .table [(name, .table [])] | .table [(name, .array [])] => named? name
  | _ => none

/-- The settings in a table, or in an array that has them in a fixed order. -/
def group? (names : List String) : TomlValue → Option (List (List Char × TomlValue))
  | .table entries => some entries
  | .array values => some ((names.map String.toList).zip values)
  | _ => none

/-- The value of a setting, or the standard one when it is not made; none when it has the wrong
kind of value. -/
def setting? {α : Type} (entries : List (List Char × TomlValue)) (name : String)
    (read? : TomlValue → Option α) (standard : α) : Option α :=
  match entries.lookup name.toList with
  | some value => read? value
  | none => some standard

/-- The settings that a table makes; those that there are not do not count. -/
def ofEntries? (entries : List (List Char × TomlValue)) : Option Config := do
  let links ← setting? entries "links" (group? ["common", "per_language"]) []
  let guides ← setting? entries "guides" (group? ["exclude"]) []
  return {
    sourceDir := ← setting? entries "source_dir" path? standard.sourceDir
    apiDirs := ← setting? entries "api_dirs" (list? path?) standard.apiDirs
    outputDir := ← setting? entries "output_dir" path? standard.outputDir
    languages := ← setting? entries "languages" (list? lang?) standard.languages
    mdx := ← setting? entries "mdx" flag? standard.mdx
    maxColumns := ← setting? entries "max_columns" count? standard.maxColumns
    includeExperimental :=
      ← setting? entries "include_experimental" flag? standard.includeExperimental
    csharpShortNotation :=
      ← setting? entries "csharp_short_notation" flag? standard.csharpShortNotation
    commonLinks := ← setting? links "common" path? standard.commonLinks
    languageLinks := ← setting? links "per_language" string? standard.languageLinks
    excludedGuides := ← setting? guides "exclude" (list? string?) standard.excludedGuides }

/-- The settings that a text makes. -/
def read (text : String) : Except Fault Config :=
  match (Toml.read? text.toList).bind ofEntries? with
  | some config => .ok config
  | none => .error .badConfig

/-! ## Settings on disk -/

/-- The files that settings are looked for in, in this order. -/
def fileNames : List String := ["apiref.toml", ".apiref.toml", ".config/apiref.toml"]

/-- The file with the settings of the project at a path. -/
def file? (disk : Disk) (root : Path) : Option Path :=
  (fileNames.map fun name => root.join (.ofString name)).find? disk.isFile

/-- The settings that the project at a path makes; none when it makes none. -/
def load? (disk : Disk) (root : Path) : Except Fault (Option Config) :=
  match file? disk root with
  | some file => do return some (← read (← disk.read file))
  | none => .ok none

/-- The settings of the project at a path. A folder for sources may be given in place of the one
that they say. -/
def load (disk : Disk) (root : Path) (sourceDir : Option Path) : Except Fault Config := do
  return ((← load? disk root).getD standard).withSourceDir sourceDir

end Config

end RefPages
