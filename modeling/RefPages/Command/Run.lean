/-
Tasks carried out on a disk: what is printed, the code that is returned, and the disk after it.
-/
import RefPages.Command.Request
import RefPages.Diff.Lines
import RefPages.Project.Output

namespace RefPages.Command

open Text

/-- What a run has to show for itself. -/
structure Outcome where
  /-- Zero when all is well, one when something is wrong with the project, two when the run failed. -/
  code : Nat
  stdout : String
  stderr : String
  deriving DecidableEq, Repr

/-- Where a command line is carried out. -/
structure Setting where
  disk : Disk
  /-- A folder for sources in place of the one that settings say. -/
  sourceDir : Option Path
  /-- Whether text may be coloured. -/
  colors : Bool

/-! ## Text on the terminal -/

/-- How text stands out. -/
inductive Emphasis where
  | red
  | green
  | yellow
  | bold
  deriving DecidableEq, Repr

/-- The codes that begin and end emphasised text. -/
def Emphasis.codes : Emphasis → String × String
  | .red => ("\x1b[31m", "\x1b[39m")
  | .green => ("\x1b[32m", "\x1b[39m")
  | .yellow => ("\x1b[33m", "\x1b[39m")
  | .bold => ("\x1b[1m", "\x1b[0m")

/-- A text that stands out when colours are on. -/
def emphasise (colors : Bool) (emphasis : Emphasis) (text : String) : String :=
  if colors then emphasis.codes.1 ++ text ++ emphasis.codes.2 else text

/-- Texts as lines. -/
def printed (lines : List String) : String := String.join (lines.map (· ++ "\n"))

/-- The line that reports a finding. -/
def findingLine (colors : Bool) (finding : Diagnostic) : String :=
  finding.lineWith
    (emphasise colors (if finding.isError then .red else .yellow) finding.severity.word)

/-- How a change to a line is shown. -/
def changeText (colors : Bool) : Diff.Change × String → String
  | (.kept, line) => "   " ++ line
  | (.removed, line) => "  " ++ emphasise colors .red ("-" ++ line)
  | (.added, line) => "  " ++ emphasise colors .green ("+" ++ line)

/-- How the text of a file and that of its page differ. -/
def diffText (colors : Bool) (current expected : String) : String :=
  String.join ((Diff.lineChanges current expected).map (changeText colors))

/-! ## Outcomes -/

/-- The code of a run that found something. -/
def codeFor (findings : List Diagnostic) : Nat := if findings.any (·.isError) then 1 else 0

/-- The outcome of a run that a fault stopped. -/
def failed (fault : Fault) : Outcome := ⟨2, "", printed fault.report⟩

/-- The outcome of a run, or of the fault that stopped it. -/
def orFailed : Except Fault Outcome → Outcome
  | .ok outcome => outcome
  | .error fault => failed fault

/-! ## Tasks -/

/-- The pages listed instead of being written. -/
def dryRun (colors : Bool) (project : Project) (files : List PageFile)
    (findings : List Diagnostic) : Outcome :=
  { code := codeFor findings
    stdout := printed
      ((files.map fun file => "Would write: " ++ (project.root.relativeTo file.path).text) ++
        ["\nDry run: " ++ toString files.length ++ " file(s) would be written."])
    stderr := printed (findings.map (findingLine colors)) }

/-- The pages written. -/
def generate (colors : Bool) (disk : Disk) (files : List PageFile) (findings : List Diagnostic) :
    Outcome × Disk :=
  match disk.writePages files with
  | (disk, some fault) => (failed fault, disk)
  | (disk, none) =>
    ({ code := codeFor findings
       stdout := printed
         [emphasise colors .green ("Generated " ++ toString files.length ++ " file(s).")]
       stderr := printed (findings.map (findingLine colors)) }, disk)

/-- The report on a page that is not as it should be; none when it is. -/
def statusText? (colors showDiff : Bool) (project : Project) (page : PageFile × FileStatus) :
    Option String :=
  let path := (project.root.relativeTo page.1.path).text
  match page.2 with
  | .upToDate => none
  | .missing => some (printed [emphasise colors .red "missing:" ++ " " ++ path])
  | .stale current =>
    some
      (printed [emphasise colors .yellow "stale:" ++ " " ++ path] ++
        if showDiff then diffText colors current page.1.text else "")

/-- The pages compared with the disk. -/
def check (colors showDiff : Bool) (project : Project) (disk : Disk) (files : List PageFile)
    (findings : List Diagnostic) : Except Fault Outcome := do
  let statuses ← disk.pageStatuses files
  let reports := statuses.filterMap (statusText? colors showDiff project)
  let total := toString statuses.length
  let found := printed (findings.map (findingLine colors))
  if reports.isEmpty then
    return ⟨0, printed ["Check passed: all " ++ total ++ " generated file(s) are up to date."], found⟩
  else
    let summary :=
      "\n" ++ emphasise colors .red "Check failed:" ++ " " ++ toString reports.length ++ " of " ++
        total ++
        " generated file(s) are out of date. Run `apiref generate` to update them."
    return ⟨1, "", found ++ String.join reports ++ printed [summary]⟩

/-- What is wrong in a model reported in words. -/
def lintText (colors : Bool) (model : Model) (findings : List Diagnostic) : String :=
  if findings.isEmpty then
    printed
      [emphasise colors .green
        ("No problems found in " ++ toString model.classes.length ++ " class(es).")]
  else
    let errors := (findings.filter (·.isError)).length
    printed
      (findings.map (findingLine colors) ++
        ["\n" ++ emphasise colors .bold "Lint summary" ++ ": " ++ toString errors ++ " error(s), " ++
          toString (findings.length - errors) ++ " warning(s)"])

/-- What is wrong in a model, reported. -/
def lint (colors asJson : Bool) (model : Model) (findings : List Diagnostic) : Outcome :=
  { code := codeFor findings
    stdout :=
      if asJson then printed [(JsonValue.array (findings.map Diagnostic.json)).pretty]
      else lintText colors model findings
    stderr := "" }

/-- A task carried out for a project. -/
def perform (colors : Bool) (project : Project) (disk : Disk) : Task → Outcome × Disk
  | .generate langs isDry =>
    match project.generate disk langs with
    | .error fault => (failed fault, disk)
    | .ok (files, findings) =>
      if isDry then (dryRun colors project files findings, disk)
      else generate colors disk files findings
  | .check langs showDiff =>
    (orFailed do
      let (files, findings) ← project.generate disk langs
      check colors showDiff project disk files findings, disk)
  | .lint asJson =>
    (orFailed do
      let (model, findings) ← project.lint disk
      return lint colors asJson model findings, disk)
  | .json lang =>
    (orFailed do return ⟨0, printed [← project.json disk lang], ""⟩, disk)

/-! ## Command lines -/

/-- The path of the folder at which relative paths begin. -/
def Setting.herePath (setting : Setting) : Path :=
  ⟨'/' :: ['/'].intercalate setting.disk.here⟩

/-- An invocation carried out. -/
def invoke (setting : Setting) (invocation : Invocation) : Outcome × Disk :=
  match invocation.task with
  | none =>
    (⟨1, "", printed ["No subcommand specified. Run `apiref --help` for usage."]⟩, setting.disk)
  | some task =>
    let root := invocation.path.getD setting.herePath
    match Config.load setting.disk root setting.sourceDir with
    | .error fault => (failed fault, setting.disk)
    | .ok config =>
      perform (setting.colors && !invocation.noColor) ⟨root, config⟩ setting.disk task

/-- The name and the version of the program. -/
def versionText : String := "apiref_cli 0.1.0"

/-- How the program is used. -/
def usage : String :=
  "Usage: apiref [--path DIR] [--verbose] [--no-color] COMMAND\n\n" ++
    "  generate [--lang LANG]... [--dry-run]  Write the reference pages\n" ++
    "  check [--lang LANG]... [--diff]        Verify the pages on disk are up to date\n" ++
    "  lint [--json]                          Validate the API sources\n" ++
    "  json --lang LANG                       Dump the model for one language"

/-- A command line carried out. -/
def run (setting : Setting) (words : List String) : Outcome × Disk :=
  match read? words with
  | none => (⟨2, "", printed [usage]⟩, setting.disk)
  | some .help => (⟨0, printed [usage], ""⟩, setting.disk)
  | some .version => (⟨0, printed [versionText], ""⟩, setting.disk)
  | some (.run invocation) => invoke setting invocation

end RefPages.Command
