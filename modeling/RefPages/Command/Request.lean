/-
What a command line asks for: a task with its options, or the version or the help text. Options
for all tasks may stand before the name of the task or after it.
-/
import RefPages.Fault
import RefPages.Project.Path

namespace RefPages.Command

open Text

/-- A task for a project. -/
inductive Task where
  /-- Write the pages in some languages, or only list them. -/
  | generate (langs : List Lang) (dryRun : Bool)
  /-- Compare the pages in some languages with the disk, and perhaps show how they differ. -/
  | check (langs : List Lang) (showDiff : Bool)
  /-- Report what is wrong in the model. -/
  | lint (asJson : Bool)
  /-- Print the model in a language. -/
  | json (lang : Lang)
  deriving DecidableEq, Repr

/-- A task together with the options for all tasks. -/
structure Invocation where
  /-- Where the project is. -/
  path : Option Path
  noColor : Bool
  task : Option Task
  deriving DecidableEq, Repr

/-- What a command line asks for. -/
inductive Request where
  | run (invocation : Invocation)
  | version
  | help
  deriving DecidableEq, Repr

/-! ## Options -/

/-- An option. -/
inductive Switch where
  | path
  | verbose
  | noColor
  | help
  | version
  | lang
  | dryRun
  | diff
  | json
  deriving DecidableEq, Repr

namespace Switch

/-- The options for all tasks. -/
def forAll : List Switch := [.path, .verbose, .noColor, .help]

/-- The name of an option after two hyphens. -/
def name : Switch → String
  | .path => "path"
  | .verbose => "verbose"
  | .noColor => "no-color"
  | .help => "help"
  | .version => "version"
  | .lang => "lang"
  | .dryRun => "dry-run"
  | .diff => "diff"
  | .json => "json"

/-- The letter of an option after one hyphen. -/
def letter? : Switch → Option Char
  | .path => some 'p'
  | .verbose => some 'v'
  | .help => some 'h'
  | .version => some 'V'
  | .lang => some 'l'
  | _ => none

/-- Whether a value follows the option. -/
def takesValue : Switch → Bool
  | .path | .lang => true
  | _ => false

end Switch

/-- The options that a command line gives at one level. -/
structure Options where
  /-- The options given. -/
  given : List Switch
  path : Option Path
  langs : List Lang

namespace Options

/-- No options. -/
def none : Options := ⟨[], .none, []⟩

/-- Whether an option is given. -/
def has (options : Options) (switch : Switch) : Bool := options.given.contains switch

/-- The options with one more, which takes no value; none when it is given already. -/
def addFlag (options : Options) (switch : Switch) : Option Options :=
  if options.has switch then .none else some { options with given := switch :: options.given }

/-- The options with one more and its value; none when the value is wrong, or when the option is
given already and must not be repeated. -/
def addValue (options : Options) (mayRepeat : Bool) (switch : Switch) (value : List Char) :
    Option Options :=
  if options.has switch && !mayRepeat then .none
  else
    let options := { options with given := switch :: options.given }
    match switch with
    | .path => if value.isEmpty then .none else some { options with path := some ⟨value⟩ }
    | .lang =>
      match Lang.read (String.ofList value) with
      | .ok lang => some { options with langs := options.langs ++ [lang] }
      | .error _ => .none
    | _ => .none

end Options

/-! ## Levels -/

/-- A place on a command line: before the name of a task, or after it. -/
inductive Level where
  | top
  | generate
  | check
  | lint
  | json
  deriving DecidableEq, Repr

namespace Level

/-- The options that may stand at a place. -/
def switches : Level → List Switch
  | .top => .version :: Switch.forAll
  | .generate => .lang :: .dryRun :: Switch.forAll
  | .check => .lang :: .diff :: Switch.forAll
  | .lint => .json :: Switch.forAll
  | .json => .lang :: Switch.forAll

/-- Whether an option may be given several times. -/
def mayRepeat (level : Level) (switch : Switch) : Bool :=
  switch = .lang && (level = .generate || level = .check)

/-- The place after the name of a task. -/
def ofTask? (name : List Char) : Option Level :=
  [("generate", Level.generate), ("check", .check), ("lint", .lint), ("json", .json)].lookup
    (String.ofList name)

/-- The task that the options after its name make up; none when something is missing. -/
def task? (options : Options) : Level → Option (Option Task)
  | .top => some none
  | .generate => some (some (.generate options.langs (options.has .dryRun)))
  | .check => some (some (.check options.langs (options.has .diff)))
  | .lint => some (some (.lint (options.has .json)))
  | .json => options.langs.head?.map fun lang => some (.json lang)

end Level

/-! ## Words -/

/-- A word of a command line. -/
inductive Word where
  /-- Two hyphens, after which no options come. -/
  | separator
  /-- An option by its name, and what follows an equals sign. -/
  | long (name : List Char) (value : Option (List Char))
  /-- Options by their letters. -/
  | short (letters : List Char)
  | other (chars : List Char)

/-- The kind of word that characters are. -/
def Word.of (chars : List Char) : Word :=
  match chars with
  | ['-', '-'] => .separator
  | '-' :: '-' :: rest =>
    match splitOnce? ['='] rest with
    | some (name, value) => .long name (some value)
    | none => .long rest none
  | ['-'] => .other ['-']
  | '-' :: letters => .short letters
  | _ => .other chars

/-- What a word says. -/
inductive Reading where
  /-- More options. -/
  | given (options : Options)
  /-- More options, and one whose value is the next word. -/
  | awaiting (options : Options) (switch : Switch)
  /-- The end of all options. -/
  | ended
  /-- Something that is answered at once. -/
  | answered (request : Request)
  /-- The name of a task. -/
  | entering (level : Level)

/-- The reading of an option without a value. -/
def readFlag (options : Options) (switch : Switch) : Option Reading :=
  match switch with
  | .help => some (.answered .help)
  | .version => some (.answered .version)
  | _ => (options.addFlag switch).map .given

/-- The reading of options given by their letters. The first that takes a value takes what follows
it in the word. -/
def readLetters (level : Level) (options : Options) : List Char → Option Reading
  | [] => some (.given options)
  | c :: letters =>
    match level.switches.find? (·.letter? = some c) with
    | none => none
    | some switch =>
      if switch.takesValue then
        if letters.isEmpty then some (.awaiting options switch)
        else
          (options.addValue (level.mayRepeat switch) switch
            ((after? ['='] letters).getD letters)).map .given
      else
        match readFlag options switch with
        | some (.given options) => readLetters level options letters
        | reading => reading

/-- The reading of an option given by its name. -/
def readLong (level : Level) (options : Options) (name : List Char) (value : Option (List Char)) :
    Option Reading :=
  match level.switches.find? (·.name = String.ofList name), value with
  | none, _ => none
  | some switch, none =>
    if switch.takesValue then some (.awaiting options switch) else readFlag options switch
  | some switch, some value =>
    if switch.takesValue then
      (options.addValue (level.mayRepeat switch) switch value).map .given
    else none

/-- The reading of a word that is no option. -/
def readOther (level : Level) (chars : List Char) : Option Reading :=
  if level = .top then
    if chars = "help".toList then some (.answered .help)
    else (Level.ofTask? chars).map .entering
  else none

/-- The reading of a word. -/
def readWord (level : Level) (options : Options) (chars : List Char) : Option Reading :=
  match Word.of chars with
  | .separator => some .ended
  | .long name value => readLong level options name value
  | .short letters => readLetters level options letters
  | .other chars => readOther level chars

/-! ## Command lines -/

/-- What is asked for when the command line ends: the options before the name of the task hold
unless those after it say otherwise. -/
def finish (outer : Options) (level : Level) (options : Options) : Option Request := do
  let task ← level.task? options
  return .run
    { path := options.path.orElse fun _ => outer.path
      noColor := outer.has .noColor || options.has .noColor
      task }

/-- What the words of a command line ask for, after those that gave the options, at the top and at
this level, and perhaps an option whose value comes next; none when it cannot be understood. -/
def readFrom (outer : Options) (level : Level) (options : Options) (awaited : Option Switch) :
    List (List Char) → Option Request
  | [] => if awaited.isSome then none else finish outer level options
  | chars :: words =>
    match awaited with
    | some switch =>
      match Word.of chars with
      | .other value => do
        let options ← options.addValue (level.mayRepeat switch) switch value
        readFrom outer level options none words
      | _ => none
    | none => do
      match ← readWord level options chars with
      | .given options => readFrom outer level options none words
      | .awaiting options switch => readFrom outer level options (some switch) words
      | .ended => if words.isEmpty then finish outer level options else none
      | .answered request => some request
      | .entering level => readFrom options level .none none words

/-- What a command line asks for; none when it cannot be understood. -/
def read? (words : List String) : Option Request :=
  readFrom .none .top .none none (words.map String.toList)

end RefPages.Command
