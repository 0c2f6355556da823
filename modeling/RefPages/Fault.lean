/-
What stops a run, with the words in which it is reported, and the findings that do not stop it.
-/
import RefPages.Lang
import RefPages.Text.Blank

namespace RefPages

/-! ## Faults -/

/-- The blocks that a pair of markers encloses. -/
inductive BlockKind where
  | code
  | note
  | properties
  deriving DecidableEq, Repr

/-- The word for a block in messages. -/
def BlockKind.word : BlockKind → String
  | .code => "code"
  | .note => "comment"
  | .properties => "header"

/-- What stops a run. -/
inductive Fault where
  /-- A file cannot be read or written. -/
  | io
  /-- A block is not closed, or a line in it has lost its indentation. -/
  | badBlock (kind : BlockKind) (snippet : String)
  /-- A union of string literals without a name. -/
  | anonymousEnum (expression : String)
  /-- The type name that says neither integer nor float. -/
  | numberType (expression : String)
  /-- A line that should give a name, a type and a comment. -/
  | invalidArgument (line : String)
  /-- Nested type lines under a type without an object in it. -/
  | propertiesOnNonObject (expression : String)
  /-- A heading that declares nothing. -/
  | invalidHeading (heading : String)
  /-- A reference to a member that no class has. -/
  | undefinedMember (reference : String)
  /-- A reference to a parameter that the method does not have. -/
  | undefinedParam (param method : String)
  /-- A reference to something that is no event, method, property, parameter or option. -/
  | unknownLinkKind (reference : String)
  /-- A type name without a counterpart in the language. -/
  | unmappedType (name : String) (lang : Lang)
  /-- A function type with more arguments than the language can write. -/
  | unsupportedArity (lang : Lang) (arity : Nat) (context : String)
  /-- An alternative of an option's type that has no name of its own. -/
  | unsupportedOverload (option typeName : String)
  /-- A parameter documented twice without languages for the second copy. -/
  | overrideWithoutLang (heading : String)
  /-- A language that pages are not written for. -/
  | unknownLanguage (name : String)
  /-- A configuration that cannot be read. -/
  | badConfig
  /-- The properties at the top of a guide cannot be read. -/
  | badFrontMatter (path : String)
  /-- A fault together with the file that has it. -/
  | inFile (path : String) (cause : Fault)
  deriving DecidableEq, Repr

namespace Fault

/-- The fault with the file that has it, unless it says already which one. -/
def within (path : String) : Fault → Fault
  | .io => .io
  | .inFile other cause => .inFile other cause
  | fault => .inFile path fault

/-- The key under which the fault is looked up. -/
def code : Fault → String
  | .io => "apiref::io_error"
  | .badBlock .. => "apiref::bad_block"
  | .anonymousEnum _ => "apiref::anonymous_enum"
  | .numberType _ => "apiref::number_type"
  | .invalidArgument _ => "apiref::invalid_argument"
  | .propertiesOnNonObject _ => "apiref::properties_on_non_object"
  | .invalidHeading _ => "apiref::invalid_api_heading"
  | .undefinedMember _ => "apiref::undefined_member"
  | .undefinedParam .. => "apiref::undefined_param"
  | .unknownLinkKind _ => "apiref::unknown_link_kind"
  | .unmappedType .. => "apiref::unmapped_type"
  | .unsupportedArity .. => "apiref::unsupported_arity"
  | .unsupportedOverload .. => "apiref::unsupported_overload"
  | .overrideWithoutLang _ => "apiref::override_without_lang"
  | .unknownLanguage _ => "apiref::unknown_language"
  | .badConfig => "apiref::config_parse"
  | .badFrontMatter _ => "apiref::front_matter"
  | .inFile .. => "apiref::in_file"

/-- The advice that goes with a fault. -/
def help? : Fault → Option String
  | .badBlock .. =>
    some "every line inside a fenced block must keep the indentation of its opening marker"
  | .anonymousEnum _ =>
    some "wrap string literal unions in a named generic, e.g. `Color<\"red\"|\"blue\">`"
  | .invalidArgument _ =>
    some "type lines look like `- `name` <[Type]> comment` or `- returns: <[Type]>`"
  | .propertiesOnNonObject _ =>
    some "nested type lines need an `[Object]` somewhere in the parent type"
  | .invalidHeading _ =>
    some "expected `class: Name`, `method: Class.name`, `param: Class.method.name`, etc."
  | .unmappedType .. =>
    some "add the type to the formatter's lookup table or declare it as a class"
  | .unsupportedArity .. => some "add an explicit entry to the function override table"
  | .overrideWithoutLang _ =>
    some "a parameter documented twice must restrict the second copy with `* langs:`"
  | .unknownLanguage _ => some "supported languages: js, python, java, csharp"
  | .badConfig => some "check that apiref.toml is valid TOML"
  | _ => none

/-- The sentence that reports a fault. -/
def message : Fault → String
  | .io => "input or output failed"
  | .badBlock kind snippet => "bad " ++ kind.word ++ " block:\n" ++ snippet
  | .anonymousEnum expression => "enum must have a name: `" ++ expression ++ "`"
  | .numberType expression =>
    "number types should be either int or float, not number in: `" ++ expression ++ "`"
  | .invalidArgument line => "invalid argument: `" ++ line ++ "`"
  | .propertiesOnNonObject expression =>
    "nested properties given to a non-object type: `" ++ expression ++ "`"
  | .invalidHeading heading => "invalid api heading: `" ++ heading ++ "`"
  | .undefinedMember reference => "undefined member reference: `" ++ reference ++ "`"
  | .undefinedParam param method =>
    "referenced parameter `" ++ param ++ "` not found in the parent method `" ++ method ++ "`"
  | .unknownLinkKind reference =>
    "undefined link prefix, expected event|method|property|param|option, got: `" ++ reference ++ "`"
  | .unmappedType name lang => "cannot render type `" ++ name ++ "` for " ++ lang.name
  | .unsupportedArity lang arity context =>
    lang.name ++ " cannot render a function with " ++ toString arity ++ " argument(s) in `" ++
      context ++ "`"
  | .unsupportedOverload option typeName =>
    "csharp option `" ++ option ++ "` has unsupported type overload `" ++ typeName ++ "`"
  | .overrideWithoutLang heading => "override does not have lang: `" ++ heading ++ "`"
  | .unknownLanguage name => "unknown language: `" ++ name ++ "`"
  | .badConfig => "failed to parse config file"
  | .badFrontMatter path => "failed to parse front matter in `" ++ path ++ "`"
  | .inFile path cause => path ++ ": " ++ cause.message

/-- The lines that report a fault on the terminal: its key, its sentence and the advice that goes with it. -/
def report (fault : Fault) : List String :=
  ["Error: " ++ fault.code, "", "  x " ++ fault.message] ++
    (fault.help?.map ("  help: " ++ ·)).toList

end Fault

/-- The language that a source calls by this name, white space around it aside. -/
def Lang.read (name : String) : Except Fault Lang :=
  match Lang.ofName? (String.ofList (Text.trim name.toList)) with
  | some lang => .ok lang
  | none => .error (.unknownLanguage name)

/-! ## Findings -/

/-- How seriously a finding is taken; warnings come before errors. -/
inductive Severity where
  | warning
  | error
  deriving DecidableEq, Repr

/-- The word for a severity. -/
def Severity.word : Severity → String
  | .warning => "warning"
  | .error => "error"

/-- Something in the sources that is wrong but does not stop a run. -/
structure Diagnostic where
  severity : Severity
  /-- The class, and perhaps the member, that the finding is about. -/
  location : String
  message : String
  deriving DecidableEq, Repr

namespace Diagnostic

/-- A finding that is an error. -/
def error (location message : String) : Diagnostic := ⟨.error, location, message⟩

/-- The line that reports a finding whose severity is written `label`. -/
def lineWith (label : String) (finding : Diagnostic) : String :=
  label ++ "[" ++ finding.location ++ "]: " ++ finding.message

/-- Whether a finding is an error. -/
def isError (finding : Diagnostic) : Bool := finding.severity == .error

end Diagnostic

end RefPages
