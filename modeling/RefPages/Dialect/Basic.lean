/-
How a language spells what the sources name: arguments and options, parameters in brackets,
promises, and constants in comments.
-/
import RefPages.Api.Class
import RefPages.Markup.Walk
import RefPages.Name.Words

namespace RefPages

open Markup Text

/-- A language together with the classes that types may name in it. -/
structure Dialect where
  lang : Lang
  known : List String
  deriving DecidableEq, Repr

/-- Whether a type stands for a value that is passed in or handed back. -/
inductive Direction where
  | input
  | output
  deriving DecidableEq, Repr

/-- A name as a link to its definition. -/
def bracketed (name : String) : String := "[" ++ name ++ "]"

namespace Dialect

variable (dialect : Dialect)

/-! ## Names -/

/-- The name shown for an argument. -/
def argumentName (name : String) : String :=
  match dialect.lang with
  | .python => Name.snakeCase name
  | _ => name

/-- The name shown for an option. -/
def optionName (name : String) : String :=
  match dialect.lang with
  | .js => name
  | .python => Name.snakeCase name
  | .java => "set" ++ Name.titleCase name
  | .csharp => Name.titleCase name

/-- Parameters in the brackets that follow a type. -/
def templateText (inner : String) : String :=
  match dialect.lang with
  | .python => "\\[" ++ inner ++ "\\]"
  | _ => "<" ++ inner ++ ">"

/-- What an asynchronous method returns. -/
def promiseText (text : String) : String :=
  match dialect.lang with
  | .js => bracketed "Promise" ++ "<" ++ text ++ ">"
  | _ => text

/-- A function type from the texts of its arguments and its result. -/
def functionText (args : String) (result : Option String) (type : ApiType) : String :=
  match dialect.lang with
  | .js =>
    bracketed "function" ++ (if args = "" then "" else "(" ++ args ++ ")") ++
      match result with
      | some result => ":" ++ result
      | none => ""
  | .python => bracketed "Callable"
  | .java =>
    if args = "" then bracketed "Runnable"
    else
      let predicate := (type.returns.map fun returns => decide (returns.name = "boolean")).getD false
      bracketed (if predicate then "Predicate" else "Consumer") ++ dialect.templateText args
  | .csharp =>
    match result with
    | some result =>
      bracketed "Func" ++
        dialect.templateText (if args = "" then result else args ++ ", " ++ result)
    | none =>
      if args = "" then bracketed "Action" else bracketed "Action" ++ dialect.templateText args

/-! ## Links -/

/-- The text of a link to a class. -/
def classLink (cls : ApiClass) : String := bracketed cls.label

/-- The text of a reference to a parameter. -/
def paramLink (label : String) : String := "`" ++ dialect.argumentName label ++ "`"

/-- The text of a reference to an option. -/
def optionLink (label : String) : String := "`" ++ dialect.optionName label ++ "`"

/-! ## Comments -/

/-- The constants that the language spells otherwise than the sources do. -/
def constants : List (String × String) :=
  match dialect.lang with
  | .python => [("`null`", "`None`"), ("`true`", "`True`"), ("`false`", "`False`")]
  | _ => []

/-- A running text with its constants as the language spells them. -/
def commentText (text : String) : String :=
  String.ofList
    (dialect.constants.foldl
      (fun text (source, spelled) => replaceAll source.toList spelled.toList text) text.toList)

/-- A comment with its constants as the language spells them. -/
def comment (docs : List Node) : List Node := mapAllTexts dialect.commentText docs

end Dialect

end RefPages
