/-
How a member is written where it is used: the instance it belongs to, its name, and its
arguments. A language with overloads has several forms of one member.
-/
import RefPages.Dialect.Basic

namespace RefPages

open Text

/-- One form of a member with the arguments to document for it. -/
structure Form where
  signature : String
  args : List Member

namespace Dialect

variable (dialect : Dialect)

/-! ## The instance -/

/-- What is under test in a class of assertions. -/
def assertionSubject? (className : String) : Option (List Char) :=
  before? "Assertions".toList className.toList

/-- The value under test in a class of assertions. -/
def testedValue (subject : String) : String :=
  match subject with
  | "Locator" => "locator"
  | "Page" => "page"
  | "APIResponse" => "response"
  | _ => "value"

/-- What stands before the dot. -/
def instanceText (member : Member) : String :=
  match assertionSubject? member.className with
  | some subject =>
    let subject := String.ofList subject
    match dialect.lang with
    | .js | .python => "expect(" ++ testedValue subject ++ ")"
    | .java => "assertThat(" ++ Name.variableName subject ++ ")"
    | .csharp => "Expect(" ++ Name.pascalCase subject ++ ")"
  | none =>
    match dialect.lang with
    | .js | .java => Name.variableName member.className
    | .python => Name.snakeCase member.className
    | .csharp =>
      if member.kind = .property then member.className else Name.variableName member.className

/-! ## The name -/

/-- Names made of dollar signs as Python spells them. -/
def pythonDollarNames : List (String × String) :=
  [("$", "query_selector"), ("$$", "query_selector_all"), ("$eval", "eval_on_selector"),
    ("$$eval", "eval_on_selector_all")]

/-- Names made of dollar signs as C# spells them. -/
def csharpDollarNames : List (String × String) :=
  [("$", "QuerySelector"), ("$$", "QuerySelectorAll"), ("$eval", "EvalOnSelector"),
    ("$$eval", "EvalOnSelectorAll")]

/-- The name of a member as the language spells it. -/
def memberName (member : Member) : String :=
  match dialect.lang with
  | .js | .java => member.label
  | .python => (pythonDollarNames.lookup member.label).getD (Name.snakeCase member.label)
  | .csharp =>
    (csharpDollarNames.lookup member.label).getD (Name.titleCase member.label) ++
      if member.isMethod && member.isAsync then "Async" else ""

/-! ## The arguments -/

/-- The further names of an argument list, after a comma each. A bracket opens before the first
that is not required, unless it is open already. -/
def furtherArgs (isOpen : Bool) : List Member → String
  | [] => if isOpen then "]" else ""
  | arg :: args =>
    (if !arg.required && !isOpen then "[" else "") ++ ", " ++ arg.label ++
      furtherArgs (isOpen || !arg.required) args

/-- The names of arguments with those from the first on that is not required in brackets. -/
def bracketedArgs : List Member → String
  | [] => ""
  | arg :: args =>
    (if arg.required then "" else "[") ++ arg.label ++ furtherArgs (!arg.required) args

/-- The arguments with the options among them in place of the argument that holds them. -/
def spreadOptions (args : List Member) : List Member :=
  args.flatMap fun arg =>
    if arg.name = "options" then (arg.type.map (·.sortedProperties)).getD [] else [arg]

/-- The arguments to document for a member. -/
def documentedArgs (member : Member) : List Member :=
  match dialect.lang with
  | .python => spreadOptions member.args
  | _ => member.args

/-- The arguments as they stand after the name of a method. -/
def callText (member : Member) : String :=
  match dialect.lang with
  | .js | .java => "(" ++ bracketedArgs member.args ++ ")"
  | .csharp =>
    "(" ++ ", ".intercalate (member.args.map fun arg => dialect.argumentName arg.label) ++ ")"
  | .python =>
    let args := dialect.documentedArgs member
    if args.isEmpty && !member.isAsync then ""
    else
      let required := (args.filter (·.required)).map fun arg => dialect.argumentName arg.label
      let others := if args.any (!·.required) then ["**kwargs"] else []
      "(" ++ ", ".intercalate (required ++ others) ++ ")"

/-! ## The whole -/

/-- How an event is listened to. -/
def eventText (member : Member) : String :=
  match dialect.lang with
  | .js => "on('" ++ member.label ++ "')"
  | .python => "on(\"" ++ String.ofList (lower member.label.toList) ++ "\")"
  | .java => "on" ++ Name.titleCase member.label ++ "(handler)"
  | .csharp => dialect.memberName member ++ " += handler"

/-- How a member is written where it is used. -/
def signature (member : Member) : String :=
  dialect.instanceText member ++ "." ++
    match member.kind with
    | .property =>
      dialect.memberName member ++ if dialect.lang = .java then "()" else ""
    | .event => dialect.eventText member
    | .method => dialect.memberName member ++ dialect.callText member

/-- Whether an argument makes a member have several forms in C#. -/
def isOverloaded (arg : Member) : Bool :=
  arg.required && (arg.type.map (·.isMixedUnion)).getD false

/-- The arguments for each alternative of the first argument that makes a member have several
forms; the arguments as they are when none does. -/
def overloads : List Member → List (List Member)
  | [] => [[]]
  | arg :: args =>
    if isOverloaded arg then
      ((arg.type.bind (·.union)).getD []).map fun alternative =>
        { arg with type := some alternative } :: args
    else (overloads args).map (arg :: ·)

/-- The forms of a member. -/
def forms (member : Member) : List Form :=
  let argLists :=
    if dialect.lang = .csharp then overloads member.args else [dialect.documentedArgs member]
  argLists.map (⟨dialect.signature member, ·⟩)

/-- The text of a link to a member at a place. -/
def memberLink (member : Member) (href : String) : String :=
  let text := ((dialect.forms member).head?.map (·.signature)).getD member.label
  "[" ++ text ++ "](" ++ href ++ ")"

end Dialect

end RefPages
