/-
The text of a type in each language. JavaScript and Python take every name; Java and C# refuse
the names that they have no counterpart for and that are no classes.
-/
import RefPages.Dialect.Basic

namespace RefPages

open Text

namespace Dialect

/-! ## Names of types -/

/-- The counterpart of a type name in JavaScript. -/
def jsName (name : String) : String :=
  match name with
  | "int" | "float" => bracketed "number"
  | "path" => bracketed "string"
  | _ => bracketed name

/-- The counterpart of a type name in Python. -/
def pythonName (dialect : Dialect) (direction : Direction) (name : String) : String :=
  match name with
  | "any" | "Serializable" => bracketed "Any"
  | "boolean" => bracketed "bool"
  | "string" | "URL" => bracketed "str"
  | "Buffer" => bracketed "bytes"
  | "RegExp" => bracketed "Pattern"
  | "null" => bracketed "NoneType"
  | "Object" => bracketed "Dict"
  | "Array" => bracketed "List"
  | "Readable" => bracketed "IO" ++ dialect.templateText (bracketed "bytes")
  | "path" =>
    match direction with
    | .input =>
      bracketed "Union" ++
        dialect.templateText (bracketed "str" ++ ", " ++ bracketed "pathlib.Path")
    | .output => bracketed "pathlib.Path"
  | _ => bracketed name

/-- The counterparts of type names in Java. -/
def javaNames : List (String × String) :=
  [("any", "Object"), ("Serializable", "Object"), ("Array", "List"), ("float", "double"),
    ("path", "Path"), ("RegExp", "Pattern"), ("string", "String"), ("URL", "String"),
    ("Buffer", "byte[]"), ("Readable", "InputStream")]

/-- The counterparts of type names in C#. -/
def csharpNames : List (String × String) :=
  [("any", "object"), ("Serializable", "object"), ("Array", "IEnumerable"), ("boolean", "bool"),
    ("path", "string"), ("string", "string"), ("URL", "string"), ("RegExp", "Regex"),
    ("Buffer", "byte[]"), ("Readable", "Stream")]

/-- The type names that Java has as well. -/
def javaOwn : List String := ["void", "null", "int", "boolean", "Error", "Date"]

/-- The type names that C# has as well. -/
def csharpOwn : List String := ["void", "null", "int", "float", "Exception", "DateTime"]

/-- The name of an object type: `map` with parameters, a class named after the member when it has
properties, `plain` otherwise. -/
def objectName (map plain : String) (type : ApiType) (member : Member) : String :=
  if type.templates.isSome then bracketed map
  else if (type.properties.getD []).isEmpty then bracketed plain
  else bracketed (Name.pascalCase member.label)

/-- The name of a type in a language that refuses what it does not know. -/
def strictName (dialect : Dialect) (names : List (String × String)) (own : List String)
    (map plain : String) (type : ApiType) (member : Member) : Except Fault String :=
  match names.lookup type.name with
  | some name => .ok (bracketed name)
  | none =>
    if type.name = "Object" then .ok (objectName map plain type member)
    else if own.contains type.name || dialect.known.contains type.name then
      .ok (bracketed type.name)
    else .error (.unmappedType type.name dialect.lang)

/-- The name of a type without its parameters. -/
def typeName (dialect : Dialect) (direction : Direction) (member : Member) (type : ApiType) :
    Except Fault String :=
  match dialect.lang with
  | .js => .ok (jsName type.name)
  | .python => .ok (dialect.pythonName direction type.name)
  | .java => dialect.strictName javaNames javaOwn "Map" "Object" type member
  | .csharp => dialect.strictName csharpNames csharpOwn "IDictionary" "object" type member

/-! ## Enumerations -/

/-- The name of the enumeration that literals make: that of the union or, if it has none, that of
the member. -/
def enumName (name : String) (member : Member) : String :=
  Name.pascalCase (if name = "" then member.label else name)

/-- A literal as a constant of an enumeration. -/
def enumValue (dialect : Dialect) (value : String) : String :=
  match dialect.lang with
  | .java => String.ofList ((upper value.toList).map fun c => if c = '-' then '_' else c)
  | _ => Name.pascalCase value

/-- The enumeration for the literals among the alternatives of a union, if there are any. -/
def enumText (dialect : Dialect) (name : String) (member : Member) (union : List ApiType) :
    List String :=
  let literals := union.filter (·.isLiteral)
  if literals.isEmpty then []
  else
    ["[enum " ++ enumName name member ++ " \x7b " ++
      ", ".intercalate ((literals.filterMap (·.literalValue?)).map dialect.enumValue) ++ " \x7d]"]

/-- Whether the language has enumerations in place of literals, and leaves out null. -/
def hasEnums (dialect : Dialect) : Bool :=
  match dialect.lang with
  | .js | .python => false
  | .java | .csharp => true

/-- Whether an alternative of a union is rendered as a type. -/
def keeps (dialect : Dialect) (alternative : ApiType) : Bool :=
  !dialect.hasEnums || (!alternative.isLiteral && alternative.name ≠ "null")

/-- The text of a union from the texts of the alternatives that are kept. -/
def unionText (dialect : Dialect) (name : String) (member : Member) (union : List ApiType)
    (kept : List String) : String :=
  if dialect.hasEnums then
    "|".intercalate (dialect.enumText name member union ++ kept) ++
      (if dialect.lang = .csharp ∧ union.any (·.name = "null") then "?" else "")
  else "|".intercalate kept

/-! ## Functions -/

/-- Callback parameters with an interface of their own in Java, by class, method and
parameter. -/
def callbackInterfaces : List (String × String) :=
  [("BrowserContext.exposeBinding.callback", "BindingCallback"),
    ("BrowserContext.exposeFunction.callback", "FunctionCallback"),
    ("Page.exposeBinding.callback", "BindingCallback"),
    ("Page.exposeFunction.callback", "FunctionCallback")]

/-- A member by class, method and name. -/
def callbackKey (member : Member) : String :=
  Member.qualify (member.enclosingMethod.getD member.className) member.name

/-- The interface that a callback parameter has in the language. -/
def callbackInterface? (dialect : Dialect) (member : Member) : Option String :=
  if dialect.lang = .java then callbackInterfaces.lookup (callbackKey member) else none

/-- How many arguments a function type can have in the language; any number when absent. -/
def maxArity? (dialect : Dialect) : Option Nat :=
  match dialect.lang with
  | .js | .python => none
  | .java => some 1
  | .csharp => some 3

/-- The fault of a function with too many arguments, if it has. -/
def arityFault? (dialect : Dialect) (member : Member) (arity : Nat) : Option Fault :=
  match dialect.maxArity? with
  | some most =>
    if most < arity then
      some (.unsupportedArity dialect.lang arity
        (if dialect.lang = .java then callbackKey member else member.qualifiedName))
    else none
  | none => none

/-- Whether the arguments of a function are part of its text. -/
def showsArguments (dialect : Dialect) : Bool := dialect.lang ≠ .python

/-- Whether the result of a function, by its name, is part of its text. -/
def showsResult (dialect : Dialect) (name : String) : Bool :=
  match dialect.lang with
  | .js => true
  | .csharp => name ≠ "void"
  | .python | .java => false

/-! ## Types -/

section

variable (dialect : Dialect) (direction : Direction) (member : Member)

mutual

/-- The text of a type of a member. -/
def typeText : ApiType → Except Fault String
  | type@{ name, union, args, returns, templates, .. } =>
    match union with
    | some union => do
      return dialect.unionText name member union (← keptTexts union)
    | none =>
      if type.isLiteral then .ok name
      else if type.isFunction then
        match dialect.callbackInterface? member with
        | some interface => .ok (bracketed interface)
        | none =>
          match dialect.arityFault? member (type.args.getD []).length with
          | some fault => .error fault
          | none => do
            let args ← if dialect.showsArguments then typeTexts? args else .ok []
            let result ← resultText? returns
            return dialect.functionText (", ".intercalate args) result type
      else do
        let text ← dialect.typeName direction member type
        let inner ← typeTexts? templates
        return text ++
          if templates.isSome then dialect.templateText (", ".intercalate inner) else ""

/-- The text of the result of a function, if it is shown. -/
def resultText? : Option ApiType → Except Fault (Option String)
  | none => .ok none
  | some type =>
    if dialect.showsResult type.name then do
      return some (← typeText type)
    else .ok none

/-- The texts of types, if there are any. -/
def typeTexts? : Option (List ApiType) → Except Fault (List String)
  | none => .ok []
  | some types => typeTexts types

/-- The texts of types. -/
def typeTexts : List ApiType → Except Fault (List String)
  | [] => .ok []
  | type :: types => do
    let text ← typeText type
    return text :: (← typeTexts types)

/-- The texts of the alternatives of a union that are rendered as types. -/
def keptTexts : List ApiType → Except Fault (List String)
  | [] => .ok []
  | type :: types =>
    if dialect.keeps type then do
      let text ← typeText type
      return text :: (← keptTexts types)
    else keptTexts types

end

end

end Dialect

end RefPages
