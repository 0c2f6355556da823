/-
Options whose type is a union of unrelated types, for a language that cannot express one: such
an option becomes one option for each alternative, named after it.
-/
import RefPages.Api.Class

namespace RefPages

/-- How alternatives of a type become options. -/
inductive OverloadStyle where
  /-- One option for each alternative. -/
  | separate
  /-- One option that shows the names for all alternatives. -/
  | joined
  deriving DecidableEq, Repr

namespace Member

/-- What the name of an option is extended by for an alternative. -/
def overloadSuffix (option : String) (alternative : ApiType) : Except Fault String :=
  match alternative.name with
  | "string" => .ok "String"
  | "RegExp" => .ok "Regex"
  | "function" => .ok "Func"
  | "Buffer" => .ok "Byte"
  | "Object" | "Serializable" => .ok "Object"
  | other => .error (.unsupportedOverload option other)

/-- The option for one alternative. -/
def overload (option : Member) (alternative : ApiType) (suffix : String) : Member :=
  { option with
    name := option.name ++ suffix
    label := option.label ++ suffix
    type := some alternative
    overloadOf := some option.name }

/-- The alternatives other than null of an option that has to become several. -/
def alternatives? (option : Member) : Option (List ApiType) :=
  match option.type with
  | some type => if type.isMixedUnion then type.union.map (·.filter (·.name ≠ "null")) else none
  | none => none

/-- What becomes of an option. -/
def expandOption (style : OverloadStyle) (option : Member) : Except Fault (List Member) :=
  match option.alternatives? with
  | none => .ok [option]
  | some alternatives => do
    let suffixes ← alternatives.mapM (overloadSuffix option.name)
    match style with
    | .joined =>
      return [{ option with label := "|".intercalate (suffixes.map (option.label ++ ·)) }]
    | .separate => return List.zipWith option.overload alternatives suffixes

/-- What becomes of a list of options. -/
def expandOptions (style : OverloadStyle) (options : List Member) : Except Fault (List Member) := do
  return (← options.mapM (expandOption style)).flatten

/-- The options of the first argument that is named so. -/
def firstOptions? (args : List Member) : Option (List Member) :=
  ((args.find? (·.name = "options")).bind (·.type)).bind (·.properties)

/-- The arguments with other options in the first argument that is named so. -/
def withOptions (options : List Member) : List Member → List Member
  | [] => []
  | arg :: args =>
    if arg.name = "options" then
      { arg with type := arg.type.map ({ · with properties := some options }) } :: args
    else arg :: withOptions options args

/-- The method with its options expanded. -/
def expandOverloads (style : OverloadStyle) (method : Member) : Except Fault Member :=
  match firstOptions? method.args with
  | none => .ok method
  | some options => do
    let options ← expandOptions style options
    return relink { method with args := withOptions options method.args }

end Member

end RefPages
