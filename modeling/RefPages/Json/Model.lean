/-
The model as a JSON value. What is absent has no field, and neither has an empty comment.
-/
import RefPages.Api.Class
import RefPages.Json.Value

namespace RefPages

open Markup

/-! ## Comments -/

/-- The word for the marker of a list item. -/
def Markup.Marker.word : Marker → String
  | .dash => "default"
  | .star => "bullet"
  | .number => "ordinal"

mutual

/-- A node of a comment as a JSON value. -/
def nodeJson : Node → JsonValue
  | .heading level text children =>
    .object [("type", .string "heading"), ("level", .number level), ("text", .string text),
      ("children", .array (nodesJson children))]
  | .item marker text children =>
    .object [("type", .string "listItem"), ("style", .string marker.word), ("text", .string text),
      ("children", .array (nodesJson children))]
  | .code info lines =>
    .object [("type", .string "code"), ("lang", .string info), ("lines", .strings lines)]
  | .note kind text =>
    .object [("type", .string "note"), ("kind", .string kind), ("text", .string text)]
  | .properties lines => .object [("type", .string "properties"), ("lines", .strings lines)]
  | .paragraph text => .object [("type", .string "text"), ("text", .string text)]

/-- The nodes of a comment as JSON values. -/
def nodesJson : List Node → List JsonValue
  | [] => []
  | node :: nodes => nodeJson node :: nodesJson nodes

end

/-- A comment as a JSON value, if it is not empty. -/
def docsJson? (docs : List Node) : Option JsonValue :=
  if docs.isEmpty then none else some (.array (nodesJson docs))

/-! ## Types and members -/

mutual

/-- A type as a JSON value. -/
def ApiType.json : ApiType → JsonValue
  | { name, properties, union, args, returns, templates, expression } =>
    .present [("name", some (.string name)), ("properties", membersJson? properties),
      ("union", typesJson? union), ("args", typesJson? args), ("returnType", typeJson? returns),
      ("templates", typesJson? templates), ("expression", expression.map .string)]

/-- A type, if there is one, as a JSON value. -/
def typeJson? : Option ApiType → Option JsonValue
  | none => none
  | some type => some type.json

/-- Types, if there are any, as a JSON value. -/
def typesJson? : Option (List ApiType) → Option JsonValue
  | none => none
  | some types => some (.array (typesJson types))

/-- Types as JSON values. -/
def typesJson : List ApiType → List JsonValue
  | [] => []
  | type :: types => type.json :: typesJson types

/-- Properties, if there are any, as a JSON value. -/
def membersJson? : Option (List Member) → Option JsonValue
  | none => none
  | some members => some (.array (membersJson members))

/-- Members as JSON values. -/
def membersJson : List Member → List JsonValue
  | [] => []
  | member :: members => member.json :: membersJson members

/-- A member as a JSON value. -/
def Member.json : Member → JsonValue
  | member@{ type, args, .. } =>
    .present [("kind", some (.string member.kind.word)), ("name", some (.string member.name)),
      ("alias", some (.string member.label)),
      ("overloadIndex", some (.number member.overloadIndex)), ("type", typeJson? type),
      ("args", some (.array (membersJson args))), ("docs", docsJson? member.docs),
      ("required", some (.bool member.required)), ("async", some (.bool member.isAsync)),
      ("deprecated", some (.bool member.deprecated)),
      ("experimental", some (.bool member.experimental)), ("since", member.since.map .string),
      ("className", some (.string member.className)),
      ("enclosingMethod", member.enclosingMethod.map .string),
      ("inheritedFrom", member.inheritedFrom.map .string),
      ("overloadOf", member.overloadOf.map .string)]

end

/-! ## Classes and findings -/

/-- A class as a JSON value. -/
def ApiClass.json (cls : ApiClass) : JsonValue :=
  .present [("name", some (.string cls.name)), ("alias", some (.string cls.label)),
    ("extends", cls.superclass.map .string), ("experimental", some (.bool cls.experimental)),
    ("since", cls.since.map .string), ("docs", docsJson? cls.docs),
    ("members", some (.array (membersJson cls.members)))]

/-- The model as a JSON text. -/
def Model.jsonText (model : Model) : String :=
  (JsonValue.array (model.classes.map ApiClass.json)).pretty

/-- A finding as a JSON value. -/
def Diagnostic.json (finding : Diagnostic) : JsonValue :=
  .object [("severity", .string finding.severity.word), ("location", .string finding.location),
    ("message", .string finding.message)]

end RefPages
