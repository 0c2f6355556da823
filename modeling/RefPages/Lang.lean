/-
The languages that reference pages are written for, the names sources call them by, and values
given per language.
-/

namespace RefPages

/-- A language that reference pages are written for. -/
inductive Lang where
  | js
  | python
  | java
  | csharp
  deriving DecidableEq, Repr

namespace Lang

/-- Every language, in the order in which pages are written. -/
def all : List Lang := [.js, .python, .java, .csharp]

/-- The name of the language in paths and messages. -/
def name : Lang → String
  | .js => "js"
  | .python => "python"
  | .java => "java"
  | .csharp => "csharp"

/-- The language that a source calls by this name; the info words of code fences count too. -/
def ofName? (name : String) : Option Lang :=
  if ["js", "ts", "javascript", "typescript"].contains name then some .js
  else if ["python", "py"].contains name then some .python
  else if name = "java" then some .java
  else if ["csharp", "cs", "c#"].contains name then some .csharp
  else none

theorem ofName?_name (lang : Lang) : ofName? lang.name = some lang := by
  cases lang <;> decide

theorem mem_all (lang : Lang) : lang ∈ all := by cases lang <;> decide

end Lang

/-- At most one value for each language. -/
structure PerLang (α : Type) where
  js : Option α
  python : Option α
  java : Option α
  csharp : Option α
  deriving DecidableEq, Repr

namespace PerLang

/-- No value for any language. -/
def empty {α : Type} : PerLang α := ⟨none, none, none, none⟩

/-- The value for a language. -/
def get? {α : Type} (values : PerLang α) : Lang → Option α
  | .js => values.js
  | .python => values.python
  | .java => values.java
  | .csharp => values.csharp

/-- The values with the one for a language replaced. -/
def insert {α : Type} (values : PerLang α) (lang : Lang) (value : α) : PerLang α :=
  match lang with
  | .js => { values with js := some value }
  | .python => { values with python := some value }
  | .java => { values with java := some value }
  | .csharp => { values with csharp := some value }

@[simp] theorem get?_empty {α : Type} (lang : Lang) : (empty : PerLang α).get? lang = none := by
  cases lang <;> rfl

theorem get?_insert {α : Type} (values : PerLang α) (lang other : Lang) (value : α) :
    (values.insert lang value).get? other = if other = lang then some value else values.get? other := by
  cases lang <;> cases other <;> rfl

end PerLang

end RefPages
