/-
Types without a text. Java and C# refuse a name that they have no counterpart for and a function with too
many arguments, and with it every type whose text is made from its text. Nothing else is refused, and
nothing at all in JavaScript and Python.
-/
import RefPages.Dialect.TypeText
import RefPages.Proofs.Api.Holds
import RefPages.Proofs.Fallible

namespace RefPages

open Relation

/-! ## What is refused -/

namespace ApiType

/-- The type is written by its name: it is no union, no literal and no function. -/
structure IsNamed (type : ApiType) : Prop where
  single : type.union = none
  plain : type.isLiteral = false
  value : type.isFunction = false

/-- The type is written as a function. -/
structure IsCallback (type : ApiType) : Prop where
  single : type.union = none
  function : type.isFunction = true

theorem IsCallback.isLiteral {type : ApiType} (h : type.IsCallback) : type.isLiteral = false := by
  have hname : type.name = "function" := of_decide_eq_true h.function
  rw [ApiType.isLiteral, hname]
  decide

/-- What is in a type is smaller than it. -/
theorem sizeOf_nests {type inner : ApiType} (h : type.Nests inner) : sizeOf inner < sizeOf type := by
  have hlist : ∀ {types : Option (List ApiType)}, inner ∈ types.getD [] → sizeOf inner < sizeOf types := by
    intro types hmem
    cases types with
    | none => cases hmem
    | some all =>
      have hsize := List.sizeOf_lt_of_mem hmem
      simp only [Option.getD_some] at hsize
      simp only [Option.some.sizeOf_spec]
      omega
  obtain ⟨name, properties, union, args, returns, templates, expression⟩ := type
  rw [ApiType.mk.sizeOf_spec]
  rcases h with (h | h | h) | h
  · have := hlist h
    dsimp only at this
    omega
  · have := hlist h
    dsimp only at this
    omega
  · have := hlist h
    dsimp only at this
    omega
  · cases h
    simp only [Option.some.sizeOf_spec]
    omega

end ApiType

namespace Dialect

section

variable (dialect : Dialect) (member : Member)

/-- The name of a type has a counterpart: it is mapped, an object, a name of the language itself or that
of a class. JavaScript and Python take every name. -/
def Takes (name : String) : Prop :=
  match dialect.lang with
  | .js | .python => True
  | .java => name ∈ javaNames.map (·.1) ∨ name = "Object" ∨ name ∈ javaOwn ∨ name ∈ dialect.known
  | .csharp => name ∈ csharpNames.map (·.1) ∨ name = "Object" ∨ name ∈ csharpOwn ∨ name ∈ dialect.known

instance (dialect : Dialect) (name : String) : Decidable (dialect.Takes name) :=
  match dialect with
  | ⟨.js, _⟩ | ⟨.python, _⟩ => inferInstanceAs (Decidable True)
  | ⟨.java, _⟩ | ⟨.csharp, _⟩ => inferInstanceAs (Decidable (_ ∨ _ ∨ _ ∨ _))

/-- The language refuses the type itself, whatever it is made from. -/
inductive Refuses (type : ApiType) : Fault → Prop
  | unmapped (hname : type.IsNamed) (htaken : ¬dialect.Takes type.name) :
    Refuses type (.unmappedType type.name dialect.lang)
  | arityJava (hlang : dialect.lang = .java) (hfunction : type.IsCallback)
    (hown : callbackKey member ∉ callbackInterfaces.map (·.1)) (hmany : 1 < (type.args.getD []).length) :
    Refuses type (.unsupportedArity .java (type.args.getD []).length (callbackKey member))
  | arityCsharp (hlang : dialect.lang = .csharp) (hfunction : type.IsCallback)
    (hmany : 3 < (type.args.getD []).length) :
    Refuses type (.unsupportedArity .csharp (type.args.getD []).length member.qualifiedName)

/-- The text of the type is made from that of the inner one: an alternative other than null and literals, a
parameter of a name, an argument of a function, or in C# its result. A callback that has an interface of its
own in Java is not looked into. -/
inductive Visits (type inner : ApiType) : Prop
  | alternative {union : List ApiType} (hunion : type.union = some union) (hmem : inner ∈ union)
    (hnull : inner.name ≠ "null") (hliteral : inner.isLiteral = false)
  | parameter {templates : List ApiType} (hname : type.IsNamed) (htemplates : type.templates = some templates)
    (hmem : inner ∈ templates)
  | onlyArgument (hlang : dialect.lang = .java) (hfunction : type.IsCallback)
    (hown : callbackKey member ∉ callbackInterfaces.map (·.1)) (hargs : type.args = some [inner])
  | argument {args : List ApiType} (hlang : dialect.lang = .csharp) (hfunction : type.IsCallback)
    (hargs : type.args = some args) (hmem : inner ∈ args)
  | result (hlang : dialect.lang = .csharp) (hfunction : type.IsCallback) (hreturns : type.returns = some inner)
    (hvoid : inner.name ≠ "void")

/-- A type that is refused with this fault is reached from this one. -/
def Refused (type : ApiType) (fault : Fault) : Prop :=
  ∃ inner, ReflTransGen (dialect.Visits member) type inner ∧ dialect.Refuses member inner fault

end

section

variable {dialect : Dialect} {direction : Direction} {member : Member}

theorem Refused.here {type : ApiType} {fault : Fault} (h : dialect.Refuses member type fault) :
    dialect.Refused member type fault := ⟨type, .refl, h⟩

theorem Refused.visited {type inner : ApiType} {fault : Fault} (hvisits : dialect.Visits member type inner)
    (h : dialect.Refused member inner fault) : dialect.Refused member type fault := by
  obtain ⟨refused, hpath, hrefuses⟩ := h
  exact ⟨refused, .head hvisits hpath, hrefuses⟩

/-- Only Java and C# refuse a type. -/
theorem Refused.lang {type : ApiType} {fault : Fault} (h : dialect.Refused member type fault) :
    dialect.lang = .java ∨ dialect.lang = .csharp := by
  obtain ⟨inner, -, hrefuses⟩ := h
  cases hrefuses with
  | unmapped _ htaken =>
    unfold Takes at htaken
    cases hlang : dialect.lang with
    | js => simp [hlang] at htaken
    | python => simp [hlang] at htaken
    | java => exact .inl rfl
    | csharp => exact .inr rfl
  | arityJava hlang => exact .inl hlang
  | arityCsharp hlang => exact .inr hlang

/-! ## Names -/

theorem lookup_isNone_iff {names : List (String × String)} {name : String} :
    names.lookup name = none ↔ name ∉ names.map (·.1) := by
  simp only [List.lookup_eq_none_iff, List.mem_map, bne_iff_ne, not_exists, not_and]
  exact forall₂_congr fun _ _ => ne_comm

theorem strictName_eq_error {names : List (String × String)} {own : List String} {map plain : String}
    {type : ApiType} {fault : Fault} :
    dialect.strictName names own map plain type member = .error fault ↔
      ¬(type.name ∈ names.map (·.1) ∨ type.name = "Object" ∨ type.name ∈ own ∨ type.name ∈ dialect.known) ∧
        fault = .unmappedType type.name dialect.lang := by
  unfold strictName
  by_cases hmapped : type.name ∈ names.map (·.1)
  · obtain ⟨other, hother⟩ := Option.ne_none_iff_exists'.1 fun hnone => lookup_isNone_iff.1 hnone hmapped
    simp [hother, hmapped]
  · simp only [lookup_isNone_iff.2 hmapped]
    by_cases hobject : type.name = "Object"
    · simp [hobject]
    · by_cases hown : type.name ∈ own ∨ type.name ∈ dialect.known
      · simp [hobject, hown]
      · simp only [not_or] at hown
        simp [hmapped, hobject, hown.1, hown.2, eq_comm]

theorem typeName_eq_error {type : ApiType} {fault : Fault} :
    dialect.typeName direction member type = .error fault ↔
      ¬dialect.Takes type.name ∧ fault = .unmappedType type.name dialect.lang := by
  unfold typeName Takes
  cases hlang : dialect.lang with
  | js => simp
  | python => simp
  | java => simp only [strictName_eq_error, hlang]
  | csharp => simp only [strictName_eq_error, hlang]

/-! ## The text of a type -/

/-- What the text of a type is made from: alternatives, or a literal, or the arguments and the result of a
function, or a name and its parameters. -/
theorem typeText_union {type : ApiType} {union : List ApiType} (hunion : type.union = some union) :
    dialect.typeText direction member type = do
      return dialect.unionText type.name member union (← dialect.keptTexts direction member union) := by
  obtain ⟨name, properties, union, args, returns, templates, expression⟩ := type
  cases hunion
  rw [typeText]

theorem typeText_literal {type : ApiType} (hunion : type.union = none) (hliteral : type.isLiteral = true) :
    dialect.typeText direction member type = .ok type.name := by
  obtain ⟨name, properties, union, args, returns, templates, expression⟩ := type
  cases hunion
  rw [typeText]
  exact if_pos hliteral

theorem typeText_named {type : ApiType} (h : type.IsNamed) :
    dialect.typeText direction member type = do
      let text ← dialect.typeName direction member type
      let inner ← dialect.typeTexts? direction member type.templates
      return text ++
        if type.templates.isSome then dialect.templateText (", ".intercalate inner) else "" := by
  obtain ⟨name, properties, union, args, returns, templates, expression⟩ := type
  obtain ⟨rfl, hliteral, hfunction⟩ := h
  rw [typeText]
  simp [hliteral, hfunction]

theorem typeText_callback {type : ApiType} (h : type.IsCallback) :
    dialect.typeText direction member type =
      match dialect.callbackInterface? member with
      | some interface => .ok (bracketed interface)
      | none =>
        match dialect.arityFault? member (type.args.getD []).length with
        | some fault => .error fault
        | none =>
          (if dialect.showsArguments then dialect.typeTexts? direction member type.args else .ok []) >>= fun args =>
            dialect.resultText? direction member type.returns >>= fun result =>
              .ok (dialect.functionText (", ".intercalate args) result type) := by
  have hliteral := h.isLiteral
  obtain ⟨name, properties, union, args, returns, templates, expression⟩ := type
  obtain ⟨rfl, hfunction⟩ := h
  rw [typeText]
  simp only [hliteral, hfunction, Bool.false_eq_true, if_false, if_true]
  cases dialect.showsArguments <;> rfl

theorem callbackInterface?_eq_none (hown : dialect.lang = .java → callbackKey member ∉ callbackInterfaces.map (·.1)) :
    dialect.callbackInterface? member = none := by
  unfold callbackInterface?
  split
  · rename_i hlang
    exact lookup_isNone_iff.2 (hown hlang)
  · rfl

theorem arityFault?_eq_some {arity : Nat} {fault : Fault} :
    dialect.arityFault? member arity = some fault ↔
      (dialect.lang = .java ∧ 1 < arity ∧ fault = .unsupportedArity .java arity (callbackKey member)) ∨
        dialect.lang = .csharp ∧ 3 < arity ∧ fault = .unsupportedArity .csharp arity member.qualifiedName := by
  unfold arityFault? maxArity?
  cases hlang : dialect.lang <;> simp [eq_comm]

/-- A refused type has no text, and the fault says why. -/
theorem typeText_of_refuses {type : ApiType} {fault : Fault} (h : dialect.Refuses member type fault) :
    dialect.typeText direction member type = .error fault := by
  cases h with
  | unmapped hname htaken =>
    rw [typeText_named hname, typeName_eq_error.2 ⟨htaken, rfl⟩]
    rfl
  | arityJava hlang hfunction hown hmany =>
    rw [typeText_callback hfunction, callbackInterface?_eq_none fun _ => hown]
    simp only [arityFault?_eq_some.2 (.inl ⟨hlang, hmany, rfl⟩)]
  | arityCsharp hlang hfunction hmany =>
    rw [typeText_callback hfunction, callbackInterface?_eq_none (by simp [hlang])]
    simp only [arityFault?_eq_some.2 (.inr ⟨hlang, hmany, rfl⟩)]

theorem typeTexts_eq_mapM (types : List ApiType) :
    dialect.typeTexts direction member types = types.mapM (dialect.typeText direction member) := by
  induction types with
  | nil => rw [typeTexts]; rfl
  | cons type types ih => rw [typeTexts, ih, List.mapM_cons]

theorem keptTexts_eq_mapM (types : List ApiType) :
    dialect.keptTexts direction member types =
      (types.filter dialect.keeps).mapM (dialect.typeText direction member) := by
  induction types with
  | nil => rw [keptTexts]; rfl
  | cons type types ih =>
    rw [keptTexts, ih]
    split
    · rename_i hkeeps
      rw [List.filter_cons_of_pos hkeeps, List.mapM_cons]
    · rename_i hkeeps
      rw [List.filter_cons_of_neg hkeeps]

theorem error_of_typeTexts? {types : Option (List ApiType)} {fault : Fault}
    (h : dialect.typeTexts? direction member types = .error fault) :
    ∃ all, types = some all ∧ ∃ type ∈ all, dialect.typeText direction member type = .error fault := by
  cases types with
  | none => cases h
  | some all =>
    rw [typeTexts?, typeTexts_eq_mapM] at h
    exact ⟨all, rfl, error_of_mapM h⟩

theorem typeTexts?_of_error {all : List ApiType} {type : ApiType} {fault : Fault} (hmem : type ∈ all)
    (h : dialect.typeText direction member type = .error fault) :
    ∃ first, dialect.typeTexts? direction member (some all) = .error first := by
  rw [typeTexts?, typeTexts_eq_mapM]
  exact mapM_error_of_mem hmem h

/-! ## One step -/

/-- The type is refused when one is that its text is made from. -/
theorem typeText_of_visits {type inner : ApiType} {fault : Fault} (hvisits : dialect.Visits member type inner)
    (h : dialect.typeText direction member inner = .error fault) :
    ∃ first, dialect.typeText direction member type = .error first := by
  -- an argument or a result comes after the check of the arity, which may be what fails first
  have hcallback : type.IsCallback → dialect.callbackInterface? member = none → dialect.showsArguments = true →
      ((∃ first, dialect.typeTexts? direction member type.args = .error first) ∨
        ∃ first, dialect.resultText? direction member type.returns = .error first) →
      ∃ first, dialect.typeText direction member type = .error first := by
    intro hfunction hown hshows hfails
    rw [typeText_callback hfunction, hown, if_pos hshows]
    dsimp only
    cases dialect.arityFault? member (type.args.getD []).length with
    | some first => exact ⟨first, rfl⟩
    | none =>
      cases hargs : dialect.typeTexts? direction member type.args with
      | error first => exact ⟨first, rfl⟩
      | ok args =>
        rw [hargs] at hfails
        obtain ⟨first, hfirst⟩ := hfails.resolve_left nofun
        rw [hfirst]
        exact ⟨first, rfl⟩
  cases hvisits with
  | @alternative union hunion hmem hnull hliteral =>
    have hkeeps : dialect.keeps inner = true := by simp [keeps, hnull, hliteral]
    obtain ⟨first, hfirst⟩ := mapM_error_of_mem (List.mem_filter.2 ⟨hmem, hkeeps⟩) h
    rw [typeText_union hunion, keptTexts_eq_mapM, hfirst]
    exact ⟨first, rfl⟩
  | @parameter templates hname htemplates hmem =>
    obtain ⟨first, hfirst⟩ := typeTexts?_of_error hmem h
    rw [typeText_named hname, htemplates, hfirst]
    cases dialect.typeName direction member type with
    | error own => exact ⟨own, rfl⟩
    | ok text => exact ⟨first, rfl⟩
  | onlyArgument hlang hfunction hown hargs =>
    refine hcallback hfunction (callbackInterface?_eq_none fun _ => hown) (by simp [showsArguments, hlang]) (.inl ?_)
    rw [hargs]
    exact typeTexts?_of_error (List.mem_singleton_self inner) h
  | argument hlang hfunction hargs hmem =>
    refine hcallback hfunction (callbackInterface?_eq_none (by simp [hlang])) (by simp [showsArguments, hlang])
      (.inl ?_)
    rw [hargs]
    exact typeTexts?_of_error hmem h
  | result hlang hfunction hreturns hvoid =>
    refine hcallback hfunction (callbackInterface?_eq_none (by simp [hlang])) (by simp [showsArguments, hlang])
      (.inr ?_)
    rw [hreturns, resultText?, if_pos (by simp [showsResult, hlang, hvoid]), h]
    exact ⟨fault, rfl⟩

/-- A function is refused for its arity, or for an argument or a result that is shown. -/
theorem callback_refuses_or_visits {type : ApiType} {fault : Fault} (hfunction : type.IsCallback)
    (h : dialect.typeText direction member type = .error fault) :
    dialect.Refuses member type fault ∨ ∃ inner, type.Nests inner ∧
      dialect.typeText direction member inner = .error fault ∧
        (dialect.lang = .java ∨ dialect.lang = .csharp → dialect.Visits member type inner) := by
  rw [typeText_callback hfunction] at h
  split at h
  · cases h
  · rename_i hown
    have hown : dialect.lang = .java → callbackKey member ∉ callbackInterfaces.map (·.1) := fun hlang => by
      rwa [callbackInterface?, if_pos hlang, lookup_isNone_iff] at hown
    split at h
    · rename_i first harity
      cases h
      rcases arityFault?_eq_some.1 harity with ⟨hlang, hmany, rfl⟩ | ⟨hlang, hmany, rfl⟩
      · exact .inl (.arityJava hlang hfunction (hown hlang) hmany)
      · exact .inl (.arityCsharp hlang hfunction hmany)
    · rename_i harity
      rcases bind_eq_error.1 h with h | ⟨args, -, h⟩
      · split at h
        · obtain ⟨all, hargs, inner, hmem, hfault⟩ := error_of_typeTexts? h
          refine .inr ⟨inner, .inl (.inr (.inl (by rwa [hargs]))), hfault, ?_⟩
          rintro (hlang | hlang)
          · -- there are not two arguments, and this is one
            have hfew : ¬1 < all.length := fun hmany => by
              have hsome : dialect.arityFault? member all.length =
                  some (.unsupportedArity .java all.length (callbackKey member)) :=
                arityFault?_eq_some.2 (.inl ⟨hlang, hmany, rfl⟩)
              rw [hargs, Option.getD_some, hsome] at harity
              cases harity
            obtain ⟨one, rfl⟩ := List.length_eq_one_iff.1
              (Nat.le_antisymm (Nat.le_of_not_lt hfew) (List.length_pos_of_mem hmem))
            rw [List.mem_singleton] at hmem
            exact .onlyArgument hlang hfunction (hown hlang) (hmem ▸ hargs)
          · exact .argument hlang hfunction hargs hmem
        · cases h
      · have hresult := bind_pure_eq_error.1 h
        cases hreturns : type.returns with
        | none =>
          rw [hreturns] at hresult
          cases hresult
        | some inner =>
          rw [hreturns, resultText?] at hresult
          split at hresult
          · rename_i hshows
            refine .inr ⟨inner, .inr hreturns, bind_pure_eq_error.1 hresult, ?_⟩
            rintro (hlang | hlang)
            · simp [showsResult, hlang] at hshows
            · exact .result hlang hfunction hreturns (by simpa [showsResult, hlang] using hshows)
          · cases hresult

/-- Behind every fault is the type itself or one that its text is made from. -/
theorem refuses_or_visits {type : ApiType} {fault : Fault}
    (h : dialect.typeText direction member type = .error fault) :
    dialect.Refuses member type fault ∨ ∃ inner, type.Nests inner ∧
      dialect.typeText direction member inner = .error fault ∧
        (dialect.lang = .java ∨ dialect.lang = .csharp → dialect.Visits member type inner) := by
  cases hunion : type.union with
  | some union =>
    rw [typeText_union hunion, keptTexts_eq_mapM] at h
    obtain ⟨inner, hinner, hfault⟩ := error_of_mapM (bind_pure_eq_error.1 h)
    obtain ⟨hmem, hkeeps⟩ := List.mem_filter.1 hinner
    refine .inr ⟨inner, .inl (.inl (by rwa [hunion])), hfault, fun hlang => ?_⟩
    have hparts : inner.isLiteral = false ∧ inner.name ≠ "null" := by
      rcases hlang with hlang | hlang <;> simpa [keeps, hasEnums, hlang] using hkeeps
    exact .alternative hunion hmem hparts.2 hparts.1
  | none =>
    by_cases hfunction : type.isFunction = true
    · exact callback_refuses_or_visits ⟨hunion, hfunction⟩ h
    · by_cases hliteral : type.isLiteral = true
      · rw [typeText_literal hunion hliteral] at h
        cases h
      · have hname : type.IsNamed := ⟨hunion, by simpa using hliteral, by simpa using hfunction⟩
        rw [typeText_named hname] at h
        rcases bind_eq_error.1 h with h | ⟨text, -, h⟩
        · obtain ⟨htaken, rfl⟩ := typeName_eq_error.1 h
          exact .inl (.unmapped hname htaken)
        · obtain ⟨templates, htemplates, inner, hmem, hfault⟩ :=
            error_of_typeTexts? (bind_pure_eq_error.1 h)
          exact .inr ⟨inner, .inl (.inr (.inr (by rwa [htemplates]))), hfault,
            fun _ => .parameter hname htemplates hmem⟩

/-! ## All steps -/

/-- Every fault is that of a refused type. -/
theorem refused_of_typeText {type : ApiType} {fault : Fault}
    (h : dialect.typeText direction member type = .error fault) : dialect.Refused member type fault := by
  induction hsize : sizeOf type using Nat.strong_induction_on generalizing type with
  | _ size ih =>
    subst hsize
    rcases refuses_or_visits h with hrefuses | ⟨inner, hinner, hfault, hvisits⟩
    · exact .here hrefuses
    · have hrefused := ih (sizeOf inner) (ApiType.sizeOf_nests hinner) hfault rfl
      exact hrefused.visited (hvisits hrefused.lang)

theorem typeText_of_refused {type : ApiType} {fault : Fault} (h : dialect.Refused member type fault) :
    ∃ first, dialect.typeText direction member type = .error first := by
  obtain ⟨inner, hpath, hrefuses⟩ := h
  induction hpath using ReflTransGen.head_induction_on with
  | refl => exact ⟨fault, typeText_of_refuses hrefuses⟩
  | head hvisits _ ih =>
    obtain ⟨first, hfirst⟩ := ih
    exact typeText_of_visits hvisits hfirst

end

/-- JavaScript and Python have a text for every type. In any language a type has none exactly when a refused
type is reached from it, and the fault is that of such a type. -/
theorem typeText_fails_iff (dialect : Dialect) (direction : Direction) (member : Member) (type : ApiType) :
    (dialect.lang = .js ∨ dialect.lang = .python → ∃ text, dialect.typeText direction member type = .ok text) ∧
      ((∃ fault, dialect.typeText direction member type = .error fault) ↔ ∃ fault, dialect.Refused member type fault) ∧
      ∀ fault, dialect.typeText direction member type = .error fault → dialect.Refused member type fault := by
  refine ⟨fun hlang => ?_, ⟨?_, ?_⟩, fun fault => refused_of_typeText⟩
  · cases htext : dialect.typeText direction member type with
    | ok text => exact ⟨text, rfl⟩
    | error fault =>
      have hstrict := (refused_of_typeText htext).lang
      rcases hlang with hlang | hlang <;> simp [hlang] at hstrict
  · rintro ⟨fault, h⟩
    exact ⟨fault, refused_of_typeText h⟩
  · rintro ⟨fault, h⟩
    exact typeText_of_refused h

/-- A callback whose second argument is nothing, a literal or a list of something that is no class. -/
def handlerOfMissing : ApiType :=
  { ApiType.plain "function" with
    args := some [ApiType.plain "Page", ApiType.ofAlternatives "" [ApiType.plain "null", ApiType.plain "\"all\"",
      { ApiType.plain "Array" with templates := some [ApiType.plain "Missing"] }]]
    returns := some (ApiType.plain "void") }

/-- The callback has a text in JavaScript. In C# it has none, for the class that is missing. -/
theorem typeText_fails_iff_handler :
    (∃ text, (⟨.js, ["Page"]⟩ : Dialect).typeText .input (Member.property "handler" handlerOfMissing true)
        handlerOfMissing = .ok text) ∧
      (⟨.csharp, ["Page"]⟩ : Dialect).Refused (Member.property "handler" handlerOfMissing true) handlerOfMissing
        (.unmappedType "Missing" .csharp) ∧
      ∃ fault, (⟨.csharp, ["Page"]⟩ : Dialect).typeText .input (Member.property "handler" handlerOfMissing true)
        handlerOfMissing = .error fault := by
  have hmissing : (⟨.csharp, ["Page"]⟩ : Dialect).Refuses (Member.property "handler" handlerOfMissing true)
      (ApiType.plain "Missing") (.unmappedType "Missing" .csharp) :=
    .unmapped ⟨rfl, by decide, by decide⟩ (by decide)
  have hrefused : (⟨.csharp, ["Page"]⟩ : Dialect).Refused (Member.property "handler" handlerOfMissing true)
      handlerOfMissing (.unmappedType "Missing" .csharp) := by
    refine .visited (.argument rfl ⟨rfl, by decide⟩ rfl (List.mem_cons_of_mem _ List.mem_cons_self)) ?_
    refine .visited (.alternative rfl (List.mem_cons_of_mem _ (List.mem_cons_of_mem _ List.mem_cons_self))
      (by decide) (by decide)) ?_
    refine .visited (.parameter ⟨rfl, by decide, by decide⟩ rfl List.mem_cons_self) ?_
    exact .here hmissing
  have hjs :=
    typeText_fails_iff ⟨.js, ["Page"]⟩ .input (Member.property "handler" handlerOfMissing true) handlerOfMissing
  have hcsharp :=
    typeText_fails_iff ⟨.csharp, ["Page"]⟩ .input (Member.property "handler" handlerOfMissing true) handlerOfMissing
  exact ⟨hjs.1 (.inl rfl), hrefused, hcsharp.2.1.2 ⟨_, hrefused⟩⟩

end Dialect

end RefPages
