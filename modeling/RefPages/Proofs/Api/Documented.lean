/-
Documented properties of a type. Giving them to objects, telling whether there is one, and looking for the
first properties are three walks through a type, which come by the same places: alternatives, arguments,
parameters and results. A type with documented properties is compared with the same type without them place by
place.
-/
import RefPages.Api.Equality
import RefPages.Proofs.Api.Carries

namespace RefPages

namespace ApiType

/-! ## Places -/

/-- A place directly in a type. -/
inductive Place where
  | alternative (n : Nat)
  | argument (n : Nat)
  | parameter (n : Nat)
  | result

/-- The type at a place directly in this one. -/
def part? (type : ApiType) : Place → Option ApiType
  | .alternative n => type.union.bind (·[n]?)
  | .argument n => type.args.bind (·[n]?)
  | .parameter n => type.templates.bind (·[n]?)
  | .result => type.returns

/-- The type that is reached from this one by one place after another. -/
def at? (type : ApiType) : List Place → Option ApiType
  | [] => some type
  | place :: path => (type.part? place).bind (at? · path)

/-- An object is reached from the type. -/
def ReachesObject (type : ApiType) : Prop := ∃ path inner, type.at? path = some inner ∧ inner.name = "Object"

/-- The second type is, without what is in its places, the first with documented properties. -/
structure SameBut (documented : List Member) (bare type : ApiType) : Prop where
  name : type.name = bare.name
  expression : type.expression = bare.expression
  union : type.union.map List.length = bare.union.map List.length
  args : type.args.map List.length = bare.args.map List.length
  templates : type.templates.map List.length = bare.templates.map List.length
  returns : type.returns.isSome = bare.returns.isSome
  properties : type.properties = if bare.name = "Object" then some documented else bare.properties

/-- The second type is the first with documented properties: the same is reached by the same places, but for
the properties of objects. -/
def DocumentedAs (documented : List Member) (bare type : ApiType) : Prop :=
  ∀ path, Option.Rel (SameBut documented) (bare.at? path) (type.at? path)

section

variable {documented : List Member}

theorem part?_attach (type : ApiType) (place : Place) :
    (type.attach documented).part? place = (type.part? place).map (attach documented) := by
  have hall : ∀ (types : Option (List ApiType)) (n : Nat),
      (attachAll? documented types).bind (·[n]?) = (types.bind (·[n]?)).map (attach documented) := fun types n => by
    cases types with
    | none => rfl
    | some types => simp [attachAll?, attachAll_eq]
  obtain ⟨name, properties, union, args, returns, templates, expression⟩ := type
  rw [attach]
  cases place with
  | alternative n => exact hall union n
  | argument n => exact hall args n
  | parameter n => exact hall templates n
  | result => cases returns <;> rfl

theorem at?_attach (type : ApiType) (path : List Place) :
    (type.attach documented).at? path = (type.at? path).map (attach documented) := by
  induction path generalizing type with
  | nil => rfl
  | cons place path ih =>
    rw [at?, at?, part?_attach]
    cases type.part? place with
    | none => rfl
    | some inner => exact ih inner

theorem sameBut_attach (type : ApiType) : SameBut documented type (type.attach documented) := by
  have hlength : ∀ types : Option (List ApiType),
      (attachAll? documented types).map List.length = types.map List.length := fun types => by
    cases types with
    | none => rfl
    | some types => simp [attachAll?, attachAll_eq]
  obtain ⟨name, properties, union, args, returns, templates, expression⟩ := type
  rw [attach]
  exact ⟨rfl, rfl, hlength union, hlength args, hlength templates, by cases returns <;> rfl, rfl⟩

theorem documentedAs_attach (type : ApiType) : DocumentedAs documented type (type.attach documented) := by
  intro path
  rw [at?_attach]
  cases type.at? path with
  | none => exact .none
  | some inner => exact .some (sameBut_attach inner)

/-! ## Objects -/

mutual

theorem reachesObject_of_hasObject : ∀ type : ApiType, type.hasObject = true → type.ReachesObject
  | ⟨name, properties, union, args, returns, templates, expression⟩, h => by
    rw [hasObject] at h
    simp only [Bool.or_eq_true, decide_eq_true_eq] at h
    rcases h with (((hname | hunion) | hargs) | htemplates) | hreturns
    · exact ⟨[], _, rfl, hname⟩
    · obtain ⟨n, type, htype, path, inner, hinner, hname⟩ := exists_of_anyObject? union hunion
      exact ⟨.alternative n :: path, inner, by rw [at?, part?, htype]; exact hinner, hname⟩
    · obtain ⟨n, type, htype, path, inner, hinner, hname⟩ := exists_of_anyObject? args hargs
      exact ⟨.argument n :: path, inner, by rw [at?, part?, htype]; exact hinner, hname⟩
    · obtain ⟨n, type, htype, path, inner, hinner, hname⟩ := exists_of_anyObject? templates htemplates
      exact ⟨.parameter n :: path, inner, by rw [at?, part?, htype]; exact hinner, hname⟩
    · obtain ⟨type, htype, path, inner, hinner, hname⟩ := exists_of_hasObject? returns hreturns
      exact ⟨.result :: path, inner, by rw [at?, part?, htype]; exact hinner, hname⟩

theorem exists_of_hasObject? : ∀ type? : Option ApiType, hasObject? type? = true →
    ∃ type, type? = some type ∧ type.ReachesObject
  | some type, h => ⟨type, rfl, reachesObject_of_hasObject type h⟩

theorem exists_of_anyObject? : ∀ types? : Option (List ApiType), anyObject? types? = true →
    ∃ (n : Nat) (type : ApiType), types?.bind (·[n]?) = some type ∧ type.ReachesObject
  | some types, h => exists_of_anyObject types h

theorem exists_of_anyObject : ∀ types : List ApiType, anyObject types = true →
    ∃ (n : Nat) (type : ApiType), types[n]? = some type ∧ type.ReachesObject
  | type :: types, h => by
    rw [anyObject, Bool.or_eq_true] at h
    rcases h with h | h
    · exact ⟨0, type, rfl, reachesObject_of_hasObject type h⟩
    · obtain ⟨n, inner, hinner, hreaches⟩ := exists_of_anyObject types h
      exact ⟨n + 1, inner, hinner, hreaches⟩

end

theorem anyObject_eq (types : List ApiType) : anyObject types = types.any hasObject := by
  induction types with
  | nil => rfl
  | cons type types ih => rw [anyObject, ih, List.any_cons]

/-- What has an object in a place has an object. -/
theorem hasObject_of_part? {type inner : ApiType} {place : Place} (hpart : type.part? place = some inner)
    (h : inner.hasObject = true) : type.hasObject = true := by
  have hany : ∀ {types : Option (List ApiType)} {n : Nat}, types.bind (·[n]?) = some inner →
      anyObject? types = true := by
    intro types n hfound
    obtain ⟨all, rfl, hmem⟩ := Option.bind_eq_some_iff.1 hfound
    rw [anyObject?, anyObject_eq]
    exact List.any_eq_true.2 ⟨inner, List.mem_of_getElem? hmem, h⟩
  obtain ⟨name, properties, union, args, returns, templates, expression⟩ := type
  rw [hasObject]
  cases place with
  | alternative n => simp [hany hpart]
  | argument n => simp [hany hpart]
  | parameter n => simp [hany hpart]
  | result =>
    obtain rfl : returns = some inner := hpart
    simp [hasObject?, h]

theorem hasObject_iff {type : ApiType} : type.hasObject = true ↔ type.ReachesObject := by
  refine ⟨reachesObject_of_hasObject type, ?_⟩
  rintro ⟨path, object, hobject, hname⟩
  induction path generalizing type with
  | nil =>
    obtain rfl : type = object := Option.some.inj hobject
    obtain ⟨name, properties, union, args, returns, templates, expression⟩ := type
    rw [hasObject]
    simp [show name = "Object" from hname]
  | cons place path ih =>
    obtain ⟨inner, hpart, hobject⟩ := Option.bind_eq_some_iff.1 hobject
    exact hasObject_of_part? hpart (ih hobject)

/-! ## The first properties -/

/-- The first properties that one of the types has. -/
def firstProperties? (types : List ApiType) : Option (List Member) :=
  (types.filterMap (·.properties)).find? (!·.isEmpty)

theorem firstProperties?_append (types others : List ApiType) :
    firstProperties? (types ++ others) = (firstProperties? types).or (firstProperties? others) := by
  rw [firstProperties?, List.filterMap_append, List.find?_append]
  rfl

/-- A type without properties of its own is passed over. -/
theorem firstProperties?_cons {type : ApiType} (h : type.Propertyless) (types : List ApiType) :
    firstProperties? (type :: types) = firstProperties? types := by
  unfold Propertyless at h
  unfold firstProperties?
  rw [List.filterMap_cons]
  cases hproperties : type.properties with
  | none => rfl
  | some properties =>
    rw [hproperties] at h
    obtain rfl : properties = [] := h
    rfl

theorem firstProperties?_object {type : ApiType} (hne : documented ≠ []) (h : type.properties = some documented)
    (types : List ApiType) : firstProperties? (type :: types) = some documented := by
  unfold firstProperties?
  rw [List.filterMap_cons, h]
  simp [hne]

/-- The one or the other holds, and either way the same is there. -/
theorem or_ite {α : Type} (a b : Bool) (value : α) :
    (if a then some value else none).or (if b then some value else none) = if a || b then some value else none := by
  cases a <;> cases b <;> rfl

mutual

/-- Whoever looks for the first properties in a type finds the documented ones, if there is an object. -/
theorem firstProperties?_attach (hne : documented ≠ []) : ∀ type : ApiType, Throughout Propertyless type →
    firstProperties? (type.attach documented).reach = if type.hasObject then some documented else none
  | ⟨name, properties, union, args, returns, templates, expression⟩, h => by
    rw [attach, reach, hasObject]
    by_cases hname : name = "Object"
    · rw [firstProperties?_object hne (if_pos hname)]
      simp [hname]
    · have hhere : (properties.getD [] : List Member) = [] := h.here
      have hnone : reachProperties? properties = [] := by
        cases properties with
        | none => rfl
        | some properties =>
          obtain rfl : properties = [] := hhere
          rfl
      have hbare : Propertyless ⟨name, if name = "Object" then some documented else properties,
          attachAll? documented union, attachAll? documented args, attach? documented returns,
          attachAll? documented templates, expression⟩ := by
        rw [Propertyless, if_neg hname, hhere]
      rw [firstProperties?_cons hbare, if_neg hname, hnone, List.append_nil, firstProperties?_append,
        firstProperties?_append, firstProperties?_append,
        firstProperties?_attachAll? hne union fun inner hinner => h.nested (.inl (.inl hinner)),
        firstProperties?_attachAll? hne args fun inner hinner => h.nested (.inl (.inr (.inl hinner))),
        firstProperties?_attachAll? hne templates fun inner hinner => h.nested (.inl (.inr (.inr hinner))),
        firstProperties?_attach? hne returns fun inner hinner => h.nested (.inr hinner)]
      simp only [or_ite, decide_eq_false hname, Bool.false_or]

theorem firstProperties?_attach? (hne : documented ≠ []) : ∀ type? : Option ApiType,
    (∀ type ∈ type?, Throughout Propertyless type) →
    firstProperties? (reach? (attach? documented type?)) = if hasObject? type? then some documented else none
  | none, _ => rfl
  | some type, h => by
    rw [attach?, reach?, hasObject?]
    exact firstProperties?_attach hne type (h type rfl)

theorem firstProperties?_attachAll? (hne : documented ≠ []) : ∀ types? : Option (List ApiType),
    (∀ type ∈ types?.getD [], Throughout Propertyless type) →
    firstProperties? (reachAll? (attachAll? documented types?)) = if anyObject? types? then some documented else none
  | none, _ => rfl
  | some types, h => by
    rw [attachAll?, reachAll?, anyObject?]
    exact firstProperties?_attachAll hne types h

theorem firstProperties?_attachAll (hne : documented ≠ []) : ∀ types : List ApiType,
    (∀ type ∈ types, Throughout Propertyless type) →
    firstProperties? (reachAll (attachAll documented types)) = if anyObject types then some documented else none
  | [], _ => rfl
  | type :: types, h => by
    obtain ⟨htype, htypes⟩ := List.forall_mem_cons.1 h
    rw [attachAll, reachAll, anyObject, firstProperties?_append, firstProperties?_attach hne type htype,
      firstProperties?_attachAll hne types htypes, or_ite]

end

end

/-! ## Reading with documented properties -/

/-- Properties are given to what is read without them. -/
theorem parse_eq (text : String) (documented : List Member) :
    parse text documented =
      match parse text [] with
      | .error fault => .error fault
      | .ok bare =>
        if documented.isEmpty then .ok bare
        else if bare.hasObject then .ok (bare.attach documented)
        else .error (.propertiesOnNonObject text) := by
  unfold parse
  cases ofExpr false (TypeExpr.read (TypeExpr.unescape text)) with
  | error fault => cases fault <;> rfl
  | ok made =>
    obtain ⟨name, properties, union, args, returns, templates, expression⟩ := made
    rfl

theorem propertyless_parse {text : String} {bare : ApiType} (h : parse text [] = .ok bare) :
    Throughout Propertyless bare := by
  unfold parse at h
  split at h
  · cases h
  · cases h
  · cases h
  · rename_i made hmade
    cases h
    -- the expression that is kept with the type does not matter
    have hmade := propertyless_ofExpr false _ hmade
    rw [throughout_iff] at hmade ⊢
    exact hmade

/-- Documented properties go to every object in a type, wherever it is, and change nothing else; they are what
the type is then taken to have. A type without an object cannot have them, and what is no type is none with
them either. -/
theorem parse_documented (text : String) {documented : List Member} (hne : documented ≠ []) :
    (∀ fault, parse text [] = .error fault → parse text documented = .error fault) ∧
      ∀ bare, parse text [] = .ok bare →
        (¬bare.ReachesObject → parse text documented = .error (.propertiesOnNonObject text)) ∧
          (bare.ReachesObject → ∃ type, parse text documented = .ok type ∧ DocumentedAs documented bare type ∧
            type.deepProperties? = some documented) := by
  refine ⟨fun fault hfault => by rw [parse_eq, hfault], fun bare hbare => ?_⟩
  have hgiven : parse text documented =
      if bare.hasObject then .ok (bare.attach documented) else .error (.propertiesOnNonObject text) := by
    rw [parse_eq, hbare]
    simp [hne]
  refine ⟨fun hnone => ?_, fun hobject => ⟨bare.attach documented, ?_, documentedAs_attach bare, ?_⟩⟩
  · rw [hgiven, if_neg fun h => hnone (hasObject_iff.1 h)]
  · rw [hgiven, if_pos (hasObject_iff.2 hobject)]
  · have hfirst := firstProperties?_attach hne bare (propertyless_parse hbare)
    rw [if_pos (hasObject_iff.2 hobject)] at hfirst
    exact hfirst

/-- The size of something, as a property. -/
def sized : List Member := [.property "size" (plain "int") true]

/-- Functions by name, or null. -/
def handlers (argument : ApiType) : ApiType :=
  let handler := { plain "function" with args := some [argument], returns := some (plain "void") }
  ofAlternatives "" [plain "null", { plain "Map" with templates := some [plain "string", handler] }]

/-- What a handler takes has a size, if it is an object. -/
theorem parse_documented_handlers :
    (∃ type, parse "null|Map<string, function(Object):void>" sized = .ok type ∧
        type.deepProperties? = some sized ∧
        (type.at? [.alternative 1, .parameter 1, .argument 0]).bind (·.properties) = some sized) ∧
      parse "null|Map<string, function(string):void>" sized =
        .error (.propertiesOnNonObject "null|Map<string, function(string):void>") ∧
      parse "Map<Object, number>" sized = .error (.numberType "Map<Object, number>") := by
  have hne : sized ≠ [] := List.cons_ne_nil _ _
  refine ⟨?_, ?_, (parse_documented _ hne).1 _ (by decide +kernel)⟩
  · have hread : parse "null|Map<string, function(Object):void>" [] =
        .ok { handlers (object []) with expression := some "null|Map<string, function(Object):void>" } := by
      decide +kernel
    obtain ⟨type, htype, hsame, hdeep⟩ := ((parse_documented _ hne).2 _ hread).2
      ⟨[.alternative 1, .parameter 1, .argument 0], object [], rfl, rfl⟩
    refine ⟨type, htype, hdeep, ?_⟩
    have hplace := hsame [.alternative 1, .parameter 1, .argument 0]
    generalize type.at? _ = inner at hplace
    cases hplace with
    | some h => exact h.properties
  · have hread : parse "null|Map<string, function(string):void>" [] =
        .ok { handlers (plain "string") with expression := some "null|Map<string, function(string):void>" } := by
      decide +kernel
    refine ((parse_documented _ hne).2 _ hread).1 ?_
    rw [← hasObject_iff]
    decide

end ApiType

end RefPages
