/-
Types and signatures of members whose comments are changed: in every language they are written
without regard to comments.
-/
import RefPages.Dialect.Signature
import RefPages.Dialect.TypeText
import RefPages.Proofs.Api.Recomment

namespace RefPages

open Markup (Node)

/-- A form of a member with the comments of its arguments changed. -/
def Form.recomment (change : List Node → List Node) (form : Form) : Form :=
  { form with args := form.args.map (Member.recomment change) }

section

variable {change : List Node → List Node}

/-! ## The text of types -/

namespace Dialect

variable (dialect : Dialect)

theorem typeName_recomment (direction : Direction) (member : Member) (type : ApiType) :
    dialect.typeName direction (member.recomment change) (type.recomment change) =
      dialect.typeName direction member type := by
  have hobject : ∀ map plain, objectName map plain (type.recomment change) (member.recomment change) =
      objectName map plain type member := by
    intro map plain
    unfold objectName
    rw [ApiType.recomment_templates, ApiType.recomment_properties, Member.recomment_label]
    cases type.templates <;> cases type.properties <;> simp
  unfold typeName strictName
  simp only [ApiType.recomment_name, hobject]

theorem enumText_recomment (name : String) (member : Member) (union : List ApiType) :
    dialect.enumText name (member.recomment change) (union.map (ApiType.recomment change)) =
      dialect.enumText name member union := by
  have hfilter : (union.map (ApiType.recomment change)).filter (·.isLiteral) =
      (union.filter (·.isLiteral)).map (ApiType.recomment change) := by
    rw [List.filter_map]
    simp [Function.comp_def]
  have hvalues : ∀ types : List ApiType, (types.map (ApiType.recomment change)).filterMap (·.literalValue?) =
      types.filterMap (·.literalValue?) := by
    intro types
    rw [List.filterMap_map]
    congr 1
    funext type
    show (type.recomment change).literalValue? = type.literalValue?
    rw [ApiType.literalValue?, ApiType.literalValue?, ApiType.isLiteral_recomment, ApiType.recomment_name]
  unfold enumText enumName
  rw [hfilter]
  dsimp only
  rw [hvalues, List.isEmpty_map, Member.recomment_label]

theorem unionText_recomment (name : String) (member : Member) (union : List ApiType) (kept : List String) :
    dialect.unionText name (member.recomment change) (union.map (ApiType.recomment change)) kept =
      dialect.unionText name member union kept := by
  unfold unionText
  rw [enumText_recomment, List.any_map]
  simp [Function.comp_def]

theorem callbackKey_recomment (member : Member) : callbackKey (member.recomment change) = callbackKey member := by
  unfold callbackKey
  rw [Member.recomment_enclosingMethod, Member.recomment_className, Member.recomment_name]

theorem callbackInterface?_recomment (member : Member) :
    dialect.callbackInterface? (member.recomment change) = dialect.callbackInterface? member := by
  unfold callbackInterface?
  rw [callbackKey_recomment]

theorem arityFault?_recomment (member : Member) (arity : Nat) :
    dialect.arityFault? (member.recomment change) arity = dialect.arityFault? member arity := by
  unfold arityFault?
  rw [callbackKey_recomment, Member.recomment_qualifiedName]

theorem isFunction_recomment (type : ApiType) : (type.recomment change).isFunction = type.isFunction := by
  rw [ApiType.isFunction, ApiType.isFunction, ApiType.recomment_name]

theorem length_args_recomment (type : ApiType) :
    ((type.recomment change).args.getD []).length = (type.args.getD []).length := by
  rw [ApiType.recomment_args]
  cases type.args <;> simp

theorem functionText_recomment (args : String) (result : Option String) (type : ApiType) :
    dialect.functionText args result (type.recomment change) = dialect.functionText args result type := by
  unfold functionText
  rw [ApiType.recomment_returns]
  cases type.returns <;> simp

mutual

/-- The text of a type does not show any comment. -/
theorem typeText_recomment (direction : Direction) (member : Member) : ∀ type : ApiType,
    dialect.typeText direction (member.recomment change) (type.recomment change) =
      dialect.typeText direction member type
  | type@{ properties, union := some union, args, returns, templates, .. } => by
    rw [ApiType.recomment, recommentTypes?, typeText, typeText, keptTexts_recomment direction member union]
    simp only [recommentTypes_eq, unionText_recomment]
  | type@{ name, properties, union := none, args, returns, templates, expression } => by
    have hargs := typeTexts?_recomment direction member args
    have hresult := resultText?_recomment direction member returns
    have htemplates := typeTexts?_recomment direction member templates
    have htype : (ApiType.mk name properties none args returns templates expression).recomment change =
      ⟨name, recommentMembers? change properties, none, recommentTypes? change args,
        recommentType? change returns, recommentTypes? change templates, expression⟩ := by
      rw [ApiType.recomment, recommentTypes?]
    have hsome : (recommentTypes? change templates).isSome = templates.isSome := by
      cases templates <;> rfl
    rw [htype, typeText, typeText, hargs, hresult, htemplates, hsome, ← htype]
    simp only [functionText_recomment, typeName_recomment, ApiType.isLiteral_recomment, isFunction_recomment,
      callbackInterface?_recomment, length_args_recomment, arityFault?_recomment]

theorem resultText?_recomment (direction : Direction) (member : Member) : ∀ type : Option ApiType,
    dialect.resultText? direction (member.recomment change) (recommentType? change type) =
      dialect.resultText? direction member type
  | none => rfl
  | some type => by
    rw [recommentType?, resultText?, resultText?, ApiType.recomment_name, typeText_recomment direction member type]

theorem typeTexts?_recomment (direction : Direction) (member : Member) : ∀ types : Option (List ApiType),
    dialect.typeTexts? direction (member.recomment change) (recommentTypes? change types) =
      dialect.typeTexts? direction member types
  | none => rfl
  | some types => by
    rw [recommentTypes?, typeTexts?, typeTexts?, typeTexts_recomment direction member types]

theorem typeTexts_recomment (direction : Direction) (member : Member) : ∀ types : List ApiType,
    dialect.typeTexts direction (member.recomment change) (recommentTypes change types) =
      dialect.typeTexts direction member types
  | [] => rfl
  | type :: types => by
    rw [recommentTypes, typeTexts, typeTexts, typeText_recomment direction member type,
      typeTexts_recomment direction member types]

theorem keptTexts_recomment (direction : Direction) (member : Member) : ∀ types : List ApiType,
    dialect.keptTexts direction (member.recomment change) (recommentTypes change types) =
      dialect.keptTexts direction member types
  | [] => rfl
  | type :: types => by
    have hkeeps : dialect.keeps (type.recomment change) = dialect.keeps type := by
      rw [keeps, keeps, ApiType.isLiteral_recomment, ApiType.recomment_name]
    rw [recommentTypes, keptTexts, keptTexts, hkeeps, typeText_recomment direction member type,
      keptTexts_recomment direction member types]

end

/-! ## Signatures -/

theorem memberName_recomment (member : Member) :
    dialect.memberName (member.recomment change) = dialect.memberName member := by
  unfold memberName
  rw [Member.recomment_label, Member.recomment_isMethod, Member.recomment_isAsync]

theorem instanceText_recomment (member : Member) :
    dialect.instanceText (member.recomment change) = dialect.instanceText member := by
  unfold instanceText
  rw [Member.recomment_className, Member.recomment_kind]

theorem furtherArgs_recomment (isOpen : Bool) (args : List Member) :
    furtherArgs isOpen (args.map (Member.recomment change)) = furtherArgs isOpen args := by
  induction args generalizing isOpen with
  | nil => rfl
  | cons arg args ih =>
    rw [List.map_cons, furtherArgs, furtherArgs, Member.recomment_required, Member.recomment_label, ih]

theorem bracketedArgs_recomment (args : List Member) :
    bracketedArgs (args.map (Member.recomment change)) = bracketedArgs args := by
  cases args with
  | nil => rfl
  | cons arg args =>
    rw [List.map_cons, bracketedArgs, bracketedArgs, Member.recomment_required, Member.recomment_label,
      furtherArgs_recomment]

theorem sortedProperties_recomment (type : ApiType) :
    (type.recomment change).sortedProperties = type.sortedProperties.map (Member.recomment change) := by
  unfold ApiType.sortedProperties
  rw [ApiType.recomment_properties, ← ApiType.sortByName_map Member.recomment_name]
  cases type.properties <;> rfl

theorem spreadOptions_recomment (args : List Member) :
    spreadOptions (args.map (Member.recomment change)) =
      (spreadOptions args).map (Member.recomment change) := by
  unfold spreadOptions
  rw [List.flatMap_map, List.map_flatMap]
  congr 1
  funext arg
  rw [Member.recomment_name]
  split
  · rw [Member.recomment_type]
    cases arg.type with
    | none => rfl
    | some type => exact sortedProperties_recomment type
  · rfl

theorem documentedArgs_recomment (member : Member) :
    dialect.documentedArgs (member.recomment change) =
      (dialect.documentedArgs member).map (Member.recomment change) := by
  unfold documentedArgs
  rw [Member.recomment_args]
  cases dialect.lang with
  | python => exact spreadOptions_recomment member.args
  | _ => rfl

theorem callText_recomment (member : Member) :
    dialect.callText (member.recomment change) = dialect.callText member := by
  unfold callText
  rw [documentedArgs_recomment, Member.recomment_args, bracketedArgs_recomment, Member.recomment_isAsync]
  cases dialect.lang <;> simp [List.filter_map, Function.comp_def]

theorem signature_recomment (member : Member) :
    dialect.signature (member.recomment change) = dialect.signature member := by
  unfold signature eventText
  rw [instanceText_recomment, Member.recomment_kind, memberName_recomment, callText_recomment,
    Member.recomment_label]

theorem overloads_recomment (args : List Member) :
    overloads (args.map (Member.recomment change)) =
      (overloads args).map (·.map (Member.recomment change)) := by
  induction args with
  | nil => rfl
  | cons arg args ih =>
    have hoverloaded : isOverloaded (arg.recomment change) = isOverloaded arg := by
      unfold isOverloaded
      rw [Member.recomment_required, Member.recomment_type]
      cases arg.type <;> simp
    rw [List.map_cons, overloads, overloads, hoverloaded]
    split
    · rw [Member.recomment_type]
      cases arg.type with
      | none => rfl
      | some type =>
        simp only [Option.map_some, Option.bind_some, ApiType.recomment_union]
        cases type.union with
        | none => rfl
        | some union =>
          simp only [Option.map_some, Option.getD_some, List.map_map]
          refine List.map_congr_left fun alternative _ => ?_
          show ({ arg.recomment change with type := some (alternative.recomment change) } : Member) :: _ =
            Member.recomment change { arg with type := some alternative } :: _
          rw [Member.recomment_eq, Member.recomment_eq]
          rfl
    · rw [ih, List.map_map, List.map_map]
      rfl

theorem forms_recomment (member : Member) :
    dialect.forms (member.recomment change) = (dialect.forms member).map (Form.recomment change) := by
  unfold forms
  dsimp only
  rw [signature_recomment, documentedArgs_recomment, Member.recomment_args, overloads_recomment]
  split
  · rw [List.map_map, List.map_map]
    rfl
  · rfl

theorem memberLink_recomment (member : Member) (href : String) :
    dialect.memberLink (member.recomment change) href = dialect.memberLink member href := by
  unfold memberLink
  rw [forms_recomment, Member.recomment_label, List.head?_map]
  cases (dialect.forms member).head? <;> rfl

end Dialect

end

end RefPages
