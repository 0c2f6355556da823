/-
How references are resolved: texts of links stand out from running text, so that lists of languages
stay as they are, and an argument is resolved in its own comment and in those of its properties.
-/
import RefPages.Api.Link
import RefPages.Proofs.Api.References
import RefPages.Proofs.Markup.Redact

namespace RefPages

open Markup Text

/-! ## Texts of links -/

/-- The texts of links stand out from running text. -/
def LinkRenderer.Marked (render : LinkRenderer) : Prop :=
  ∀ target text, render target = some text → RefPages.Marked text.toList

theorem mem_of_lastValue? {α : Type} {key : String} {entries : List (String × α)} {value : α}
    (h : lastValue? key entries = some value) : (key, value) ∈ entries := by
  obtain ⟨⟨first, second⟩, hlast, rfl⟩ := Option.map_eq_some_iff.1 h
  obtain ⟨hmem, hkey⟩ := List.mem_filter.1 (List.mem_of_getLast? hlast)
  rwa [← of_decide_eq_true hkey]

/-- A text in the table is one that the renderer gives. -/
theorem LinkTable.rendered_of_mem_classes {render : LinkRenderer} {model : Model} {entry : String × String}
    (h : entry ∈ (ofModel render model).classes) : ∃ target, render target = some entry.2 := by
  obtain ⟨cls, -, hentry⟩ := List.mem_filterMap.1 h
  obtain ⟨text, htext, rfl⟩ := Option.map_eq_some_iff.1 hentry
  exact ⟨_, htext⟩

theorem LinkTable.rendered_of_mem_members {render : LinkRenderer} {model : Model} {entry : String × String}
    (h : entry ∈ (ofModel render model).members) : ∃ target, render target = some entry.2 := by
  obtain ⟨member, -, hentry⟩ := List.mem_filterMap.1 h
  obtain ⟨text, htext, rfl⟩ := Option.map_eq_some_iff.1 hentry
  exact ⟨_, htext⟩

section

variable {render : LinkRenderer} {model : Model} {context : Option LinkContext}

theorem marked_getD {text : Option String} {written : List Char} (hwritten : Marked written)
    (htext : ∀ shown, text = some shown → Marked shown.toList) :
    Marked (text.getD (String.ofList written)).toList := by
  cases text with
  | none => rwa [Option.getD_none, String.toList_ofList]
  | some shown => exact htext shown rfl

/-- The text for a reference stands out, as the reference does. -/
theorem marked_resolve (hrender : render.Marked) {ref : Reference} (hwritten : Marked ref.written)
    {text : List Char} (h : resolve render (.ofModel render model) context ref = .ok text) : Marked text := by
  obtain ⟨named, hnamed, h⟩ := bind_eq_ok.1 h
  cases h
  by_cases htarget : ref.href.getD [] = []
  · rw [if_pos htarget]
    unfold resolveName at hnamed
    dsimp only at hnamed
    split at hnamed
    · split at hnamed
      · cases hnamed
        refine marked_getD hwritten fun shown hshown => ?_
        obtain ⟨target, htext⟩ := LinkTable.rendered_of_mem_members (mem_of_lastValue? hshown)
        exact hrender target shown htext
      · cases hnamed
    · split at hnamed
      · obtain ⟨label, -, hnamed⟩ := bind_eq_ok.1 hnamed
        cases hnamed
        exact marked_getD hwritten fun shown hshown => hrender _ shown hshown
      · split at hnamed
        · obtain ⟨label, -, hnamed⟩ := bind_eq_ok.1 hnamed
          cases hnamed
          exact marked_getD hwritten fun shown hshown => hrender _ shown hshown
        · cases hnamed
  · rwa [if_neg htarget]

theorem marked_resolveClass (hrender : render.Marked) (ref : ClassReference) :
    Marked (resolveClass (.ofModel render model) ref) := by
  unfold resolveClass
  split
  · exact ref.marked_written
  · split
    · rename_i text htext
      obtain ⟨target, hshown⟩ := LinkTable.rendered_of_mem_classes (mem_of_lastValue? htext)
      exact hrender target text hshown
    · exact ref.marked_written

/-- References are resolved without touching lists of languages, or any text without references. -/
theorem settled_resolveText (hrender : render.Marked) :
    Settled (resolveText render (.ofModel render model) context) := by
  constructor
  · intro text htext
    unfold resolveText memberPieces classPieces
    rw [piecesFrom_eq_plain Reference.bracketed_read? htext, tryReplace_plain]
    show Except.ok _ = _
    have hclasses := tryReplace_ok (ε := Fault) (resolveClass (.ofModel render model))
      (piecesFrom ClassReference.read? ClassReference.written 0 text.toList)
    rw [piecesFrom_eq_plain ClassReference.bracketed_read? htext, tryReplace_plain] at hclasses
    rw [piecesFrom_eq_plain ClassReference.bracketed_read? htext, ← Except.ok.inj hclasses, String.ofList_toList]
  · intro text text' h hstart
    obtain ⟨members, hmembers, h⟩ := bind_eq_ok.1 h
    cases h
    rw [String.toList_ofList (l := replace _ _)] at hstart
    have hbracket : '[' ∉ "langs:".toList := by decide
    have htick : '\x60' ∉ "langs:".toList := by decide
    refine startsWith_of_tryReplace (fun _ ref _ hread hnew => ?_) hbracket htick hmembers ?_
    · exact marked_resolve hrender (Reference.marked_written hread) hnew
    · refine startsWith_of_tryReplace (fun _ ref _ _ hnew => ?_) hbracket htick
        (tryReplace_ok (ε := Fault) (resolveClass (.ofModel render model)) _) hstart
      cases hnew
      exact marked_resolveClass hrender ref

end

/-! ## Members and arguments -/

theorem resolveDocs_eq_ok {render : LinkRenderer} {table : LinkTable} {context : Option LinkContext}
    {member member' : Member} :
    resolveDocs render table context member = .ok member' ↔
      ∃ docs, resolveNodes render table context member.docs = .ok docs ∧ member' = { member with docs } := by
  unfold resolveDocs
  constructor
  · intro h
    obtain ⟨docs, hdocs, h⟩ := bind_eq_ok.1 h
    cases h
    exact ⟨docs, hdocs, rfl⟩
  · rintro ⟨docs, hdocs, rfl⟩
    exact bind_eq_ok.2 ⟨docs, hdocs, rfl⟩

/-- The type with the references in the comments of its properties resolved. -/
def ApiType.resolveProperties (render : LinkRenderer) (table : LinkTable) (context : Option LinkContext)
    (type : ApiType) : Except Fault ApiType :=
  match type.properties with
  | some properties => do
    return { type with properties := some (← properties.mapM (resolveDocs render table context)) }
  | none => return type

/-- The type, if there is one, with the references in the comments of its properties resolved. -/
def resolveType? (render : LinkRenderer) (table : LinkTable) (context : Option LinkContext) :
    Option ApiType → Except Fault (Option ApiType)
  | some type => do return some (← type.resolveProperties render table context)
  | none => return none

section

variable {render : LinkRenderer} {table : LinkTable} {context : Option LinkContext}

theorem ApiType.resolveProperties_none {type : ApiType} (h : type.properties = none) :
    type.resolveProperties render table context = .ok type := by
  unfold resolveProperties
  rw [h]
  rfl

theorem ApiType.resolveProperties_some {type type' : ApiType} {properties : List Member}
    (h : type.properties = some properties) :
    type.resolveProperties render table context = .ok type' ↔
      ∃ resolved, properties.mapM (resolveDocs render table context) = .ok resolved ∧
        type' = { type with properties := some resolved } := by
  unfold resolveProperties
  rw [h]
  constructor
  · intro h
    obtain ⟨resolved, hresolved, h⟩ := bind_eq_ok.1 h
    cases h
    exact ⟨resolved, hresolved, rfl⟩
  · rintro ⟨resolved, hresolved, rfl⟩
    exact bind_eq_ok.2 ⟨resolved, hresolved, rfl⟩

/-- An argument is resolved in its own comment and in those of the properties of its type. -/
theorem resolveArg_eq_ok {arg arg' : Member} :
    resolveArg render table context arg = .ok arg' ↔
      ∃ docs type, resolveNodes render table context arg.docs = .ok docs ∧
        resolveType? render table context arg.type = .ok type ∧ arg' = { arg with docs, type } := by
  have hparts : resolveArg render table context arg = do
      let docs ← resolveNodes render table context arg.docs
      let type ← resolveType? render table context arg.type
      return { arg with docs, type } := by
    obtain ⟨_, _, _, _, type, _, _, _, _, _, _, _, _, _, _, _, _⟩ := arg
    unfold resolveArg resolveDocs
    rw [bind_assoc]
    refine bind_congr fun docs => ?_
    cases type with
    | none => rfl
    | some type =>
      obtain ⟨_, properties, _, _, _, _, _⟩ := type
      cases properties with
      | none => rfl
      | some properties =>
        unfold resolveType? ApiType.resolveProperties
        simp only [bind_assoc, pure_bind]
        rfl
  rw [hparts]
  constructor
  · intro h
    obtain ⟨docs, hdocs, h⟩ := bind_eq_ok.1 h
    obtain ⟨type, htype, h⟩ := bind_eq_ok.1 h
    cases h
    exact ⟨docs, type, hdocs, htype, rfl⟩
  · rintro ⟨docs, type, hdocs, htype, rfl⟩
    exact bind_eq_ok.2 ⟨docs, hdocs, bind_eq_ok.2 ⟨type, htype, rfl⟩⟩

end

end RefPages
