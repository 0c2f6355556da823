/-
Comments in which references have been resolved. When every link has a text that takes no part in
references, no reference without a target is left.
-/
import RefPages.Page.Item
import RefPages.Proofs.Api.Resolved
import RefPages.Proofs.Api.Sealed
import RefPages.Proofs.Markup.Texts

namespace RefPages

open Markup Text Reference

/-- Every link has a text, which takes no part in references; those to classes can also stand in the
target of a link. -/
structure LinkRenderer.Answers (render : LinkRenderer) : Prop where
  sealed : ∀ target, ∃ text, render target = some text ∧ Sealed text.toList
  classes : ∀ cls text, render (.toClass cls) = some text → ')' ∉ text.toList

/-! ## References to members -/

theorem lastValue?_eq_some {α : Type} {key : String} {entries : List (String × α)} (h : key ∈ entries.map (·.1)) :
    ∃ value, lastValue? key entries = some value := by
  obtain ⟨entry, hentry, hkey⟩ := List.mem_map.1 h
  have hmem : entry ∈ entries.filter (·.1 = key) := List.mem_filter.2 ⟨hentry, decide_eq_true hkey⟩
  obtain ⟨last, hlast⟩ := Option.isSome_iff_exists.1 (List.getLast?_isSome.2 (List.ne_nil_of_mem hmem))
  exact ⟨last.2, by rw [lastValue?, hlast, Option.map_some]⟩

section

variable {render : LinkRenderer} (hrender : render.Answers) {model : Model} {context : Option LinkContext}

include hrender

/-- A key that is known has a text, which is sealed. -/
theorem sealed_of_known {key : String} (h : key ∈ (LinkTable.ofModel render model).known) :
    ∃ text, lastValue? key (LinkTable.ofModel render model).members = some text ∧ Sealed text.toList := by
  have hkeys : key ∈ (LinkTable.ofModel render model).members.map (·.1) := by
    obtain ⟨member, hmember, rfl⟩ := List.mem_map.1 h
    obtain ⟨text, htext, -⟩ := hrender.sealed (.toMember member)
    exact List.mem_map.2 ⟨(member.referenceKey, text), List.mem_filterMap.2 ⟨member, hmember, by rw [htext]; rfl⟩, rfl⟩
  obtain ⟨text, htext⟩ := lastValue?_eq_some hkeys
  obtain ⟨target, hshown⟩ := LinkTable.rendered_of_mem_members (mem_of_lastValue? htext)
  obtain ⟨own, hown, hsealed⟩ := hrender.sealed target
  obtain rfl : own = text := Option.some.inj (hown.symm.trans hshown)
  exact ⟨own, htext, hsealed⟩

theorem sealed_getD (target : LinkTarget) (written : String) : Sealed ((render target).getD written).toList := by
  obtain ⟨text, htext, hsealed⟩ := hrender.sealed target
  rwa [htext, Option.getD_some]

theorem sealed_resolveName {ref : Reference} {text : List Char}
    (h : resolveName render (.ofModel render model) context ref = .ok text) : Sealed text := by
  unfold resolveName at h
  dsimp only at h
  split at h
  · split at h
    · rename_i hknown
      cases h
      obtain ⟨text, htext, hsealed⟩ := sealed_of_known hrender (List.contains_iff_mem.1 hknown)
      rwa [htext, Option.getD_some]
    · cases h
  · split at h
    · obtain ⟨label, -, h⟩ := bind_eq_ok.1 h
      cases h
      exact sealed_getD hrender _ _
    · split at h
      · obtain ⟨label, -, h⟩ := bind_eq_ok.1 h
        cases h
        exact sealed_getD hrender _ _
      · cases h

/-- A reference with a target is kept; any other gives way to a sealed text. -/
theorem resolve_eq_ok {ref : Reference} {new : List Char}
    (h : resolve render (.ofModel render model) context ref = .ok new) :
    (ref.Bare → Sealed new) ∧ (¬ ref.Bare → new = ref.written) := by
  obtain ⟨text, htext, h⟩ := bind_eq_ok.1 h
  cases h
  constructor
  · intro hbare
    rw [if_pos (c := ref.href.getD [] = []) hbare]
    exact sealed_resolveName hrender htext
  · intro hbare
    rw [if_neg (c := ref.href.getD [] = []) hbare]

end

/-! ## References to classes -/

/-- A name in brackets gives way to a sealed text that can stand in the target of a link. -/
def ClassSwap (old new : List Char) : Prop :=
  (∃ name, name ≠ [] ∧ (∀ c ∈ name, isNameChar c = true) ∧ old = '[' :: name ++ [']']) ∧ Sealed new ∧ ')' ∉ new

theorem ClassReference.read?_eq_some {cs : List Char} {ref : ClassReference} (h : ClassReference.read? cs = some ref) :
    ref.name ≠ [] ∧ (∀ c ∈ ref.name, isNameChar c = true) ∧ ∃ rest, cs = ref.written ++ rest := by
  unfold ClassReference.read? at h
  split at h
  · split at h
    · rename_i inner name rest hspan
      split at h
      · cases h
      · rename_i hne
        cases h
        obtain ⟨rfl, hname⟩ := Reference.append_of_span hspan
        refine ⟨hne, hname, ?_⟩
        unfold ClassReference.written
        cases rest with
        | nil => exact ⟨[], by simp⟩
        | cons c rest =>
          dsimp only
          rw [List.head?_cons, Option.filter_some]
          split
          · exact ⟨rest, by simp⟩
          · exact ⟨c :: rest, by simp⟩
    · cases h
  · cases h

theorem ClassReference.written_ne_nil (ref : ClassReference) : ref.written ≠ [] := List.cons_ne_nil _ _

theorem swapped_replace_classes {replacement : ClassReference → List Char}
    (hreplace : ∀ ref, replacement ref = ref.written ∨
      ref.follow = none ∧ Sealed (replacement ref) ∧ ')' ∉ replacement ref) (text : List Char) :
    Swapped ClassSwap text (replace replacement (classPieces text)) := by
  induction hlength : text.length using Nat.strong_induction_on generalizing text with
  | _ n ih =>
    subst hlength
    cases hread : ClassReference.read? text with
    | some ref =>
      obtain ⟨hne, hname, rest, rfl⟩ := ClassReference.read?_eq_some hread
      have hshorter : rest.length < (ref.written ++ rest).length := by
        rw [List.length_append]
        exact Nat.lt_add_of_pos_left (List.length_pos_iff.2 ref.written_ne_nil)
      have hpieces : classPieces (ref.written ++ rest) = .reference ref :: classPieces rest :=
        piecesFrom_written_append ref.written_ne_nil hread
      rw [hpieces, replace]
      have hrest := ih rest.length hshorter rest rfl
      rcases hreplace ref with hkept | ⟨hfollow, hsealed, hclose⟩
      · rw [hkept]
        exact hrest.append_left _
      · refine .swap ⟨⟨ref.name, hne, hname, ?_⟩, hsealed, hclose⟩ hrest
        rw [ClassReference.written, hfollow]
        rfl
    | none =>
      cases text with
      | nil => exact .nil
      | cons c cs =>
        unfold classPieces
        rw [piecesFrom_cons_none hread, replace]
        exact .keep c (ih cs.length (Nat.lt_succ_self _) cs rfl)

theorem apart_of_classSwap {old new : List Char} (h : ClassSwap old new) : Apart old ∧ Sealed new ∧ ')' ∉ new := by
  obtain ⟨⟨name, hne, hname, rfl⟩, hnew⟩ := h
  exact ⟨apart_of_bracket hne hname, hnew⟩

/-! ## Resolved texts -/

section

variable {render : LinkRenderer} (hrender : render.Answers) {model : Model} {context : Option LinkContext}

include hrender

/-- In a resolved text, every reference has a target of its own. -/
theorem targeted_resolveText {text text' : String}
    (h : resolveText render (.ofModel render model) context text = .ok text') : Targeted text'.toList := by
  obtain ⟨members, hmembers, h⟩ := bind_eq_ok.1 h
  cases h
  rw [String.toList_ofList]
  have hclass : ∀ ref : ClassReference, resolveClass (.ofModel render model) ref = ref.written ∨
      ref.follow = none ∧ Sealed (resolveClass (.ofModel render model) ref) ∧
        ')' ∉ resolveClass (.ofModel render model) ref := by
    intro ref
    unfold resolveClass
    split
    · exact .inl rfl
    · rename_i hfollow
      split
      · rename_i text htext
        obtain ⟨cls, -, hcls⟩ := List.mem_filterMap.1 (mem_of_lastValue? htext)
        obtain ⟨shown, hshown, heq⟩ := Option.map_eq_some_iff.1 hcls
        obtain ⟨-, rfl⟩ := Prod.mk.inj heq
        obtain ⟨own, hown, hsealed⟩ := hrender.sealed (.toClass cls)
        obtain rfl : own = shown := Option.some.inj (hown.symm.trans hshown)
        exact .inr ⟨hfollow, hsealed, hrender.classes cls own hown⟩
      · exact .inl rfl
  have hresolved := (targeted_tryReplace (fun ref new hnew => resolve_eq_ok hrender hnew) hmembers).1
  exact hresolved.swapped (fun _ _ => apart_of_classSwap) (swapped_replace_classes hclass members)

/-- In a resolved comment, every reference has a target of its own. -/
theorem targeted_resolveNodes {nodes nodes' : List Node}
    (h : resolveNodes render (.ofModel render model) context nodes = .ok nodes') :
    AllTexts (fun text => Targeted text.toList) nodes' :=
  allTexts_tryMapAllTexts (fun _ _ htext => targeted_resolveText hrender htext) h

end

/-! ## Comments as they are shown -/

theorem swapped_replaceAll {old new : List Char} (hne : old ≠ []) (text : List Char) :
    Swapped (fun old' new' => old' = old ∧ new' = new) text (replaceAll old new text) := by
  have hskip : ∀ (skip : Nat) (cs : List Char), replaceFrom old new skip cs = replaceFrom old new 0 (cs.drop skip) := by
    intro skip
    induction skip with
    | zero =>
      intro cs
      rfl
    | succ skip ih =>
      intro cs
      cases cs with
      | nil => rfl
      | cons c cs => exact ih cs
  unfold replaceAll
  induction hlength : text.length using Nat.strong_induction_on generalizing text with
  | _ n ih =>
    subst hlength
    cases text with
    | nil => exact .nil
    | cons c cs =>
      rw [replaceFrom]
      split
      · rename_i hstart
        obtain ⟨rest, hrest⟩ := Option.isSome_iff_exists.1 hstart
        rw [after?_eq_some_iff] at hrest
        have hdrop : cs.drop (old.length - 1) = rest := by
          obtain ⟨d, old, rfl⟩ := List.exists_cons_of_ne_nil hne
          rw [(List.cons.inj hrest).2, List.length_cons, Nat.add_sub_cancel]
          exact List.drop_left
        have hshorter : rest.length < (c :: cs).length := by
          have hpos := List.length_pos_iff.2 hne
          rw [hrest, List.length_append]
          omega
        rw [hskip, hdrop, hrest]
        exact .swap ⟨rfl, rfl⟩ (ih rest.length hshorter rest rfl)
      · exact .keep c (ih cs.length (Nat.lt_succ_self _) cs rfl)

/-- Spelling constants in another way leaves references alone. -/
theorem targeted_commentText (dialect : Dialect) {text : String} (h : Targeted text.toList) :
    Targeted (dialect.commentText text).toList := by
  have hstep : ∀ source spelled : List Char, (∀ c ∈ source, c ≠ '\x60' ∧ c ≠ '[' ∧ c ≠ ']' ∧ c ≠ ':') → ')' ∉ source →
      (∀ c ∈ spelled, c ≠ '\x60' ∧ c ≠ '[' ∧ c ≠ ']' ∧ c ≠ ':') → ')' ∉ spelled → ∀ {cs : List Char}, Targeted cs →
        Targeted (replaceAll ('\x60' :: source ++ ['\x60']) ('\x60' :: spelled ++ ['\x60']) cs) := by
    intro source spelled hsource hclose hspelled hclose' cs hcs
    refine hcs.swapped ?_ (swapped_replaceAll (List.cons_ne_nil _ _) cs)
    rintro _ _ ⟨rfl, rfl⟩
    exact ⟨apart_of_backticks hsource hclose, sealed_of_backticks hspelled, by simp [hclose']⟩
  unfold Dialect.commentText Dialect.constants
  rw [String.toList_ofList]
  cases dialect.lang with
  | python =>
    have hnull := hstep "null".toList "None".toList (by simp) (by decide) (by simp) (by decide) h
    have htrue := hstep "true".toList "True".toList (by simp) (by decide) (by simp) (by decide) hnull
    exact hstep "false".toList "False".toList (by simp) (by decide) (by simp) (by decide) htrue
  | js => exact h
  | java => exact h
  | csharp => exact h

/-- A comment in which every reference has a target is shown so. -/
theorem targeted_shownDocs (dialect : Dialect) {docs : List Node}
    (h : AllTexts (fun text => Targeted text.toList) docs) :
    AllTexts (fun text => Targeted text.toList) (Page.shownDocs dialect docs) :=
  h.forLang.withOwnCode.mapAllTexts fun _ => targeted_commentText dialect

end RefPages
