/-
Texts in which every reference to a member has a target of its own. They stay so when parts are
replaced by texts that no reference begins in and no reference reaches into.
-/
import Mathlib.Data.List.TakeWhile
import RefPages.Proofs.Api.References

namespace RefPages

open Text

/-! ## What is read as a reference -/

namespace Reference

/-- What can be the kind and the name in a reference. -/
structure Names (kind name : List Char) : Prop where
  kind_ne : kind ≠ []
  kind_chars : ∀ c ∈ kind, isNameChar c = true
  name_ne : name ≠ []
  name_chars : ∀ c ∈ name, c ≠ ']' ∧ c ≠ '\x60'

theorem span_append_cons {p : Char → Bool} {cs : List Char} {c : Char} {rest : List Char} (hcs : ∀ d ∈ cs, p d = true)
    (hc : p c = false) : (cs ++ c :: rest).span p = (cs, c :: rest) := by
  rw [List.span_eq_takeWhile_dropWhile, List.takeWhile_append_of_pos hcs, List.dropWhile_append_of_pos hcs,
    List.takeWhile_cons_of_neg (by simp [hc]), List.dropWhile_cons_of_neg (by simp [hc]), List.append_nil]

theorem append_of_span {p : Char → Bool} {cs as bs : List Char} (h : cs.span p = (as, bs)) :
    cs = as ++ bs ∧ ∀ c ∈ as, p c = true := by
  rw [List.span_eq_takeWhile_dropWhile] at h
  obtain ⟨rfl, rfl⟩ := Prod.mk.inj h
  exact ⟨List.takeWhile_append_dropWhile.symm, fun c hc => List.mem_takeWhile_imp hc⟩

theorem core_append (kind name rest : List Char) :
    core kind name ++ rest = '[' :: '\x60' :: (kind ++ ':' :: (' ' :: (name ++ '\x60' :: (']' :: rest)))) := by
  simp [core]

/-- The core of a reference is read as one, whatever follows. -/
theorem read?_core {kind name : List Char} (h : Names kind name) (rest : List Char) :
    read? (core kind name ++ rest) = some ⟨core kind name ++ target (href? rest), kind, name, href? rest⟩ := by
  have hkind : (kind ++ ':' :: (' ' :: (name ++ '\x60' :: (']' :: rest)))).span isNameChar =
      (kind, ':' :: (' ' :: (name ++ '\x60' :: (']' :: rest)))) :=
    span_append_cons h.kind_chars (by decide)
  have hname : (name ++ '\x60' :: (']' :: rest)).span (fun c => c ≠ ']' && c ≠ '\x60') =
      (name, '\x60' :: (']' :: rest)) := by
    refine span_append_cons (fun c hc => ?_) (by decide)
    simpa using h.name_chars c hc
  rw [core_append, read?]
  simp only [hkind, hname, h.kind_ne, h.name_ne]
  rfl

theorem read?_eq_some_iff {cs : List Char} {ref : Reference} :
    read? cs = some ref ↔ Names ref.kind ref.name ∧ ∃ rest, cs = core ref.kind ref.name ++ rest ∧
      ref.href = href? rest ∧ ref.written = core ref.kind ref.name ++ target ref.href := by
  constructor
  · intro h
    unfold read? at h
    split at h
    · rename_i inner
      split at h
      · rename_i kind rest hkind
        split at h
        · rename_i name rest' hname
          split at h
          · cases h
          · rename_i hne
            cases h
            obtain ⟨hinner, hkindChars⟩ := append_of_span hkind
            obtain ⟨hrest, hnameChars⟩ := append_of_span hname
            simp only [Bool.or_eq_true, decide_eq_true_eq, not_or] at hne
            refine ⟨⟨hne.1, hkindChars, hne.2, fun c hc => by simpa using hnameChars c hc⟩, rest', ?_, rfl, rfl⟩
            rw [core_append, hinner, hrest]
        · cases h
      · cases h
    · cases h
  · rintro ⟨hnames, rest, rfl, hhref, hwritten⟩
    rw [read?_core hnames]
    obtain ⟨written, kind, name, href⟩ := ref
    dsimp only at hhref hwritten ⊢
    rw [hwritten, hhref]

theorem read?_eq_none_iff {cs : List Char} :
    read? cs = none ↔ ∀ kind name, Names kind name → ¬ core kind name <+: cs := by
  constructor
  · rintro h kind name hnames ⟨rest, rfl⟩
    rw [read?_core hnames] at h
    cases h
  · intro h
    cases hread : read? cs with
    | none => rfl
    | some ref =>
      obtain ⟨hnames, rest, rfl, -⟩ := read?_eq_some_iff.1 hread
      exact absurd (List.prefix_append _ _) (h _ _ hnames)

/-! ## Targets -/

theorem href?_append {href : List Char} (h : ')' ∉ href) (rest : List Char) :
    href? ('(' :: href ++ ')' :: rest) = some href := by
  have hspan : (href ++ ')' :: rest).span (· ≠ ')') = (href, ')' :: rest) := by
    refine span_append_cons (fun c hc => ?_) (by decide)
    simp only [ne_eq, decide_eq_true_eq]
    rintro rfl
    exact h hc
  rw [List.cons_append, href?]
  simp only [hspan]

theorem href?_eq_some {cs href : List Char} (h : href? cs = some href) :
    ')' ∉ href ∧ ∃ rest, cs = '(' :: href ++ ')' :: rest := by
  unfold href? at h
  split at h
  · rename_i inner
    split at h
    · rename_i own c rest hspan
      cases h
      obtain ⟨happend, hchars⟩ := append_of_span hspan
      have hclose : c = ')' := by
        have hhead := List.head?_dropWhile_not (· ≠ ')') inner
        rw [List.span_eq_takeWhile_dropWhile] at hspan
        rw [(Prod.mk.inj hspan).2] at hhead
        simpa using hhead
      refine ⟨fun hmem => ?_, rest, ?_⟩
      · simpa using hchars _ hmem
      · rw [List.cons_append, happend, hclose]
    · cases h
  · cases h

/-- A reference is all of what it is read from but for what follows. -/
theorem eq_written_append {cs : List Char} {ref : Reference} (h : read? cs = some ref) :
    ∃ rest, cs = ref.written ++ rest := by
  obtain ⟨-, rest, rfl, hhref, hwritten⟩ := read?_eq_some_iff.1 h
  rw [hwritten]
  cases hown : ref.href with
  | none => exact ⟨rest, by rw [target, List.append_nil]⟩
  | some href =>
    rw [hown] at hhref
    obtain ⟨-, more, rfl⟩ := href?_eq_some hhref.symm
    exact ⟨more, by simp [target]⟩

theorem written_ne_nil {cs : List Char} {ref : Reference} (h : read? cs = some ref) : ref.written ≠ [] := by
  obtain ⟨-, -, -, -, hwritten⟩ := read?_eq_some_iff.1 h
  rw [hwritten]
  exact List.cons_ne_nil _ _

/-- The reference has no target of its own. -/
def Bare (ref : Reference) : Prop := ref.href.getD [] = []

instance (ref : Reference) : Decidable ref.Bare := inferInstanceAs (Decidable (_ = _))

/-- A reference with a target is read the same whatever follows. -/
theorem read?_written_append {cs : List Char} {ref : Reference} (h : read? cs = some ref) (htarget : ¬ ref.Bare)
    (rest : List Char) : read? (ref.written ++ rest) = some ref := by
  obtain ⟨hnames, own, rfl, hhref, hwritten⟩ := read?_eq_some_iff.1 h
  refine read?_eq_some_iff.2 ⟨hnames, target ref.href ++ rest, ?_, ?_, hwritten⟩
  · rw [hwritten, List.append_assoc]
  · cases hown : ref.href with
    | none => exact absurd (by rw [Bare, hown, Option.getD_none]) htarget
    | some href =>
      rw [hown] at hhref
      obtain ⟨hclose, -⟩ := href?_eq_some hhref.symm
      rw [target, List.append_assoc, List.singleton_append, href?_append hclose]

end Reference

open Reference

/-! ## Texts with targets only -/

/-- Every reference in the text has a target of its own. -/
def Targeted (text : List Char) : Prop := ∀ ref, Piece.reference ref ∈ memberPieces text → ¬ ref.Bare

theorem targeted_nil : Targeted [] := nofun

theorem targeted_cons {c : Char} {cs : List Char} (h : read? (c :: cs) = none) : Targeted (c :: cs) ↔ Targeted cs := by
  unfold Targeted memberPieces
  rw [piecesFrom_cons_none h]
  simp

theorem memberPieces_written_append {ref : Reference} {rest : List Char}
    (h : read? (ref.written ++ rest) = some ref) :
    memberPieces (ref.written ++ rest) = .reference ref :: memberPieces rest :=
  piecesFrom_written_append (written_ne_nil h) h

theorem targeted_written_append {ref : Reference} {rest : List Char} (h : read? (ref.written ++ rest) = some ref) :
    Targeted (ref.written ++ rest) ↔ ¬ ref.Bare ∧ Targeted rest := by
  unfold Targeted
  rw [memberPieces_written_append h]
  simp

/-- No reference begins within the text, whatever follows it. -/
def NoStart (text : List Char) : Prop := ∀ part, part ≠ [] → part <:+ text → ∀ rest, read? (part ++ rest) = none

theorem targeted_append {text : List Char} (h : NoStart text) (rest : List Char) :
    Targeted (text ++ rest) ↔ Targeted rest := by
  induction text with
  | nil => rfl
  | cons c text ih =>
    have hnone : read? (c :: (text ++ rest)) = none := h (c :: text) (List.cons_ne_nil _ _) List.suffix_rfl rest
    rw [List.cons_append, targeted_cons hnone]
    exact ih fun part hne hsuffix => h part hne (hsuffix.trans (List.suffix_cons c text))

/-! ## Replacing parts -/

/-- A text that takes no part in a reference, whatever stands around it: none begins within it, and
none that begins before goes on into it. -/
structure Sealed (text : List Char) : Prop where
  start : NoStart text
  inside : ∀ before kind name after, before ≠ [] → Names kind name →
    core kind name <+: before ++ text ++ after → core kind name <+: before

/-- A text with some parts replaced by others. -/
inductive Swapped (swap : List Char → List Char → Prop) : List Char → List Char → Prop where
  | nil : Swapped swap [] []
  | keep (c : Char) {cs ds : List Char} (h : Swapped swap cs ds) : Swapped swap (c :: cs) (c :: ds)
  | swap {old new cs ds : List Char} (hswap : swap old new) (h : Swapped swap cs ds) :
    Swapped swap (old ++ cs) (new ++ ds)

namespace Swapped

variable {swap : List Char → List Char → Prop} {cs ds : List Char}

theorem append_left (before : List Char) (h : Swapped swap cs ds) : Swapped swap (before ++ cs) (before ++ ds) := by
  induction before with
  | nil => exact h
  | cons c before ih => exact .keep c ih

/-- A reference that begins before the replaced parts has been there before. -/
theorem core_prefix (hswap : ∀ old new, swap old new → Sealed new) (h : Swapped swap cs ds) {before : List Char}
    (hbefore : before ≠ []) {kind name : List Char} (hnames : Names kind name)
    (hcore : core kind name <+: before ++ ds) : core kind name <+: before ++ cs := by
  induction h generalizing before with
  | nil => exact hcore
  | keep c h ih =>
    rw [List.append_cons] at hcore ⊢
    exact ih (by simp) hcore
  | swap hold h ih =>
    rw [← List.append_assoc] at hcore
    have hkept := (hswap _ _ hold).inside before kind name _ hbefore hnames hcore
    exact hkept.trans (List.prefix_append _ _)

theorem read?_eq_none (hswap : ∀ old new, swap old new → Sealed new) (h : Swapped swap cs ds) {c : Char}
    (hnone : read? (c :: cs) = none) : read? (c :: ds) = none := by
  rw [read?_eq_none_iff] at hnone ⊢
  intro kind name hnames hcore
  have hkept : core kind name <+: [c] ++ cs := h.core_prefix hswap (List.cons_ne_nil c []) hnames hcore
  exact hnone kind name hnames hkept

end Swapped

/-- When references without a target are replaced by sealed texts, all that are left have one. -/
theorem targeted_tryReplace {ε : Type} {replacement : Reference → Except ε (List Char)}
    (hreplace : ∀ ref new, replacement ref = .ok new → (ref.Bare → Sealed new) ∧ (¬ ref.Bare → new = ref.written))
    {text out : List Char} (h : tryReplace replacement (memberPieces text) = .ok out) :
    Targeted out ∧ Swapped (fun _ new => Sealed new) text out := by
  induction hlength : text.length using Nat.strong_induction_on generalizing text out with
  | _ n ih =>
    subst hlength
    cases hread : read? text with
    | some ref =>
      obtain ⟨rest, rfl⟩ := eq_written_append hread
      have hshorter : rest.length < (ref.written ++ rest).length := by
        rw [List.length_append]
        exact Nat.lt_add_of_pos_left (List.length_pos_iff.2 (written_ne_nil hread))
      rw [memberPieces_written_append hread, tryReplace] at h
      obtain ⟨new, hnew, h⟩ := bind_eq_ok.1 h
      obtain ⟨out', hout, h⟩ := bind_eq_ok.1 h
      cases h
      obtain ⟨htargeted, hswapped⟩ := ih rest.length hshorter hout rfl
      by_cases hbare : ref.Bare
      · have hsealed := (hreplace ref new hnew).1 hbare
        exact ⟨(targeted_append hsealed.start _).2 htargeted, .swap hsealed hswapped⟩
      · -- a reference with a target is written again, and read again
        rw [(hreplace ref new hnew).2 hbare]
        have hsame := read?_written_append hread hbare out'
        exact ⟨(targeted_written_append hsame).2 ⟨hbare, htargeted⟩, hswapped.append_left _⟩
    | none =>
      cases text with
      | nil =>
        cases h
        exact ⟨targeted_nil, .nil⟩
      | cons c cs =>
        unfold memberPieces at h
        rw [piecesFrom_cons_none hread, tryReplace] at h
        obtain ⟨rest, hrest, h⟩ := bind_eq_ok.1 h
        cases h
        obtain ⟨htargeted, hswapped⟩ := ih cs.length (Nat.lt_succ_self _) hrest rfl
        have hnone := hswapped.read?_eq_none (fun _ _ h => h) hread
        exact ⟨(targeted_cons hnone).2 htargeted, .keep c hswapped⟩

/-! ## Replacing what is no reference -/

/-- A text that references neither contain nor share characters with, except in their targets. -/
structure Apart (text : List Char) : Prop where
  ne_nil : text ≠ []
  start : NoStart text
  close : ')' ∉ text
  core : ∀ kind name, Names kind name → ∀ part, part ≠ [] → part <:+ Reference.core kind name ++ ['('] →
    ∀ rest, ¬ text <+: part ++ rest

theorem Sealed.ne_nil {text : List Char} (h : Sealed text) : text ≠ [] := by
  rintro rfl
  have hnames : Names ['a'] ['b'] := ⟨by decide, by simp [isNameChar], by decide, by simp⟩
  have hsplit : ['['] ++ [] ++ (Reference.core ['a'] ['b']).tail = Reference.core ['a'] ['b'] := rfl
  have hcore := h.inside ['['] ['a'] ['b'] _ (List.cons_ne_nil _ _) hnames ⟨[], by rw [hsplit, List.append_nil]⟩
  exact absurd hcore (by decide)

namespace Swapped

variable {swap : List Char → List Char → Prop} {cs ds : List Char}

/-- What is replaced in a text with a part that is apart from everything replaced is in the rest. -/
theorem of_append_left {before : List Char}
    (hbefore : ∀ part, part ≠ [] → part <:+ before → ∀ old new rest, swap old new → ¬ old <+: part ++ rest)
    (h : Swapped swap (before ++ cs) ds) : ∃ ds', ds = before ++ ds' ∧ Swapped swap cs ds' := by
  induction before generalizing ds with
  | nil => exact ⟨ds, rfl, h⟩
  | cons c before ih =>
    have hsuffix : ∀ part, part ≠ [] → part <:+ before → ∀ old new rest, swap old new → ¬ old <+: part ++ rest :=
      fun part hne hpart => hbefore part hne (hpart.trans (List.suffix_cons c before))
    generalize htext : c :: before ++ cs = text at h
    cases h with
    | nil => cases htext
    | keep c' h =>
      rw [List.cons_append] at htext
      cases htext
      obtain ⟨ds', rfl, hds⟩ := ih hsuffix h
      exact ⟨ds', rfl, hds⟩
    | swap hswap h =>
      have hold := hbefore (c :: before) (List.cons_ne_nil _ _) List.suffix_rfl _ _ cs hswap
      exact absurd (by rw [htext]; exact List.prefix_append _ _) hold

/-- A text up to a closing parenthesis is replaced on its own. -/
theorem of_append_close {href : List Char} (hswap : ∀ old new, swap old new → Apart old ∧ ')' ∉ new ∧ new ≠ [])
    (hclose : ')' ∉ href) (h : Swapped swap (href ++ ')' :: cs) ds) :
    ∃ href' ds', ds = href' ++ ')' :: ds' ∧ ')' ∉ href' ∧ (href' = [] ↔ href = []) ∧ Swapped swap cs ds' := by
  generalize htext : href ++ ')' :: cs = text at h
  induction h generalizing href with
  | nil => simp at htext
  | keep c h ih =>
    cases href with
    | nil =>
      cases htext
      exact ⟨[], _, rfl, by simp, by simp, h⟩
    | cons d href =>
      rw [List.cons_append] at htext
      cases htext
      rw [List.mem_cons, not_or] at hclose
      obtain ⟨href', ds', rfl, hclose', -, hds⟩ := ih hclose.2 rfl
      exact ⟨c :: href', ds', rfl, by simp [hclose.1, hclose'], by simp, hds⟩
  | @swap old new cs' ds' hold h ih =>
    obtain ⟨hapart, hnew, hne⟩ := hswap old new hold
    -- what is replaced has no parenthesis, so that it ends before the one here
    rcases List.append_eq_append_iff.1 htext with ⟨more, rfl, hmore⟩ | ⟨more, rfl, rfl⟩
    · cases more with
      | nil =>
        obtain ⟨href', ds'', rfl, hclose', hnil, hds⟩ := @ih [] (by simp) hmore
        rw [hnil.2 rfl] at hclose' ⊢
        refine ⟨new, ds'', by simp, hnew, ?_, hds⟩
        rw [List.append_nil] at hapart
        simp [hne, hapart.ne_nil]
      | cons c more =>
        rw [List.cons_append] at hmore
        obtain ⟨rfl, -⟩ := List.cons.inj hmore
        exact absurd (by simp) hapart.close
    · rw [List.mem_append, not_or] at hclose
      obtain ⟨href', ds'', rfl, hclose', -, hds⟩ := ih hclose.2 rfl
      refine ⟨new ++ href', ds'', by rw [List.append_assoc], by simp [hnew, hclose'], ?_, hds⟩
      simp [hne, hapart.ne_nil]

end Swapped

/-- When texts apart from references are replaced by sealed ones, all references still have a
target. -/
theorem Targeted.swapped {swap : List Char → List Char → Prop}
    (hswap : ∀ old new, swap old new → Apart old ∧ Sealed new ∧ ')' ∉ new) {cs ds : List Char} (hcs : Targeted cs)
    (h : Swapped swap cs ds) : Targeted ds := by
  have hhref : ∀ old new, swap old new → Apart old ∧ ')' ∉ new ∧ new ≠ [] := by
    intro old new hold
    obtain ⟨hapart, hsealed, hclose⟩ := hswap old new hold
    exact ⟨hapart, hclose, hsealed.ne_nil⟩
  induction hlength : cs.length using Nat.strong_induction_on generalizing cs ds with
  | _ n ih =>
    subst hlength
    cases hread : read? cs with
    | some ref =>
      obtain ⟨rest, rfl⟩ := eq_written_append hread
      obtain ⟨hbare, hrest⟩ := (targeted_written_append hread).1 hcs
      obtain ⟨hnames, own, -, hown, hwritten⟩ := read?_eq_some_iff.1 hread
      obtain ⟨href, htarget⟩ : ∃ href, ref.href = some href := by
        cases htarget : ref.href with
        | none => exact absurd (by rw [Bare, htarget, Option.getD_none]) hbare
        | some href => exact ⟨href, rfl⟩
      have hne : href ≠ [] := by
        rw [Bare, htarget, Option.getD_some] at hbare
        exact hbare
      obtain ⟨hclose, -⟩ := href?_eq_some (hown.symm.trans htarget)
      have hparts : ref.written ++ rest = (core ref.kind ref.name ++ ['(']) ++ (href ++ ')' :: rest) := by
        rw [hwritten, htarget]
        simp [target]
      have hshorter : rest.length < (ref.written ++ rest).length := by
        rw [List.length_append]
        exact Nat.lt_add_of_pos_left (List.length_pos_iff.2 (written_ne_nil hread))
      rw [hparts] at h
      obtain ⟨after, rfl, hafter⟩ := h.of_append_left fun part hpart hsuffix old new rest hold =>
        (hswap old new hold).1.core _ _ hnames part hpart hsuffix rest
      obtain ⟨href', ds', rfl, hclose', hnil, hds⟩ := hafter.of_append_close hhref hclose
      -- the reference is there again, with a target that is not empty either
      obtain ⟨again, hagain, htargetAgain, hall⟩ : ∃ again, read? (again.written ++ ds') = some again ∧
          again.href = some href' ∧
          (core ref.kind ref.name ++ ['(']) ++ (href' ++ ')' :: ds') = again.written ++ ds' := by
        refine ⟨⟨core ref.kind ref.name ++ target (some href'), ref.kind, ref.name, some href'⟩, ?_, rfl, ?_⟩
        · refine read?_eq_some_iff.2 ⟨hnames, target (some href') ++ ds', by rw [List.append_assoc], ?_, rfl⟩
          rw [target, List.append_assoc, List.singleton_append, href?_append hclose']
        · simp [target]
      rw [hall]
      refine (targeted_written_append hagain).2 ⟨fun hempty => hne (hnil.1 ?_), ih _ hshorter hrest hds rfl⟩
      rwa [Bare, htargetAgain, Option.getD_some] at hempty
    | none =>
      generalize htext : cs = text at h
      cases h with
      | nil => exact targeted_nil
      | keep c h =>
        subst htext
        have hnone := h.read?_eq_none (fun old new hold => (hswap old new hold).2.1) hread
        exact (targeted_cons hnone).2 (ih _ (Nat.lt_succ_self _) ((targeted_cons hread).1 hcs) h rfl)
      | @swap old new cs' ds' hold h =>
        subst htext
        obtain ⟨hapart, hsealed, -⟩ := hswap old new hold
        have hshorter : cs'.length < (old ++ cs').length := by
          rw [List.length_append]
          exact Nat.lt_add_of_pos_left (List.length_pos_iff.2 hapart.ne_nil)
        refine (targeted_append hsealed.start _).2 (ih _ hshorter ?_ h rfl)
        exact (targeted_append hapart.start _).1 hcs

end RefPages
