/-
References in a text: where they are found, and what a text in which they are replaced begins with.
-/
import RefPages.Api.Reference
import RefPages.Proofs.Fallible

namespace RefPages

open Text

/-! ## Parts of a text -/

section

variable {α ε : Type} {read? : List Char → Option α} {written : α → List Char}

/-- The characters of a reference are passed over. -/
theorem piecesFrom_eq_drop (skip : Nat) (cs : List Char) :
    piecesFrom read? written skip cs = piecesFrom read? written 0 (cs.drop skip) := by
  induction skip generalizing cs with
  | zero => rfl
  | succ skip ih =>
    cases cs with
    | nil => rfl
    | cons c cs => exact ih cs

theorem piecesFrom_cons_none {c : Char} {cs : List Char} (h : read? (c :: cs) = none) :
    piecesFrom read? written 0 (c :: cs) = .plain c :: piecesFrom read? written 0 cs := by
  rw [piecesFrom, h]

theorem piecesFrom_cons_some {c : Char} {cs : List Char} {ref : α} (h : read? (c :: cs) = some ref) :
    piecesFrom read? written 0 (c :: cs) =
      .reference ref :: piecesFrom read? written ((written ref).length - 1) cs := by
  rw [piecesFrom, h]

/-- A reference at the beginning is the first part, and the rest has the other parts. -/
theorem piecesFrom_written_append {ref : α} {rest : List Char} (hne : written ref ≠ [])
    (h : read? (written ref ++ rest) = some ref) :
    piecesFrom read? written 0 (written ref ++ rest) = .reference ref :: piecesFrom read? written 0 rest := by
  obtain ⟨c, cs, hcs⟩ := List.exists_cons_of_ne_nil hne
  rw [hcs, List.cons_append] at h ⊢
  rw [piecesFrom_cons_some h, piecesFrom_eq_drop, hcs, List.length_cons, Nat.add_sub_cancel, List.drop_left]

/-- References begin with a bracket. -/
def Bracketed (read? : List Char → Option α) : Prop :=
  ∀ cs ref, read? cs = some ref → cs.head? = some '['

/-- A text without brackets has no references. -/
theorem piecesFrom_eq_plain (hread : Bracketed read?) {cs : List Char} (hcs : '[' ∉ cs) :
    piecesFrom read? written 0 cs = cs.map .plain := by
  induction cs with
  | nil => rfl
  | cons c cs ih =>
    rw [List.mem_cons, not_or] at hcs
    have hnone : read? (c :: cs) = none := by
      cases h : read? (c :: cs) with
      | none => rfl
      | some ref => exact absurd (Option.some.inj (hread _ ref h)).symm hcs.1
    rw [piecesFrom_cons_none hnone, ih hcs.2, List.map_cons]

/-! ## Replacing -/

variable {replacement : α → Except ε (List Char)}

theorem tryReplace_plain (cs : List Char) : tryReplace replacement (cs.map .plain) = .ok cs := by
  induction cs with
  | nil => rfl
  | cons c cs ih =>
    rw [List.map_cons, tryReplace, ih]
    rfl

/-- Replacing that always succeeds is replacing. -/
theorem tryReplace_ok (replacement : α → List Char) (pieces : List (Piece α)) :
    tryReplace (fun ref => .ok (ε := ε) (replacement ref)) pieces = .ok (replace replacement pieces) := by
  induction pieces with
  | nil => rfl
  | cons piece pieces ih =>
    cases piece with
    | plain c =>
      rw [tryReplace, ih]
      rfl
    | reference ref =>
      rw [tryReplace, ih]
      rfl

/-- A text that stands out from running text by its first character. -/
def Marked (text : List Char) : Prop := text.head? = some '[' ∨ text.head? = some '\x60'

theorem Marked.append {text : List Char} (h : Marked text) (rest : List Char) : Marked (text ++ rest) := by
  unfold Marked
  rw [List.head?_append]
  rcases h with h | h
  · exact .inl (by rw [h]; rfl)
  · exact .inr (by rw [h]; rfl)

theorem Marked.not_startsWith {start : List Char} {s : Char} {text : List Char} (h : Marked text)
    (hbracket : s ≠ '[') (htick : s ≠ '\x60') : startsWith (s :: start) text = false := by
  cases text with
  | nil => rfl
  | cons c text =>
    have hne : s ≠ c := by
      rcases h with h | h <;> cases h <;> assumption
    rw [startsWith, after?, if_neg hne]
    rfl

/-- When replacements stand out, a text begins with plain characters only if it did so before. -/
theorem startsWith_of_tryReplace (hmarked : ∀ cs ref new, read? cs = some ref → replacement ref = .ok new → Marked new)
    {start : List Char} (hbracket : '[' ∉ start) (htick : '\x60' ∉ start) {cs out : List Char}
    (h : tryReplace replacement (piecesFrom read? written 0 cs) = .ok out) (hout : startsWith start out = true) :
    startsWith start cs = true := by
  induction start generalizing cs out with
  | nil => rfl
  | cons s start ih =>
    rw [List.mem_cons, not_or] at hbracket htick
    cases cs with
    | nil =>
      cases h
      cases hout
    | cons c cs =>
      cases hread : read? (c :: cs) with
      | some ref =>
        rw [piecesFrom_cons_some hread, tryReplace] at h
        obtain ⟨new, hnew, h⟩ := bind_eq_ok.1 h
        obtain ⟨rest, -, h⟩ := bind_eq_ok.1 h
        cases h
        have hstands : startsWith (s :: start) (new ++ rest) = false :=
          ((hmarked _ ref new hread hnew).append rest).not_startsWith (Ne.symm hbracket.1) (Ne.symm htick.1)
        exact absurd hout (by rw [hstands]; decide)
      | none =>
        rw [piecesFrom_cons_none hread, tryReplace] at h
        obtain ⟨rest, hrest, h⟩ := bind_eq_ok.1 h
        cases h
        rw [startsWith, after?] at hout ⊢
        by_cases hs : s = c
        · rw [if_pos hs] at hout ⊢
          exact ih hbracket.2 htick.2 hrest hout
        · rw [if_neg hs] at hout
          cases hout

end

/-! ## The two kinds of references -/

namespace Reference

/-- A reference to a member is written as it is read. -/
theorem read?_eq_some {cs : List Char} {ref : Reference} (h : read? cs = some ref) :
    ref.written = core ref.kind ref.name ++ target ref.href := by
  unfold read? at h
  split at h
  · split at h
    · split at h
      · split at h
        · cases h
        · cases h
          rfl
      · cases h
    · cases h
  · cases h

theorem bracketed_read? : Bracketed read? := by
  intro cs ref h
  unfold read? at h
  split at h
  · rfl
  · cases h

theorem marked_written {cs : List Char} {ref : Reference} (h : read? cs = some ref) : Marked ref.written := by
  rw [read?_eq_some h]
  exact .inl rfl

end Reference

namespace ClassReference

theorem bracketed_read? : Bracketed read? := by
  intro cs ref h
  unfold read? at h
  split at h
  · rfl
  · cases h

theorem marked_written (ref : ClassReference) : Marked ref.written := .inl rfl

end ClassReference

end RefPages
