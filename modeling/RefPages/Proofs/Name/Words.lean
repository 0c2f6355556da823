/-
No word of an identifier has a hyphen in it, so identifiers in kebab case can be taken apart into
their words again.
-/
import Mathlib
import RefPages.Name.Words
import RefPages.Proofs.Text.Trim

namespace RefPages

namespace Text

/-! ## Small letters -/

theorem hyphen_of_ofNat {n : Nat} (h : Char.ofNat n = '-') : n = 45 := by
  unfold Char.ofNat at h
  split at h
  · have hcode := congrArg Char.toNat h
    simp only [Char.ofNatAux, Char.toNat] at hcode
    exact hcode
  · exact absurd h (by decide)

/-- The small form of a letter or a digit is not a hyphen. -/
theorem hyphen_notMem_lowerChar {c : Char} (h : isAlphanumeric c = true) : '-' ∉ lowerChar c := by
  unfold lowerChar
  intro hmem
  split at hmem
  · rename_i hascii
    rw [isAlphanumeric, if_pos hascii] at h
    have hlower : ∀ n < 128, (Char.ofNat n).isAlphanum = true → (Char.ofNat n).toLower ≠ '-' := by
      decide
    have hc := hlower c.toNat hascii
    rw [Char.ofNat_toNat] at hc
    exact hc h (List.mem_singleton.1 hmem).symm
  · rename_i hascii
    unfold mapped at hmem
    split at hmem
    · rename_i cs hlong
      have hforms : ∀ form ∈ longSmallForms, '-' ∉ form.2.map Char.ofNat := by decide
      obtain ⟨before, after, heq, -⟩ := List.lookup_eq_some_iff.1 hlong
      exact hforms (c.toNat, cs) (by rw [heq]; simp) hmem
    · split at hmem
      · rename_i run image hrun
        have himages : ∀ form ∈ smallForms, 45 < form.2 := by decide +kernel
        have himage : 45 < image := himages _ (List.mem_of_find?_eq_some hrun)
        have hcode := hyphen_of_ofNat (List.mem_singleton.1 hmem).symm
        omega
      · obtain rfl := List.mem_singleton.1 hmem
        exact hascii (by decide)

end Text

namespace Name

open Text

/-! ## Words -/

theorem eq_of_mem_finished {word w : List Char} (hw : w ∈ finished word) : w = word ∧ word ≠ [] := by
  unfold finished at hw
  split at hw
  · cases hw
  · exact ⟨List.mem_singleton.1 hw, ‹_›⟩

/-- What holds of the characters read so far, and of the small forms of all letters and digits to come, holds of
the characters of every word. -/
theorem forall_mem_of_mem_wordsFrom {P : Char → Prop} {word : List Char} {previous : Char} {cs w : List Char}
    (hword : ∀ c ∈ word, P c) (hcs : ∀ c ∈ cs, isAlphanumeric c = true → ∀ small ∈ lowerChar c, P small)
    (hw : w ∈ wordsFrom word previous cs) : ∀ c ∈ w, P c := by
  induction cs generalizing word previous with
  | nil => rwa [(eq_of_mem_finished hw).1]
  | cons c cs ih =>
    rw [List.forall_mem_cons] at hcs
    rw [wordsFrom] at hw
    split at hw
    · rcases List.mem_append.1 hw with hw | hw
      · rwa [(eq_of_mem_finished hw).1]
      · exact ih (List.forall_mem_nil _) hcs.2 hw
    · rename_i halnum
      have hsmall : ∀ small ∈ lowerChar c, P small := hcs.1 (by simpa using halnum)
      split at hw
      · rcases List.mem_cons.1 hw with rfl | hw
        · exact hword
        · exact ih hsmall hcs.2 hw
      · exact ih (List.forall_mem_append.2 ⟨hword, hsmall⟩) hcs.2 hw

/-- No word of an identifier has a hyphen in it. -/
theorem hyphen_notMem_of_mem_words {cs w : List Char} (hw : w ∈ words cs) : '-' ∉ w := by
  intro hmem
  refine forall_mem_of_mem_wordsFrom (P := (· ≠ '-')) (List.forall_mem_nil _) (fun c _ halnum small hsmall => ?_) hw
    '-' hmem rfl
  rintro rfl
  exact hyphen_notMem_lowerChar halnum hsmall

end Name

end RefPages
