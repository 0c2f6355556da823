/-
The words of a text. Whatever is said about them here follows from one equation: white space
between two texts divides the words of the one from those of the other.
-/
import RefPages.Proofs.Text.Trim

namespace RefPages.Text

/-! ## White space between words -/

theorem wordsFrom_append_cons {c : Char} (hc : isBlank c = true) (word before after : List Char) :
    wordsFrom word (before ++ c :: after) = wordsFrom word before ++ words after := by
  induction before generalizing word with
  | nil =>
    rw [List.nil_append, wordsFrom, wordsFrom, if_pos hc]
    split <;> rfl
  | cons b before ih =>
    rw [List.cons_append, wordsFrom, wordsFrom]
    split
    · split
      · exact ih []
      · rw [ih, List.cons_append]
    · exact ih (word ++ [b])

/-- White space divides the words before it from those after it. -/
theorem words_append_cons {c : Char} (hc : isBlank c = true) (before after : List Char) :
    words (before ++ c :: after) = words before ++ words after :=
  wordsFrom_append_cons hc [] before after

theorem words_blank_cons {c : Char} (hc : isBlank c = true) (cs : List Char) : words (c :: cs) = words cs :=
  words_append_cons hc [] cs

theorem words_append_left {blanks : List Char} (h : ∀ c ∈ blanks, isBlank c = true) (cs : List Char) :
    words (blanks ++ cs) = words cs := by
  induction blanks with
  | nil => rfl
  | cons c blanks ih =>
    rw [List.forall_mem_cons] at h
    rw [List.cons_append, words_blank_cons h.1, ih h.2]

/-- White space alone has no words. -/
theorem words_eq_nil {blanks : List Char} (h : ∀ c ∈ blanks, isBlank c = true) : words blanks = [] := by
  rw [← List.append_nil blanks, words_append_left h]
  rfl

theorem words_append_right {blanks : List Char} (h : ∀ c ∈ blanks, isBlank c = true) (cs : List Char) :
    words (cs ++ blanks) = words cs := by
  cases blanks with
  | nil => rw [List.append_nil]
  | cons c blanks =>
    rw [List.forall_mem_cons] at h
    rw [words_append_cons h.1, words_eq_nil h.2, List.append_nil]

/-! ## Trimming and joining -/

/-- Trimming takes no word away. -/
theorem words_trim (cs : List Char) : words (trim cs) = words cs := by
  obtain ⟨before, after, hsplit, hbefore, hafter⟩ := exists_blanks cs
  conv_rhs => rw [hsplit, words_append_left hbefore, words_append_right hafter]

theorem words_trimEnd (cs : List Char) : words (trimEnd cs) = words cs := by
  rw [← words_trim, trim_trimEnd, words_trim]

/-- A text is blank when trimming leaves nothing of it. -/
theorem words_of_trim_eq_nil {cs : List Char} (h : trim cs = []) : words cs = [] := by
  rw [← words_trim, h]
  rfl

/-- Parts joined with white space keep their words apart. -/
theorem words_intercalate {c : Char} (hc : isBlank c = true) (parts : List (List Char)) :
    words ([c].intercalate parts) = parts.flatMap words := by
  induction parts with
  | nil => rfl
  | cons part parts ih =>
    cases parts with
    | nil => rw [List.intercalate_singleton, List.flatMap_singleton]
    | cons next parts =>
      rw [List.flatMap_cons, List.intercalate_cons_of_ne_nil (List.cons_ne_nil _ _), List.append_assoc,
        List.singleton_append, words_append_cons hc, ih]

/-- Splitting at white space cuts no word. -/
theorem words_splitOn {sep : Char} (hsep : isBlank sep = true) (cs : List Char) :
    (cs.splitOn sep).flatMap words = words cs := by
  rw [← words_intercalate hsep, List.intercalate_splitOn]

end RefPages.Text
