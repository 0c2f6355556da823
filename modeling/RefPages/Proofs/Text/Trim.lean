/-
Trimming and beginnings of texts: white space before a text does not show once it is trimmed,
and a text that begins and ends with something else is not shortened.
-/
import RefPages.Text.Blank
import Mathlib.Data.List.TakeWhile
import Mathlib.Tactic

namespace RefPages.Text

/-! ## Beginnings -/

theorem startsWith_iff {start cs : List Char} : startsWith start cs = true ↔ start <+: cs := by
  rw [startsWith, Option.isSome_iff_exists]
  constructor
  · rintro ⟨rest, h⟩
    exact ⟨rest, (after?_eq_some_iff.1 h).symm⟩
  · rintro ⟨rest, rfl⟩
    exact ⟨rest, after?_eq_some_iff.2 rfl⟩

@[simp] theorem startsWith_append (start cs : List Char) : startsWith start (start ++ cs) = true :=
  startsWith_iff.2 (List.prefix_append start cs)

@[simp] theorem startsWith_nil (cs : List Char) : startsWith [] cs = true := by
  cases cs <;> rfl

@[simp] theorem startsWith_cons_nil (s : Char) (start : List Char) :
    startsWith (s :: start) [] = false := rfl

@[simp] theorem startsWith_cons_cons (s c : Char) (start cs : List Char) :
    startsWith (s :: start) (c :: cs) = (decide (s = c) && startsWith start cs) := by
  by_cases h : s = c <;> simp [startsWith, after?, h]

@[simp] theorem after?_append (start cs : List Char) : after? start (start ++ cs) = some cs :=
  after?_eq_some_iff.2 rfl

theorem after?_eq_none_iff {start cs : List Char} : after? start cs = none ↔ startsWith start cs = false := by
  rw [startsWith, ← Option.not_isSome_iff_eq_none, Bool.not_eq_true]

/-! ## Trimming -/

theorem trimStart_append {blanks : List Char} (h : ∀ c ∈ blanks, isBlank c = true) (cs : List Char) :
    trimStart (blanks ++ cs) = trimStart cs := by
  rw [trimStart, trimStart, List.dropWhile_append_of_pos h]

theorem trim_append {blanks : List Char} (h : ∀ c ∈ blanks, isBlank c = true) (cs : List Char) :
    trim (blanks ++ cs) = trim cs := by
  rw [trim, trim, trimStart_append h]

theorem trimEnd_append (as bs : List Char) :
    trimEnd (as ++ bs) = if trimEnd bs = [] then trimEnd as else as ++ trimEnd bs := by
  unfold trimEnd trimStart
  rw [List.reverse_append, List.dropWhile_append]
  by_cases h : bs.reverse.dropWhile isBlank = []
  · simp [h]
  · simp [h]

/-- Nothing is trimmed after a character that is no white space. -/
theorem trimEnd_concat {c : Char} (hc : isBlank c = false) (cs : List Char) : trimEnd (cs ++ [c]) = cs ++ [c] := by
  simp [trimEnd, trimStart, hc]

/-- Only what comes before a character that is no white space is trimmed away before it. -/
theorem trimStart_append_cons {c : Char} (hc : isBlank c = false) (before rest : List Char) :
    trimStart (before ++ c :: rest) = trimStart before ++ c :: rest := by
  rw [trimStart, List.dropWhile_append, List.dropWhile_cons_of_neg (by simp [hc]), trimStart]
  split
  · rename_i hempty
    rw [List.isEmpty_iff.1 hempty, List.nil_append]
  · rfl

theorem trimEnd_append_blanks {blanks : List Char} (h : ∀ c ∈ blanks, isBlank c = true) (cs : List Char) :
    trimEnd (cs ++ blanks) = trimEnd cs := by
  have hblanks : trimEnd blanks = [] := by
    rw [trimEnd, trimStart, List.dropWhile_eq_nil_iff.2 fun c hc => h c (List.mem_reverse.1 hc)]
    rfl
  rw [trimEnd_append, if_pos hblanks]

theorem trim_append_blanks {blanks : List Char} (h : ∀ c ∈ blanks, isBlank c = true) (cs : List Char) :
    trim (cs ++ blanks) = trim cs := by
  rw [trim, trim, trimStart, trimStart, List.dropWhile_append]
  split
  · rename_i hcs
    rw [List.isEmpty_iff.1 hcs, List.dropWhile_eq_nil_iff.2 h]
  · exact trimEnd_append_blanks h _

/-- Only white space before a text between two other characters is trimmed away. -/
theorem trim_between {c d : Char} (hc : isBlank c = false) (hd : isBlank d = false) (before between : List Char) :
    trim (before ++ c :: (between ++ [d])) = trimStart before ++ c :: (between ++ [d]) := by
  rw [trim, trimStart_append_cons hc, ← List.cons_append, ← List.append_assoc, trimEnd_concat hd]

/-- A text is what is left of it by trimming, between white space. -/
theorem exists_blanks (cs : List Char) :
    ∃ before after, cs = before ++ (trim cs ++ after) ∧ (∀ c ∈ before, isBlank c = true) ∧
      ∀ c ∈ after, isBlank c = true := by
  refine ⟨cs.takeWhile isBlank, ((trimStart cs).reverse.takeWhile isBlank).reverse, ?_, fun c => List.mem_takeWhile_imp,
    fun c hc => List.mem_takeWhile_imp (List.mem_reverse.1 hc)⟩
  rw [trim, trimEnd, trimStart, ← List.reverse_append, List.takeWhile_append_dropWhile, List.reverse_reverse, trimStart,
    List.takeWhile_append_dropWhile]

/-- A text without white space at its beginning and its end. -/
structure Solid (cs : List Char) : Prop where
  first : ∃ c rest, cs = c :: rest ∧ isBlank c = false
  last : ∃ rest c, cs = rest ++ [c] ∧ isBlank c = false

theorem Solid.ne_nil {cs : List Char} (h : Solid cs) : cs ≠ [] := by
  obtain ⟨c, rest, rfl, -⟩ := h.first
  exact List.cons_ne_nil c rest

theorem Solid.trimStart_eq {cs : List Char} (h : Solid cs) : trimStart cs = cs := by
  obtain ⟨c, rest, rfl, hc⟩ := h.first
  simp [trimStart, hc]

theorem Solid.trimEnd_eq {cs : List Char} (h : Solid cs) (before : List Char) :
    trimEnd (before ++ cs) = before ++ cs := by
  obtain ⟨rest, c, rfl, hc⟩ := h.last
  rw [← List.append_assoc, trimEnd_concat hc]

/-- Trimming leaves a solid text after white space. -/
theorem Solid.trim_eq {cs : List Char} (h : Solid cs) {blanks : List Char}
    (hblanks : ∀ c ∈ blanks, isBlank c = true) : trim (blanks ++ cs) = cs := by
  rw [trim_append hblanks, trim, h.trimStart_eq]
  exact h.trimEnd_eq []

theorem Solid.append {as bs : List Char} (ha : Solid as) (hb : Solid bs) (between : List Char) :
    Solid (as ++ between ++ bs) := by
  obtain ⟨c, rest, rfl, hc⟩ := ha.first
  obtain ⟨rest', d, rfl, hd⟩ := hb.last
  exact ⟨⟨c, rest ++ between ++ (rest' ++ [d]), by simp, hc⟩,
    ⟨c :: rest ++ between ++ rest', d, by simp, hd⟩⟩

theorem isPrefix_trimEnd (cs : List Char) : trimEnd cs <+: cs := by
  rw [← List.reverse_suffix, trimEnd, List.reverse_reverse]
  exact List.dropWhile_suffix isBlank

theorem mem_of_mem_trim {c : Char} {cs : List Char} (h : c ∈ trim cs) : c ∈ cs :=
  (List.dropWhile_suffix isBlank).subset ((isPrefix_trimEnd (trimStart cs)).subset h)

/-- What is left at the end of a text by trimming is no white space. -/
theorem exists_last_trimEnd {cs : List Char} (h : trimEnd cs ≠ []) :
    ∃ rest c, trimEnd cs = rest ++ [c] ∧ isBlank c = false := by
  rw [trimEnd, trimStart] at h ⊢
  cases hdrop : cs.reverse.dropWhile isBlank with
  | nil => simp [hdrop] at h
  | cons c rest =>
    have hc := List.head?_dropWhile_not isBlank cs.reverse
    rw [hdrop] at hc
    exact ⟨rest.reverse, c, List.reverse_cons, by simpa using hc⟩

theorem trim_trimEnd (cs : List Char) : trim (trimEnd cs) = trim cs := by
  have hsplit : cs = trimEnd cs ++ (cs.reverse.takeWhile isBlank).reverse := by
    rw [trimEnd, trimStart, ← List.reverse_append, List.takeWhile_append_dropWhile, List.reverse_reverse]
  conv_rhs => rw [hsplit]
  exact (trim_append_blanks (fun c hc => List.mem_takeWhile_imp (List.mem_reverse.1 hc)) _).symm

theorem trim_trim (cs : List Char) : trim (trim cs) = trim cs := by
  have hstart : trim (cs.takeWhile isBlank ++ trimStart cs) = trim (trimStart cs) :=
    trim_append (fun c hc => List.mem_takeWhile_imp hc) _
  rw [trimStart, List.takeWhile_append_dropWhile] at hstart
  rw [trim.eq_1 cs, trim_trimEnd]
  exact hstart.symm

/-- Whether a text begins with a solid one shows before the white space after it is trimmed. -/
theorem startsWith_trim_eq {start : List Char} (h : Solid start) (cs : List Char) :
    startsWith start (trim cs) = startsWith start (trimStart cs) := by
  rw [Bool.eq_iff_iff]
  constructor
  · intro hstart
    exact startsWith_iff.2 ((startsWith_iff.1 hstart).trans (isPrefix_trimEnd _))
  · intro hstart
    obtain ⟨rest, hrest⟩ := startsWith_iff.1 hstart
    rw [trim, ← hrest, trimEnd_append]
    split
    · have := h.trimEnd_eq []
      rw [List.nil_append] at this
      rw [this]
      exact startsWith_iff.2 (List.prefix_refl _)
    · exact startsWith_append _ _

/-- A beginning without white space at its end is not trimmed away. -/
theorem startsWith_trim {start : List Char} (h : Solid start) {blanks : List Char}
    (hblanks : ∀ c ∈ blanks, isBlank c = true) (cs : List Char) :
    startsWith start (trim (blanks ++ start ++ cs)) = true := by
  rw [List.append_assoc, trim_append hblanks, startsWith_trim_eq h]
  obtain ⟨c, rest, rfl, hc⟩ := h.first
  have hstart : trimStart (c :: rest ++ cs) = c :: rest ++ cs := by simp [trimStart, hc]
  rw [hstart]
  exact startsWith_append _ _

/-! ## Splitting and joining -/

/-- What comes after the last separator is the end of the last part. -/
theorem splitOn_append_of_not_mem {sep : Char} {bs : List Char} (h : sep ∉ bs) (as : List Char) :
    ∃ parts last, (as ++ bs).splitOn sep = parts ++ [last ++ bs] := by
  induction as with
  | nil => exact ⟨[], [], List.splitOn_eq_singleton h⟩
  | cons a as ih =>
    obtain ⟨parts, last, hparts⟩ := ih
    rw [List.cons_append, List.splitOn_cons_eq_if_modifyHead, hparts]
    split
    · exact ⟨[] :: parts, last, rfl⟩
    · cases parts with
      | nil => exact ⟨[], a :: last, rfl⟩
      | cons part parts => exact ⟨(a :: part) :: parts, last, rfl⟩

theorem not_mem_splitOn {sep : Char} (cs : List Char) : ∀ part ∈ cs.splitOn sep, sep ∉ part := by
  induction cs with
  | nil => simp
  | cons c cs ih =>
    rw [List.splitOn_cons_eq_if_modifyHead]
    split
    · simpa using ih
    · rename_i hc
      obtain ⟨first, rest, heq⟩ := List.exists_cons_of_ne_nil (List.splitOn_ne_nil sep cs)
      rw [heq, List.forall_mem_cons] at ih
      rw [heq, List.modifyHead_cons, List.forall_mem_cons, List.mem_cons, not_or]
      exact ⟨⟨fun hsep => hc (beq_iff_eq.2 hsep.symm), ih.1⟩, ih.2⟩

theorem intercalate_append {sep : List Char} {parts others : List (List Char)} (hne : parts ≠ [])
    (hne' : others ≠ []) :
    sep.intercalate (parts ++ others) = sep.intercalate parts ++ sep ++ sep.intercalate others := by
  induction parts with
  | nil => exact absurd rfl hne
  | cons part parts ih =>
    cases parts with
    | nil => rw [List.singleton_append, List.intercalate_cons_of_ne_nil hne', List.intercalate_singleton]
    | cons next parts =>
      rw [List.cons_append, List.intercalate_cons_of_ne_nil (by simp), ih (List.cons_ne_nil _ _),
        List.intercalate_cons_of_ne_nil (List.cons_ne_nil _ _)]
      simp only [List.append_assoc]

theorem intercalate_append_singleton {sep : List Char} {parts : List (List Char)} (hne : parts ≠ [])
    (last : List Char) : sep.intercalate (parts ++ [last]) = sep.intercalate parts ++ sep ++ last := by
  rw [intercalate_append hne (List.cons_ne_nil _ _), List.intercalate_singleton]

/-- The lines of a text are those it was joined from, and an empty one after the last line end. -/
theorem splitOn_intercalate_append {sep : Char} {parts : List (List Char)} (hne : parts ≠ [])
    (h : ∀ part ∈ parts, sep ∉ part) :
    ([sep].intercalate parts ++ [sep]).splitOn sep = parts ++ [[]] := by
  rw [List.splitOn_append_cons_self, List.splitOn_intercalate sep h hne, List.splitOn_nil]

/-- Texts without the separator in them are told apart by what they are joined to. -/
theorem intercalate_inj {sep : Char} {parts parts' : List (List Char)} (hne : parts ≠ []) (hne' : parts' ≠ [])
    (h : ∀ part ∈ parts, sep ∉ part) (h' : ∀ part ∈ parts', sep ∉ part) :
    [sep].intercalate parts = [sep].intercalate parts' ↔ parts = parts' := by
  constructor
  · intro heq
    rw [← List.splitOn_intercalate sep h hne, heq, List.splitOn_intercalate sep h' hne']
  · rintro rfl
    rfl

theorem not_mem_intercalate {c : Char} {sep : List Char} {parts : List (List Char)} (hsep : c ∉ sep)
    (h : ∀ part ∈ parts, c ∉ part) : c ∉ sep.intercalate parts := by
  induction parts with
  | nil => simp
  | cons part parts ih =>
    obtain ⟨hpart, hparts⟩ := List.forall_mem_cons.1 h
    cases parts with
    | nil => rwa [List.intercalate_singleton]
    | cons next parts =>
      rw [List.intercalate_cons_of_ne_nil (List.cons_ne_nil _ _), List.mem_append, List.mem_append]
      rintro ((hc | hc) | hc)
      · exact hpart hc
      · exact hsep hc
      · exact ih hparts hc

end RefPages.Text
