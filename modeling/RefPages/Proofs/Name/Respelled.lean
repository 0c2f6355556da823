/-
Identifiers spelled with underscores or hyphens have the words of the identifier they were made from. Between
the words stands a character that is in none of them, and in a word of small letters and digits there is no
place where another word begins.
-/
import RefPages.Proofs.Name.Words

namespace RefPages

namespace Text

/-! ## Letters of ASCII -/

/-- What holds of the first 128 characters, one by one, holds of all of ASCII. -/
theorem forall_ascii {P : Char → Prop} (h : ∀ n < 128, P (Char.ofNat n)) {c : Char} (hc : c.toNat < 128) : P c := by
  have hchar := h c.toNat hc
  rwa [Char.ofNat_toNat] at hchar

/-- A small letter or a digit of ASCII. -/
def IsPlainSmall (c : Char) : Prop := c.isLower = true ∨ c.isDigit = true

theorem isPlainSmall_lowerChar {c : Char} (hc : c.toNat < 128) (halnum : isAlphanumeric c = true) :
    ∀ small ∈ lowerChar c, IsPlainSmall small := by
  have htoLower : ∀ n < 128, (Char.ofNat n).isAlphanum = true →
      (Char.ofNat n).toLower.isLower = true ∨ (Char.ofNat n).toLower.isDigit = true := by decide
  rw [isAlphanumeric, if_pos hc] at halnum
  rw [lowerChar, if_pos hc]
  exact List.forall_mem_singleton.2 (forall_ascii (P := fun c => c.isAlphanum = true → IsPlainSmall c.toLower)
    htoLower hc halnum)

theorem IsPlainSmall.lt {c : Char} (h : IsPlainSmall c) : c.toNat < 128 := by
  have htoNat : c.toNat = c.val.toNat := rfl
  rcases h with h | h
  · simp only [Char.isLower, Bool.and_eq_true, decide_eq_true_eq, ge_iff_le, UInt32.le_iff_toNat_le] at h
    have hz : 'z'.val.toNat = 122 := rfl
    omega
  · have := Char.isDigit_iff_toNat.1 h
    have h9 : '9'.toNat = 57 := rfl
    omega

end Text

namespace Name

open Text

/-! ## Words taken apart -/

/-- A letter or a digit at which no word begins and which is its own small form. -/
structure Stays (c : Char) : Prop where
  alphanumeric : isAlphanumeric c = true
  notCapital : isUppercase c = false
  small : lowerChar c = [c]

/-- A character that is in no word and after which a word is read as at the end of a text. -/
structure Divides (c : Char) : Prop where
  notAlphanumeric : isAlphanumeric c = false
  notSmall : isLowercase c = false

theorem stays_of_isPlainSmall {c : Char} (h : IsPlainSmall c) : Stays c := by
  have hall : isAlphanumeric c = true ∧ isUppercase c = false ∧ lowerChar c = [c] :=
    forall_ascii (P := fun c => c.isLower = true ∨ c.isDigit = true →
      isAlphanumeric c = true ∧ isUppercase c = false ∧ lowerChar c = [c]) (by decide) h.lt h
  exact ⟨hall.1, hall.2.1, hall.2.2⟩

/-- Before a word has begun, the character read last does not matter. -/
theorem wordsFrom_nil (previous : Char) (cs : List Char) : wordsFrom [] previous cs = words cs := by
  cases cs <;> simp [words, wordsFrom]

/-- Characters that stay in a word are added to the word read so far. -/
theorem wordsFrom_of_stays {cs : List Char} (h : ∀ c ∈ cs, Stays c) (word : List Char) (previous : Char) :
    wordsFrom word previous cs = finished (word ++ cs) := by
  induction cs generalizing word previous with
  | nil => rw [wordsFrom, List.append_nil]
  | cons c cs ih =>
    obtain ⟨hc, hcs⟩ := List.forall_mem_cons.1 h
    rw [List.append_cons, ← ih hcs (word ++ [c]) c, wordsFrom, hc.alphanumeric, hc.notCapital, hc.small]
    rfl

/-- A character that divides words ends the one before it, and the words after it are those of a text of its own. -/
theorem wordsFrom_append_cons {sep : Char} (hsep : Divides sep) (word : List Char) (previous : Char)
    (before after : List Char) :
    wordsFrom word previous (before ++ sep :: after) = wordsFrom word previous before ++ words after := by
  induction before generalizing word previous with
  | nil =>
    rw [List.nil_append, wordsFrom, wordsFrom, hsep.notAlphanumeric, wordsFrom_nil]
    rfl
  | cons c before ih =>
    -- a capital looks at the next character, which may be the one that divides
    have hnext : beginsWord previous (before ++ sep :: after) = beginsWord previous before := by
      cases before with
      | nil => simp [beginsWord, hsep.notSmall]
      | cons => rfl
    rw [List.cons_append, wordsFrom, wordsFrom, hnext]
    split
    · rw [ih, List.append_assoc]
    · split
      · rw [ih, List.cons_append]
      · exact ih _ _

theorem words_append_cons {sep : Char} (hsep : Divides sep) (before after : List Char) :
    words (before ++ sep :: after) = words before ++ words after :=
  wordsFrom_append_cons hsep [] ' ' before after

/-- Words of characters that stay in them are found again where they are joined by one that divides them. -/
theorem words_intercalate {sep : Char} (hsep : Divides sep) {parts : List (List Char)}
    (h : ∀ part ∈ parts, part ≠ [] ∧ ∀ c ∈ part, Stays c) : words ([sep].intercalate parts) = parts := by
  induction parts with
  | nil => rfl
  | cons part parts ih =>
    obtain ⟨⟨hne, hpart⟩, hparts⟩ := List.forall_mem_cons.1 h
    have halone : words part = [part] := by
      rw [words, wordsFrom_of_stays hpart, List.nil_append, finished, if_neg hne]
    cases parts with
    | nil => rw [List.intercalate_singleton, halone]
    | cons next parts =>
      rw [List.intercalate_cons_of_ne_nil (List.cons_ne_nil _ _), List.append_assoc, List.singleton_append,
        words_append_cons hsep, halone, ih hparts, List.singleton_append]

/-! ## Words of an identifier -/

theorem ne_nil_of_mem_wordsFrom {word : List Char} {previous : Char} {cs w : List Char}
    (hw : w ∈ wordsFrom word previous cs) : w ≠ [] := by
  induction cs generalizing word previous with
  | nil =>
    obtain ⟨rfl, hne⟩ := eq_of_mem_finished hw
    exact hne
  | cons c cs ih =>
    rw [wordsFrom] at hw
    split at hw
    · rcases List.mem_append.1 hw with hw | hw
      · obtain ⟨rfl, hne⟩ := eq_of_mem_finished hw
        exact hne
      · exact ih hw
    · split at hw
      · rename_i hbegins
        rcases List.mem_cons.1 hw with rfl | hw
        · rintro rfl
          simp at hbegins
        · exact ih hw
      · exact ih hw

variable {name : String}

/-- The words of an identifier in ASCII are made of small letters and digits. -/
theorem isPlainSmall_of_mem_words {cs w : List Char} (hcs : ∀ c ∈ cs, c.toNat < 128) (hw : w ∈ words cs) :
    ∀ c ∈ w, IsPlainSmall c :=
  forall_mem_of_mem_wordsFrom (List.forall_mem_nil _) (fun c hc => isPlainSmall_lowerChar (hcs c hc)) hw

theorem words_intercalate_words {sep : Char} (hsep : Divides sep) {cs : List Char} (hcs : ∀ c ∈ cs, c.toNat < 128) :
    words ([sep].intercalate (words cs)) = words cs :=
  words_intercalate hsep fun _ hw =>
    ⟨ne_nil_of_mem_wordsFrom hw, fun c hc => stays_of_isPlainSmall (isPlainSmall_of_mem_words hcs hw c hc)⟩

theorem divides_underscore : Divides '_' := ⟨by decide, by decide⟩

theorem divides_hyphen : Divides '-' := ⟨by decide, by decide⟩

theorem words_snakeCase (h : ∀ c ∈ name.toList, c.toNat < 128) :
    words (snakeCase name).toList = words name.toList := by
  rw [snakeCase, String.toList_ofList, words_intercalate_words divides_underscore h]

theorem words_kebabCase (h : ∀ c ∈ name.toList, c.toNat < 128) :
    words (kebabCase name).toList = words name.toList := by
  rw [kebabCase, String.toList_ofList, words_intercalate_words divides_hyphen h]

/-- Words of an identifier in ASCII are not empty, are made of small letters and digits, and are found again in
what they are joined to. So an identifier may be respelled again and again, and what is made of it does not
depend on how it is spelled. -/
theorem words_respelled (h : ∀ c ∈ name.toList, c.toNat < 128) :
    (∀ word ∈ words name.toList, word ≠ [] ∧ ∀ c ∈ word, c.isLower = true ∨ c.isDigit = true) ∧
      words (['_'].intercalate (words name.toList)) = words name.toList ∧
      words (['-'].intercalate (words name.toList)) = words name.toList ∧
      snakeCase (snakeCase name) = snakeCase name ∧ kebabCase (kebabCase name) = kebabCase name ∧
      kebabCase (snakeCase name) = kebabCase name := by
  refine ⟨fun word hword => ⟨ne_nil_of_mem_wordsFrom hword, isPlainSmall_of_mem_words h hword⟩,
    words_intercalate_words divides_underscore h, words_intercalate_words divides_hyphen h, ?_, ?_, ?_⟩
  · rw [snakeCase, words_snakeCase h, snakeCase]
  · rw [kebabCase, words_kebabCase h, kebabCase]
  · rw [kebabCase, words_snakeCase h, kebabCase]

/-- Capitals in a row, digits and several separators next to each other. -/
theorem words_respelled_acronym :
    let name := "getHTTP2Response__V10-b.XYZ"
    (∀ c ∈ name.toList, c.toNat < 128) ∧
      words name.toList = ["get", "http2", "response", "v10", "b", "xyz"].map String.toList ∧
      snakeCase (snakeCase name) = "get_http2_response_v10_b_xyz" ∧
      kebabCase (snakeCase name) = "get-http2-response-v10-b-xyz" := by
  intro name
  have hname : ∀ c ∈ name.toList, c.toNat < 128 := by simp [name]
  obtain ⟨-, -, -, hsnake, -, hkebab⟩ := words_respelled hname
  exact ⟨hname, by decide +kernel, hsnake.trans (by decide +kernel), hkebab.trans (by decide +kernel)⟩

end Name

end RefPages
