/-
Wrapped paragraphs. The lines of a wrapped text are cut from its words: the first line begins after
the lead, every other one after as many blanks, with a word that may go on with a paragraph, and no
other line holds a link target definition. So whoever joins lines again finds the text as it was.
-/
import RefPages.Proofs.Markup.Legible

namespace RefPages.Markup

open RefPages.Text

/-! ## Words -/

/-- Words without white space in them. -/
def AreWords (words : List (List Char)) : Prop :=
  words ≠ [] ∧ ∀ word ∈ words, word ≠ [] ∧ ∀ c ∈ word, isBlank c = false

theorem isWords_iff {text : String} :
    IsWords text ↔ ∃ words, AreWords words ∧ text.toList = [' '].intercalate words := by
  simp [IsWords, AreWords, and_assoc]

theorem AreWords.solid {words : List (List Char)} (h : AreWords words) : Solid ([' '].intercalate words) :=
  solid_intercalate h.1 h.2

theorem AreWords.of_subset {words part : List (List Char)} (h : AreWords words) (hne : part ≠ [])
    (hpart : part ⊆ words) : AreWords part :=
  ⟨hne, fun word hword => h.2 word (hpart hword)⟩

theorem AreWords.not_mem {words : List (List Char)} (h : AreWords words) {c : Char} (hc : isBlank c = true)
    (hspace : c ≠ ' ') : c ∉ [' '].intercalate words :=
  not_mem_intercalate (by simpa using hspace) fun word hword hmem => by
    rw [(h.2 word hword).2 c hmem] at hc
    cases hc

theorem byteCount_spaces (n : Nat) : byteCount (spaces n) = n := by
  induction n with
  | zero => rfl
  | succ n ih =>
    rw [spaces, List.replicate_succ, byteCount, ← spaces, ih, show (' ' : Char).utf8Size = 1 by decide, Nat.add_comm]

/-! ## Lines cut from words -/

/-- A part of a text on a line of its own, which goes on with the paragraph above it. -/
structure Continues (indent : List Char) (part : List (List Char)) : Prop where
  words : AreWords part
  first : ∀ word ∈ part.head?, beginsBlock word = false
  undefined : isLinkDefinition (indent ++ [' '].intercalate part) = false

/-- The words of a text cut into those of its first line and those of the lines that go on with it. -/
structure Cut (indent : List Char) (words first : List (List Char)) (rest : List (List (List Char))) : Prop where
  whole : first ++ rest.flatten = words
  filled : first ≠ []
  continues : ∀ part ∈ rest, Continues indent part

/-- Lines with words on them, the first after `lead` and the others after `indent`. -/
def laid (lead indent : List Char) (first : List (List Char)) (rest : List (List (List Char))) :
    List (List Char) :=
  (lead ++ [' '].intercalate first) :: rest.map (indent ++ [' '].intercalate ·)

theorem intercalate_map_intercalate {sep : List Char} {cut : List (List (List Char))} (h : ∀ words ∈ cut, words ≠ []) :
    sep.intercalate (cut.map sep.intercalate) = sep.intercalate cut.flatten := by
  induction cut with
  | nil => rfl
  | cons words cut ih =>
    obtain ⟨hwords, hcut⟩ := List.forall_mem_cons.1 h
    cases cut with
    | nil => simp
    | cons next cut =>
      have hne : (next :: cut).flatten ≠ [] := by
        simp [(List.forall_mem_cons.1 hcut).1]
      rw [List.map_cons, List.intercalate_cons_of_ne_nil (by simp), ih hcut, ← intercalate_append hwords hne]
      rfl

/-- Joining the lines again gives the text after its lead. -/
theorem intercalate_laid {lead : List Char} {first : List (List Char)} {rest : List (List (List Char))}
    (hfirst : first ≠ []) (hrest : ∀ words ∈ rest, words ≠ []) :
    [' '].intercalate ((lead ++ [' '].intercalate first) :: rest.map ([' '].intercalate)) =
      lead ++ [' '].intercalate (first ++ rest.flatten) := by
  cases rest with
  | nil => simp
  | cons words rest =>
    have hne : (words :: rest).flatten ≠ [] := by
      simp [(List.forall_mem_cons.1 hrest).1]
    rw [List.intercalate_cons_of_ne_nil (by simp), intercalate_map_intercalate hrest, intercalate_append hfirst hne]
    simp only [List.append_assoc]

/-! ## Filling lines -/

/-- Filling cuts the words into lines; every line after the first begins with a word that begins
nothing. -/
theorem fill_eq (width : Nat) (lead indent : List Char) :
    ∀ (tokens : List (List Char)), (∀ token ∈ tokens, token ≠ []) →
      ∀ (start : List Char) (line : List (List Char)), [' '].intercalate line ≠ [] →
        ∃ more rest, fill width lead indent (start ++ [' '].intercalate line) tokens =
            laid start indent (line ++ more) rest ∧
          more ++ rest.flatten = tokens ∧
          ∀ words ∈ rest, words ≠ [] ∧ ∀ word ∈ words.head?, beginsBlock word = false
  | [], _, start, line, _ => ⟨[], [], by simp [fill, laid], rfl, by simp⟩
  | token :: tokens, htokens, start, line, hline => by
    obtain ⟨htoken, htokens⟩ := List.forall_mem_cons.1 htokens
    have halone : [' '].intercalate [token] = token := List.intercalate_singleton
    have hne : start ++ [' '].intercalate line ≠ [] := by simp [hline]
    have hsome : line ≠ [] := by
      rintro rfl
      exact hline rfl
    rw [fill, if_neg hne]
    split
    · -- the token begins the next line
      rename_i hbreak
      have hbegins : beginsBlock token = false := by simpa using (Bool.and_eq_true_iff.1 hbreak).2
      obtain ⟨more, rest, hfill, rfl, hrest⟩ :=
        fill_eq width lead indent tokens htokens indent [token] (by rwa [halone])
      refine ⟨[], ([token] ++ more) :: rest, ?_, by simp, ?_⟩
      · rw [halone] at hfill
        rw [hfill, List.append_nil]
        rfl
      · rw [List.forall_mem_cons]
        exact ⟨⟨by simp, by simpa using hbegins⟩, hrest⟩
    · have hnext : [' '].intercalate (line ++ [token]) ≠ [] := by
        rw [intercalate_append_singleton hsome]
        simp
      obtain ⟨more, rest, hfill, rfl, hrest⟩ := fill_eq width lead indent tokens htokens start (line ++ [token]) hnext
      refine ⟨token :: more, rest, ?_, by simp, hrest⟩
      rw [intercalate_append_singleton hsome] at hfill
      simpa using hfill

/-! ## Pulling lines up -/

section

variable {n : Nat} (start : List Char)

/-- A line that is pulled up joins the part above it, so that no definition is left below the first line. -/
theorem pullUp_eq {before first : List (List Char)} :
    ∀ (rest : List (List (List Char))), Cut (spaces n) before first rest →
      ∀ (words : List (List Char)), AreWords words → (∀ word ∈ words.head?, beginsBlock word = false) →
        ∃ first' rest', pullUp (spaces n ++ [' '].intercalate words) (laid start (spaces n) first rest).reverse =
            (laid start (spaces n) first' rest').reverse ∧ Cut (spaces n) (before ++ words) first' rest' := by
  intro rest
  induction rest using List.reverseRecOn generalizing before with
  | nil =>
    intro hcut words hwords hbegins
    obtain rfl : first = before := by simpa using hcut.whole
    by_cases hdef : isLinkDefinition (spaces n ++ [' '].intercalate words) = true
    · refine ⟨first ++ words, [], ?_, ⟨by simp, by simp [hcut.filled], by simp⟩⟩
      have htrim := trimStart_append (isBlank_of_mem_spaces (n := n)) ([' '].intercalate words)
      rw [hwords.solid.trimStart_eq] at htrim
      simp [laid, pullUp, hdef, htrim, intercalate_append hcut.filled hwords.1]
    · refine ⟨first, [words], by simp [laid, pullUp, hdef], ⟨by simp, hcut.filled, ?_⟩⟩
      rw [List.forall_mem_singleton]
      exact ⟨hwords, hbegins, Bool.eq_false_of_not_eq_true hdef⟩
  | append_singleton rest last ih =>
    intro hcut words hwords hbegins
    obtain ⟨hrest, hlast⟩ := List.forall_mem_append.1 hcut.continues
    rw [List.forall_mem_singleton] at hlast
    have hlaid : (laid start (spaces n) first (rest ++ [last])).reverse =
        (spaces n ++ [' '].intercalate last) :: (laid start (spaces n) first rest).reverse := by
      simp [laid]
    rw [hlaid, pullUp]
    split
    · -- the line joins the one above it, which may have to be pulled up itself
      have hjoined : AreWords (last ++ words) :=
        ⟨by simp [hwords.1], fun word hword =>
          (List.mem_append.1 hword).elim (hlast.words.2 word) (hwords.2 word)⟩
      have hhead : ∀ word ∈ (last ++ words).head?, beginsBlock word = false := by
        rw [List.head?_append_of_ne_nil _ hlast.words.1]
        exact hlast.first
      obtain ⟨first', rest', hpull, hcut'⟩ := ih ⟨rfl, hcut.filled, hrest⟩ (last ++ words) hjoined hhead
      refine ⟨first', rest', ?_, ?_⟩
      · have htrim := trimStart_append (isBlank_of_mem_spaces (n := n)) ([' '].intercalate words)
        rw [hwords.solid.trimStart_eq] at htrim
        rw [← hpull, intercalate_append hlast.words.1 hwords.1, htrim]
        simp
      · have hwhole : first ++ (rest.flatten ++ last) = before := by simpa using hcut.whole
        rw [← hwhole]
        simpa using hcut'
    · rename_i hdef
      refine ⟨first, rest ++ [last] ++ [words], by simp [laid], ⟨?_, hcut.filled, ?_⟩⟩
      · rw [← hcut.whole]
        simp
      · rw [List.forall_mem_append, List.forall_mem_singleton]
        exact ⟨hcut.continues, hwords, hbegins, Bool.eq_false_of_not_eq_true hdef⟩

/-- Once all lines are settled, every line but the first goes on with the paragraph. -/
theorem foldl_pullUp_eq :
    ∀ (todo : List (List (List Char))),
      (∀ words ∈ todo, AreWords words ∧ ∀ word ∈ words.head?, beginsBlock word = false) →
      ∀ {before first : List (List Char)} {rest : List (List (List Char))}, Cut (spaces n) before first rest →
        ∃ first' rest', (todo.map (spaces n ++ [' '].intercalate ·)).foldl (fun above line => pullUp line above)
              (laid start (spaces n) first rest).reverse = (laid start (spaces n) first' rest').reverse ∧
          Cut (spaces n) (before ++ todo.flatten) first' rest'
  | [], _, _, first, rest, hcut => ⟨first, rest, rfl, by simpa using hcut⟩
  | words :: todo, htodo, _, first, rest, hcut => by
    obtain ⟨⟨hwords, hbegins⟩, htodo⟩ := List.forall_mem_cons.1 htodo
    obtain ⟨next, parts, hpull, hnext⟩ := pullUp_eq start rest hcut words hwords hbegins
    obtain ⟨first', rest', hfold, hcut'⟩ := foldl_pullUp_eq todo htodo hnext
    refine ⟨first', rest', ?_, by simpa using hcut'⟩
    rw [List.map_cons, List.foldl_cons, hpull, hfold]

end

/-! ## Wrapped texts -/

/-- The lines of a wrapped text. -/
def wrappedLines (width : Nat) (lead text : List Char) : List (List Char) := (wrapChars width lead text).splitOn '\n'

theorem Cut.areWords {indent : List Char} {words first : List (List Char)} {rest : List (List (List Char))}
    (h : Cut indent words first rest) (hwords : AreWords words) : AreWords first :=
  hwords.of_subset h.filled (by
    rw [← h.whole]
    exact List.subset_append_left _ _)

/-- A line that ends with words ends with the last character of a word. -/
theorem AreWords.running {part : List (List Char)} (h : AreWords part) {lead : List Char} (hlead : '\n' ∉ lead) :
    Running (lead ++ [' '].intercalate part) := by
  obtain ⟨before, c, hlast, hc⟩ := h.solid.last
  have hfeed : '\n' ∉ [' '].intercalate part := h.not_mem (by decide) (by decide)
  exact ⟨by simp [hlead, hfeed], lead ++ before, c, by rw [hlast, List.append_assoc], hc⟩

theorem Cut.running {n : Nat} {lead : List Char} {words first : List (List Char)} {rest : List (List (List Char))}
    (h : Cut (spaces n) words first rest) (hwords : AreWords words) (hlead : '\n' ∉ lead) :
    ∀ line ∈ laid lead (spaces n) first rest, Running line := by
  rw [laid, List.forall_mem_cons, List.forall_mem_map]
  exact ⟨(h.areWords hwords).running hlead, fun part hpart =>
    (h.continues part hpart).words.running (lasting_spaces n).unbroken⟩

/-- A wrapped text is cut into lines of which all but the first go on with the paragraph. -/
theorem exists_cut (width : Nat) {lead : List Char} (hlead : '\n' ∉ lead) {words : List (List Char)}
    (h : AreWords words) :
    ∃ first rest, wrappedLines width lead ([' '].intercalate words) = laid lead (spaces (byteCount lead)) first rest ∧
      Cut (spaces (byteCount lead)) words first rest := by
  have hfeed : '\n' ∉ [' '].intercalate words := h.not_mem (by decide) (by decide)
  rw [wrappedLines, wrapChars_of_not_mem width hfeed, wrapLine]
  split
  · refine ⟨words, [], ?_, ⟨by simp, h.1, by simp⟩⟩
    rw [List.splitOn_eq_singleton (by simp [hlead, hfeed])]
    rfl
  · -- the words are filled into lines, and the lines are settled
    obtain ⟨word, others, rfl⟩ := List.exists_cons_of_ne_nil h.1
    obtain ⟨hword, hothers⟩ := List.forall_mem_cons.1 h.2
    have halone : [' '].intercalate [word] = word := List.intercalate_singleton
    obtain ⟨more, todo, hfill, hwhole, htodo⟩ := fill_eq width lead (spaces (byteCount lead)) others
      (fun other ho => (hothers other ho).1) lead [word] (by rw [halone]; exact hword.1)
    have hparts : ∀ part ∈ todo, AreWords part ∧ ∀ word ∈ part.head?, beginsBlock word = false :=
      fun part hpart => ⟨h.of_subset (htodo part hpart).1 fun other ho => List.mem_cons_of_mem _ (by
        rw [← hwhole]
        exact List.mem_append_right _ (List.mem_flatten_of_mem hpart ho)), (htodo part hpart).2⟩
    have hfirst : Cut (spaces (byteCount lead)) (word :: more) (word :: more) [] := ⟨by simp, by simp, by simp⟩
    obtain ⟨first, rest, hfold, hcut⟩ := foldl_pullUp_eq lead todo hparts hfirst
    rw [List.cons_append, hwhole] at hcut
    have hsettle : settle (laid lead (spaces (byteCount lead)) (word :: more) todo) =
        laid lead (spaces (byteCount lead)) first rest := by
      rw [← List.reverse_reverse (laid lead (spaces (byteCount lead)) first rest), ← hfold]
      rfl
    refine ⟨first, rest, ?_, ?_⟩
    · have hsplit : ([' '].intercalate (word :: others)).splitOn ' ' = word :: others :=
        List.splitOn_intercalate ' ' (fun part hpart hmem => by
          have := (h.2 part hpart).2 _ hmem
          rw [isBlank_space] at this
          cases this) h.1
      have hfilled : fill width lead (spaces (byteCount lead)) [] (word :: others) =
          laid lead (spaces (byteCount lead)) (word :: more) todo := by
        rw [halone] at hfill
        rw [fill, if_pos rfl]
        exact hfill
      rw [hsplit, hfilled, hsettle]
      exact List.splitOn_intercalate '\n' (fun line hline => (hcut.running h hlead line hline).unbroken)
        (List.cons_ne_nil _ _)
    · exact hcut

/-! ## Reading the lines again -/

/-- Whether a text begins with something without a blank shows in its first word. -/
theorem startsWith_intercalate {start : List Char} (h : ' ' ∉ start) (word : List Char) (words : List (List Char)) :
    startsWith start ([' '].intercalate (word :: words)) = startsWith start word := by
  cases words with
  | nil => rw [List.intercalate_singleton]
  | cons next words =>
    rw [List.intercalate_cons_of_ne_nil (List.cons_ne_nil _ _), List.append_assoc, List.singleton_append,
      startsWith_append_blank h]

theorem startsAfresh_intercalate (word : List Char) (words : List (List Char)) :
    startsAfresh ([' '].intercalate (word :: words)) = startsAfresh word := by
  have hstart := fun start (h : ' ' ∉ start) => startsWith_intercalate h word words
  simp [startsAfresh, hstart]

theorem isBlockMarker_intercalate (word : List Char) (words : List (List Char)) :
    isBlockMarker ([' '].intercalate (word :: words)) = isBlockMarker word := by
  have hstart := fun start (h : ' ' ∉ start) => startsWith_intercalate h word words
  simp [isBlockMarker, hstart, codeFence, noteFence, propertiesFence]

theorem Continues.trim_eq {n : Nat} {part : List (List Char)} (h : Continues (spaces n) part) :
    trim (spaces n ++ [' '].intercalate part) = [' '].intercalate part :=
  h.words.solid.trim_eq isBlank_of_mem_spaces

theorem Continues.goes_on {n : Nat} {part : List (List Char)} (h : Continues (spaces n) part) :
    endsParagraph (spaces n ++ [' '].intercalate part) = false := by
  obtain ⟨word, others, rfl⟩ := List.exists_cons_of_ne_nil h.words.1
  have hbegins := h.first word rfl
  simp only [beginsBlock, Bool.or_eq_false_iff, decide_eq_false_iff_not] at hbegins
  obtain ⟨⟨⟨hafresh, hsign⟩, hmarker⟩, -⟩ := hbegins
  have hhead : (spaces n ++ [' '].intercalate (word :: others)).head? ≠ some '#' := by
    obtain ⟨c, cs, rfl⟩ := List.exists_cons_of_ne_nil (h.words.2 word List.mem_cons_self).1
    refine head?_spaces_ne ?_
    cases others <;> simpa using hsign
  rw [endsParagraph, h.trim_eq, h.undefined, startsAfresh_intercalate, hafresh, isBlockMarker_intercalate, hmarker,
    decide_eq_false hhead, List.isEmpty_eq_false_iff.2 h.words.solid.ne_nil]
  rfl

/-- Lines that go on with a paragraph are joined to it. -/
theorem logicalFrom_continues {n : Nat} (more : List (List Char)) :
    ∀ {rest : List (List (List Char))} {paragraph : List (List Char)}, paragraph ≠ [] →
      (∀ part ∈ rest, Continues (spaces n) part) →
      logicalFrom false paragraph (rest.map (spaces n ++ [' '].intercalate ·) ++ more) =
        logicalFrom false (paragraph ++ rest.map ([' '].intercalate)) more
  | [], paragraph, _, _ => by simp
  | part :: rest, paragraph, hne, h => by
    obtain ⟨hpart, hrest⟩ := List.forall_mem_cons.1 h
    rw [List.map_cons, List.cons_append, logicalFrom_next _ _ hpart.goes_on hne, hpart.trim_eq,
      logicalFrom_continues more (by simp) hrest]
    simp

end RefPages.Markup
