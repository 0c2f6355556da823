/-
No word of a text is lost on the way to its logical lines. Between two lines the words that have
been read are those of the logical lines so far and, after them, those of the paragraph that may
still go on. Inside a block there is no such paragraph: this is why a line that is kept there does
not overtake one.
-/
import RefPages.Proofs.Markup.Reflow
import RefPages.Proofs.Text.Words

namespace RefPages.Markup

open RefPages.Text

/-! ## Line ends and paragraphs -/

theorem wordsFrom_unifyLineEnds (word cs : List Char) : wordsFrom word (unifyLineEnds cs) = wordsFrom word cs := by
  fun_induction unifyLineEnds cs generalizing word with
  | case1 cs ih =>
    have hreturn : isBlank '\r' = true := by decide
    have hfeed : isBlank '\n' = true := by decide
    simp only [wordsFrom, hreturn, hfeed, if_true, ih]
  | case2 c cs _ ih => simp only [wordsFrom, ih]
  | case3 => rfl

/-- A carriage return before a line feed belongs to no word. -/
theorem words_unifyLineEnds (cs : List Char) : words (unifyLineEnds cs) = words cs :=
  wordsFrom_unifyLineEnds [] cs

/-- A paragraph that is put out as one line keeps its words. -/
theorem words_joinParagraph (paragraph : List (List Char)) :
    (joinParagraph paragraph).flatMap words = paragraph.flatMap words := by
  unfold joinParagraph
  split
  · rename_i hnone
    rw [hnone]
  · rw [List.flatMap_singleton, words_intercalate (by decide)]

/-! ## Lines -/

/-- The words of logical lines are those of the paragraph that went on, and then those of the lines. -/
theorem words_logicalFrom (lines : List (List Char)) {inBlock : Bool} {paragraph : List (List Char)}
    (hblock : inBlock = true → paragraph = []) :
    (logicalFrom inBlock paragraph lines).flatMap words = paragraph.flatMap words ++ lines.flatMap words := by
  induction lines generalizing inBlock paragraph with
  | nil => rw [logicalFrom, words_joinParagraph, List.flatMap_nil, List.append_nil]
  | cons line lines ih =>
    have hafresh : ∀ inBlock, (logicalFrom inBlock [] lines).flatMap words = lines.flatMap words := fun _ =>
      ih fun _ => rfl
    have houtside : ∀ paragraph, (logicalFrom false paragraph lines).flatMap words =
        paragraph.flatMap words ++ lines.flatMap words := fun _ => ih fun hinside => absurd hinside Bool.false_ne_true
    rw [List.flatMap_cons]
    cases inBlock with
    | true =>
      -- no paragraph goes on here that the line could overtake
      rw [hblock rfl, logicalFrom_inside, List.flatMap_cons, hafresh, List.flatMap_nil, List.nil_append]
    | false =>
      by_cases hmarker : isBlockMarker (trim line) = true
      · rw [logicalFrom_marker paragraph lines hmarker, List.flatMap_append, words_joinParagraph, List.flatMap_cons,
          hafresh]
      by_cases hsign : line.head? = some '#'
      · rw [logicalFrom_sign paragraph lines hsign, List.flatMap_append, words_joinParagraph, List.flatMap_cons,
          hafresh]
      -- a blank line ends the paragraph, and has no words that could be lost with it
      by_cases hblank : trim line = []
      · rw [logicalFrom_blank paragraph lines hblank, List.flatMap_append, words_joinParagraph, hafresh,
          words_of_trim_eq_nil hblank, List.nil_append]
      -- what is left is put off: it begins a paragraph, or goes on with the one before
      have hplain := Bool.eq_false_of_not_eq_true hmarker
      by_cases hbegins : endsParagraph line = true ∨ paragraph = []
      · rw [logicalFrom_first paragraph lines hsign hplain hblank hbegins, List.flatMap_append, words_joinParagraph,
          houtside, List.flatMap_singleton, words_trimEnd]
      · obtain ⟨hgoes, hparagraph⟩ := not_or.1 hbegins
        rw [logicalFrom_next paragraph lines (Bool.eq_false_of_not_eq_true hgoes) hparagraph, houtside,
          List.flatMap_append, List.flatMap_singleton, words_trim, List.append_assoc]

/-! ## Texts -/

/-- The words of the logical lines of a text are the words of the text, in order: none is lost, doubled, joined to
another or moved. -/
theorem words_reflow (text : String) : (reflow text).flatMap (fun line => words line.toList) = words text.toList := by
  have hlines : (reflow text).flatMap (fun line => words line.toList) = (logicalLines text.toList).flatMap words := by
    rw [reflow, List.flatMap_map]
    simp only [String.toList_ofList]
  rw [hlines, logicalLines, words_logicalFrom _ fun _ => rfl, List.flatMap_nil, List.nil_append,
    words_splitOn (by decide), words_unifyLineEnds]

end RefPages.Markup
