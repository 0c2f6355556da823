/-
What reading lines one by one makes of rendered nodes. Outside of blocks the state of the reader
is the paragraph that may still go on; `Reads` says what a run of lines adds to the logical lines
and which paragraph it leaves, and rendered nodes are put together from such runs.
-/
import RefPages.Markup.Render
import RefPages.Proofs.Markup.Canonical

namespace RefPages.Markup

open RefPages.Text

/-! ## Runs of lines -/

/-- Whether the reader is inside a block after some lines. -/
def blockAfter (inBlock : Bool) (lines : List (List Char)) : Bool :=
  lines.foldl (fun inBlock line => inBlock != isBlockMarker (trim line)) inBlock

/-- Lines that, read outside of a block after the paragraph `before`, end outside of a block after
the paragraph `after` and give the logical lines `logical`. All of them are read as they are
written. -/
structure Reads (before lines logical after : List (List Char)) : Prop where
  plain : ∀ line ∈ lines, Lasting line
  closed : blockAfter false lines = false
  reads : ∃ done, done ++ joinParagraph after = joinParagraph before ++ logical ∧
    ∀ rest, logicalFrom false before (lines ++ rest) = done ++ logicalFrom false after rest

theorem Reads.nil (before : List (List Char)) : Reads before [] [] before :=
  ⟨by simp, rfl, [], by simp, fun _ => rfl⟩

theorem Reads.append {before between after lines lines' logical logical' : List (List Char)}
    (h : Reads before lines logical between) (h' : Reads between lines' logical' after) :
    Reads before (lines ++ lines') (logical ++ logical') after := by
  obtain ⟨done, hdone, hreads⟩ := h.reads
  obtain ⟨done', hdone', hreads'⟩ := h'.reads
  refine ⟨?_, ?_, done ++ done', ?_, fun rest => ?_⟩
  · intro line hline
    rcases List.mem_append.1 hline with hline | hline
    · exact h.plain line hline
    · exact h'.plain line hline
  · rw [blockAfter, List.foldl_append]
    exact (congrArg (fun b => blockAfter b lines') h.closed).trans h'.closed
  · rw [List.append_assoc, hdone', ← List.append_assoc, hdone, List.append_assoc]
  · rw [List.append_assoc, hreads, hreads', List.append_assoc]

/-- A whole document gives the logical lines of its run. -/
theorem Reads.logicalFrom_eq {lines logical after : List (List Char)} (h : Reads [] lines logical after) :
    logicalFrom false [] lines = logical := by
  obtain ⟨done, hdone, hreads⟩ := h.reads
  have := hreads []
  rw [List.append_nil, logicalFrom] at this
  rw [this, hdone]
  rfl

/-! ## Single lines -/

theorem joinParagraph_singleton (line : List Char) : joinParagraph [line] = [line] := by
  rw [joinParagraph, if_neg (List.cons_ne_nil _ _), List.intercalate_singleton]

theorem joinParagraph_eq_nil {paragraph : List (List Char)} (h : joinParagraph paragraph = []) : paragraph = [] := by
  by_contra hne
  rw [joinParagraph, if_neg hne] at h
  cases h

/-- The sign is not trimmed away. -/
theorem startsWith_trim_sign {line : List Char} (h : line.head? = some '#') :
    startsWith ['#'] (trim line) = true := by
  obtain ⟨rest, rfl⟩ := List.head?_eq_some_iff.1 h
  have hsign : Solid ['#'] := ⟨⟨'#', [], rfl, by decide⟩, ⟨[], '#', rfl, by decide⟩⟩
  exact startsWith_trim hsign (show ∀ c ∈ ([] : List Char), isBlank c = true by simp) rest

/-- No block marker begins with the sign. -/
theorem isBlockMarker_of_sign {line : List Char} (h : line.head? = some '#') :
    isBlockMarker (trim line) = false := by
  obtain ⟨others, hothers⟩ := startsWith_iff.1 (startsWith_trim_sign h)
  rw [← hothers]
  rfl

theorem head?_ne_of_blank {line : List Char} (h : trim line = []) : line.head? ≠ some '#' := fun hsign => by
  have := startsWith_trim_sign hsign
  rw [h] at this
  cases this

section

variable {line : List Char} (paragraph lines : List (List Char))

/-- A block marker ends the paragraph. -/
theorem logicalFrom_marker (h : isBlockMarker (trim line) = true) :
    logicalFrom false paragraph (line :: lines) =
      joinParagraph paragraph ++ line :: logicalFrom true [] lines := by
  rw [logicalFrom]
  simp [h, endsParagraph]

/-- A line that begins with a sign ends the paragraph and is kept. -/
theorem logicalFrom_sign (h : line.head? = some '#') :
    logicalFrom false paragraph (line :: lines) =
      joinParagraph paragraph ++ line :: logicalFrom false [] lines := by
  rw [logicalFrom]
  simp [h, endsParagraph, isBlockMarker_of_sign h]

/-- A blank line ends the paragraph. -/
theorem logicalFrom_blank (h : trim line = []) :
    logicalFrom false paragraph (line :: lines) = joinParagraph paragraph ++ logicalFrom false [] lines := by
  rw [logicalFrom]
  simp [endsParagraph, h, head?_ne_of_blank h, isBlockMarker, codeFence, noteFence, propertiesFence]

/-- A line of text that does not go on with the paragraph begins another one. -/
theorem logicalFrom_first (hsign : line.head? ≠ some '#') (hmarker : isBlockMarker (trim line) = false)
    (hblank : trim line ≠ []) (hends : endsParagraph line = true ∨ paragraph = []) :
    logicalFrom false paragraph (line :: lines) =
      joinParagraph paragraph ++ logicalFrom false [trimEnd line] lines := by
  rw [logicalFrom]
  rcases hends with hends | rfl
  · simp [hends, hsign, hmarker, hblank, extendParagraph]
  · simp [hsign, hmarker, hblank, extendParagraph, joinParagraph]

/-- Any other line goes on with the paragraph. -/
theorem logicalFrom_next (hends : endsParagraph line = false) (hparagraph : paragraph ≠ []) :
    logicalFrom false paragraph (line :: lines) = logicalFrom false (paragraph ++ [trim line]) lines := by
  rw [logicalFrom]
  have hplain := hends
  simp only [endsParagraph, Bool.or_eq_false_iff, decide_eq_false_iff_not, List.isEmpty_eq_false_iff] at hplain
  simp [hends, hplain, extendParagraph, hparagraph]

/-- Inside a block every line is kept. -/
theorem logicalFrom_inside (line : List Char) :
    logicalFrom true [] (line :: lines) = line :: logicalFrom (!isBlockMarker (trim line)) [] lines := by
  rw [logicalFrom]
  cases isBlockMarker (trim line) <;> simp [joinParagraph]

end

/-- An empty line ends the paragraph. -/
theorem reads_blank (before : List (List Char)) : Reads before [[]] [] [] :=
  ⟨by simpa using lasting_nil, rfl, joinParagraph before, by simp [joinParagraph], fun rest =>
    logicalFrom_blank before rest rfl⟩

/-- A line that begins with a sign ends the paragraph and is kept. -/
theorem reads_sign {before : List (List Char)} {line : List Char} (hhead : line.head? = some '#')
    (hplain : Lasting line) : Reads before [line] [line] [] := by
  have hmarker := isBlockMarker_of_sign hhead
  refine ⟨by simpa using hplain, by simp [blockAfter, hmarker], joinParagraph before ++ [line],
    by simp [joinParagraph], fun rest => ?_⟩
  rw [List.singleton_append, logicalFrom_sign before rest hhead, List.append_assoc, List.singleton_append]

/-- A line of text that does not go on with the paragraph begins another one. -/
theorem reads_text {before : List (List Char)} {line : List Char} (hhead : line.head? ≠ some '#')
    (hmarker : isBlockMarker (trim line) = false) (hsolid : trim line ≠ []) (htrim : trimEnd line = line)
    (hends : endsParagraph line = true ∨ before = []) (hplain : Lasting line) :
    Reads before [line] [line] [line] := by
  refine ⟨by simpa using hplain, by simp [blockAfter, hmarker], joinParagraph before,
    by rw [joinParagraph_singleton], fun rest => ?_⟩
  rw [List.singleton_append, logicalFrom_first before rest hhead hmarker hsolid hends, htrim]

/-- Inside a block the lines that are no markers are kept. -/
theorem logicalFrom_inner {lines : List (List Char)}
    (h : ∀ line ∈ lines, isBlockMarker (trim line) = false) (rest : List (List Char)) :
    logicalFrom true [] (lines ++ rest) = lines ++ logicalFrom true [] rest := by
  induction lines with
  | nil => rfl
  | cons line lines ih =>
    rw [List.cons_append, logicalFrom_inside, h line List.mem_cons_self, Bool.not_false,
      ih fun l hl => h l (List.mem_cons_of_mem _ hl), List.cons_append]

theorem blockAfter_inner {lines : List (List Char)}
    (h : ∀ line ∈ lines, isBlockMarker (trim line) = false) (inBlock : Bool) :
    blockAfter inBlock lines = inBlock := by
  induction lines with
  | nil => rfl
  | cons line lines ih =>
    rw [blockAfter, List.foldl_cons, h line List.mem_cons_self, Bool.bne_false]
    exact ih fun l hl => h l (List.mem_cons_of_mem _ hl)

/-- A block marker divides the logical lines. -/
theorem logicalFrom_append_marker {marker : List Char} (hmarker : isBlockMarker (trim marker) = true)
    (rest : List (List Char)) :
    ∀ (lines : List (List Char)) {inBlock : Bool} {paragraph : List (List Char)},
      (inBlock = true → paragraph = []) →
      logicalFrom inBlock paragraph (lines ++ marker :: rest) =
        logicalFrom inBlock paragraph lines ++
          marker :: logicalFrom (!blockAfter inBlock lines) [] rest
  | [], false, paragraph, _ => logicalFrom_marker _ _ hmarker
  | [], true, paragraph, h => by
    rw [h rfl, List.nil_append, logicalFrom_inside, hmarker]
    rfl
  | line :: lines, inBlock, paragraph, h => by
    have hrec : ∀ paragraph, ((inBlock != isBlockMarker (trim line)) = true → paragraph = []) → _ :=
      fun paragraph hp => logicalFrom_append_marker hmarker rest lines hp
    rw [List.cons_append, logicalFrom, logicalFrom]
    split
    · -- a block is entered by a marker, which ends the paragraph, or there is none
      have hnone : (inBlock != isBlockMarker (trim line)) = true →
          (if endsParagraph line then [] else paragraph) = [] := by
        cases hline : isBlockMarker (trim line) <;> simp_all [endsParagraph]
      rw [hrec _ hnone]
      simp [blockAfter]
    · rename_i hout
      simp only [Bool.or_eq_true, not_or, Bool.not_eq_true] at hout
      have houtside : ∀ paragraph, _ := fun paragraph => hrec paragraph fun hin => by
        rw [hout.1.1] at hin
        cases hin
      split <;> simp [houtside, blockAfter]

/-- A block ends the paragraph, and all its lines are kept. -/
theorem reads_block {before inner : List (List Char)} {opening closing : List Char}
    (hopening : isBlockMarker (trim opening) = true)
    (hinner : ∀ line ∈ inner, isBlockMarker (trim line) = false)
    (hclosing : isBlockMarker (trim closing) = true)
    (hplain : ∀ line ∈ opening :: inner ++ [closing], Lasting line) :
    Reads before (opening :: inner ++ [closing]) (opening :: inner ++ [closing]) [] := by
  refine ⟨hplain, ?_, joinParagraph before ++ (opening :: inner ++ [closing]), by simp [joinParagraph],
    fun rest => ?_⟩
  · have := blockAfter_inner hinner true
    rw [blockAfter] at this
    simp [blockAfter, hopening, hclosing, this]
  · rw [List.append_assoc, List.cons_append, List.singleton_append, logicalFrom_marker _ _ hopening,
      logicalFrom_inner hinner, logicalFrom_inside, hclosing]
    simp

/-! ## Empty lines at the end -/

/-- Outside of a block, lines that end every paragraph are read on their own. -/
theorem logicalFrom_append_of_closed {rest : List (List Char)}
    (hrest : ∀ paragraph, logicalFrom false paragraph rest = joinParagraph paragraph ++ logicalFrom false [] rest)
    {lines : List (List Char)} {inBlock : Bool} {paragraph : List (List Char)} (h : blockAfter inBlock lines = false) :
    logicalFrom inBlock paragraph (lines ++ rest) =
      logicalFrom inBlock paragraph lines ++ logicalFrom false [] rest := by
  induction lines generalizing inBlock paragraph with
  | nil =>
    obtain rfl : inBlock = false := h
    exact hrest paragraph
  | cons line lines ih =>
    rw [blockAfter, List.foldl_cons] at h
    have hrec : ∀ paragraph, logicalFrom (inBlock != isBlockMarker (trim line)) paragraph (lines ++ rest) =
        logicalFrom (inBlock != isBlockMarker (trim line)) paragraph lines ++ logicalFrom false [] rest :=
      fun paragraph => ih h
    rw [List.cons_append, logicalFrom, logicalFrom]
    simp only [hrec]
    split
    · simp only [List.append_assoc, List.cons_append]
    · split <;> simp only [List.append_assoc]

theorem logicalFrom_replicate_blank (n : Nat) (paragraph : List (List Char)) :
    logicalFrom false paragraph (List.replicate n []) = joinParagraph paragraph := by
  induction n generalizing paragraph with
  | zero => rfl
  | succ n ih =>
    rw [List.replicate_succ, logicalFrom_blank paragraph _ rfl, ih []]
    exact List.append_nil _

/-- Outside of a block, empty lines at the end give nothing. -/
theorem logicalFrom_append_blank {lines : List (List Char)} {inBlock : Bool} {paragraph : List (List Char)} (n : Nat)
    (h : blockAfter inBlock lines = false) :
    logicalFrom inBlock paragraph (lines ++ List.replicate n []) = logicalFrom inBlock paragraph lines := by
  have hclosed : ∀ paragraph, logicalFrom false paragraph (List.replicate n []) =
      joinParagraph paragraph ++ logicalFrom false [] (List.replicate n []) := by
    intro paragraph
    rw [logicalFrom_replicate_blank, logicalFrom_replicate_blank]
    exact (List.append_nil _).symm
  rw [logicalFrom_append_of_closed hclosed h, logicalFrom_replicate_blank]
  exact List.append_nil _

theorem dropBlankEnd_append (lines : List (List Char)) :
    ∃ n, lines = dropBlankEnd lines ++ List.replicate n [] := by
  refine ⟨(lines.reverse.takeWhile (·.isEmpty)).length, ?_⟩
  have hblank : lines.reverse.takeWhile (·.isEmpty) =
      List.replicate (lines.reverse.takeWhile (·.isEmpty)).length [] :=
    List.eq_replicate_of_mem fun line hline => by
      simpa using List.mem_takeWhile_imp hline
  have hsplit := List.takeWhile_append_dropWhile (p := (·.isEmpty)) (l := lines.reverse)
  rw [dropBlankEnd]
  conv_lhs => rw [← List.reverse_reverse lines, ← hsplit, List.reverse_append, hblank,
    List.reverse_replicate]

/-! ## Whole texts -/

/-- A line without the carriage return that is taken for a part of its line end. -/
def dropReturn (line : List Char) : List Char := if line.getLast? = some '\r' then line.dropLast else line

theorem dropReturn_eq_self {line : List Char} (h : line.getLast? ≠ some '\r') : dropReturn line = line := if_neg h

theorem trim_dropReturn (line : List Char) : trim (dropReturn line) = trim line := by
  unfold dropReturn
  split
  · rename_i hlast
    obtain ⟨before, rfl⟩ := List.getLast?_eq_some_iff.1 hlast
    rw [List.dropLast_concat]
    exact (trim_append_blanks (by simp; decide) before).symm
  · rfl

theorem dropReturn_append {as : List Char} (h : as.getLast? ≠ some '\r') (bs : List Char) :
    dropReturn (as ++ bs) = as ++ dropReturn bs := by
  rcases List.eq_nil_or_concat bs with rfl | ⟨init, c, rfl⟩
  · rw [List.append_nil, dropReturn_eq_self h, dropReturn, if_neg (by simp), List.append_nil]
  · rw [List.concat_eq_append, ← List.append_assoc, dropReturn, dropReturn, List.getLast?_concat, List.getLast?_concat]
    split
    · rw [List.dropLast_concat, List.dropLast_concat]
    · rw [List.append_assoc]

/-- A line keeps its characters before a line feed, but for a carriage return at its end. -/
theorem unifyLineEnds_append {line : List Char} (h : '\n' ∉ line) (rest : List Char) :
    unifyLineEnds (line ++ '\n' :: rest) = dropReturn line ++ '\n' :: unifyLineEnds rest := by
  induction line with
  | nil => rw [List.nil_append, unifyLineEnds.eq_2 _ _ (by simp), dropReturn, if_neg (by simp), List.nil_append]
  | cons c cs ih =>
    obtain ⟨hc, hcs⟩ := not_or.1 (List.mem_cons.not.1 h)
    by_cases hreturn : c = '\r' ∧ cs = []
    · obtain ⟨rfl, rfl⟩ := hreturn
      rfl
    · have hnext : ∀ cs', c = '\r' → cs ++ '\n' :: rest = '\n' :: cs' → False := by
        rintro cs' rfl heq
        cases cs with
        | nil => exact hreturn ⟨rfl, rfl⟩
        | cons d ds =>
          cases heq
          exact hcs List.mem_cons_self
      have hdrop : dropReturn (c :: cs) = c :: dropReturn cs := by
        cases cs with
        | nil => simpa [dropReturn] using hreturn
        | cons d ds =>
          rw [dropReturn, dropReturn, List.getLast?_cons_cons]
          split <;> rfl
      rw [List.cons_append, unifyLineEnds.eq_2 _ _ hnext, ih hcs, hdrop, List.cons_append]

/-- A line that lasts keeps its characters before a line feed. -/
theorem Lasting.unifyLineEnds_append {line : List Char} (h : Lasting line) (rest : List Char) :
    unifyLineEnds (line ++ '\n' :: rest) = line ++ '\n' :: unifyLineEnds rest := by
  rw [Markup.unifyLineEnds_append h.unbroken, dropReturn_eq_self h.last]

theorem unifyLineEnds_intercalate {lines : List (List Char)} (h : ∀ line ∈ lines, Lasting line) :
    unifyLineEnds (['\n'].intercalate lines ++ ['\n']) = ['\n'].intercalate lines ++ ['\n'] := by
  induction lines with
  | nil => rfl
  | cons line lines ih =>
    have hline := h line List.mem_cons_self
    have hlines := ih fun l hl => h l (List.mem_cons_of_mem _ hl)
    cases lines with
    | nil =>
      rw [List.intercalate_singleton]
      exact hline.unifyLineEnds_append []
    | cons next lines =>
      rw [List.intercalate_cons_of_ne_nil (by simp), List.append_assoc, List.append_assoc, List.singleton_append,
        hline.unifyLineEnds_append, hlines]

/-- A text whose lines are a run has the logical lines of that run. -/
theorem Reads.logicalLines_eq {lines logical after : List (List Char)} (h : Reads [] lines logical after) :
    logicalLines (['\n'].intercalate (dropBlankEnd lines) ++ ['\n']) = logical := by
  obtain ⟨n, hlines⟩ := dropBlankEnd_append lines
  have hplain : ∀ line ∈ dropBlankEnd lines, Lasting line := fun line hline =>
    h.plain line (by rw [hlines]; exact List.mem_append_left _ hline)
  have hclosed : blockAfter false (dropBlankEnd lines) = false := by
    have hblank : ∀ line ∈ List.replicate n ([] : List Char), isBlockMarker (trim line) = false :=
      fun line hline => by
        rw [List.eq_of_mem_replicate hline]
        rfl
    have := h.closed
    rw [hlines, blockAfter, List.foldl_append] at this
    exact (blockAfter_inner hblank _).symm.trans this
  -- splitting gives the lines back, with empty lines at the end
  obtain ⟨m, hsplit⟩ : ∃ m, (['\n'].intercalate (dropBlankEnd lines) ++ ['\n']).splitOn '\n' =
      dropBlankEnd lines ++ List.replicate m [] := by
    by_cases hempty : dropBlankEnd lines = []
    · exact ⟨2, by simp [hempty, List.splitOn_cons_eq_if_modifyHead, List.replicate_succ]⟩
    · exact ⟨1, splitOn_intercalate_append hempty fun line hline => (hplain line hline).unbroken⟩
  rw [logicalLines, unifyLineEnds_intercalate hplain, hsplit, logicalFrom_append_blank m hclosed,
    ← logicalFrom_append_blank n hclosed, ← hlines, h.logicalFrom_eq]

/-! ## Separating lines -/

/-- Whether a node may be written after the node `last`: after an empty line no paragraph goes on,
and nodes without running text end with an empty line. -/
structure Ready (last : Option Node) (blank : Bool) (before : List (List Char)) : Prop where
  afterBlank : blank = true → before = []
  afterBlock : last.bind Node.inlineText? = none → blank = true

theorem endsBlank_append (blank : Bool) (lines lines' : List (List Char)) :
    endsBlank blank (lines ++ lines') = endsBlank (endsBlank blank lines) lines' := by
  unfold endsBlank
  rw [List.getLast?_append]
  cases lines'.getLast? <;> simp

theorem endsBlank_singleton {blank : Bool} {line : List Char} (h : line ≠ []) :
    endsBlank blank [line] = false := by
  simpa [endsBlank] using h

theorem endsBlank_append_blank (blank : Bool) (lines : List (List Char)) :
    endsBlank blank (lines ++ [[]]) = true := by
  rw [endsBlank_append]
  rfl

theorem reads_gap {blank : Bool} {before : List (List Char)} (h : blank = true → before = []) :
    Reads before (gap blank) [] [] := by
  cases blank with
  | true =>
    rw [h rfl]
    exact .nil []
  | false => exact reads_blank before

end RefPages.Markup
