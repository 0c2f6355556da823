/-
Wrapping that leaves no trace. Lines that would be taken for link target definitions are pulled up one at a
time, and as there is one line fewer each time, this ends; where it ends, every line but the first goes on with
the paragraph, so that whoever joins the lines again finds the one that was wrapped.
-/
import Mathlib.Logic.Relation
import RefPages.Proofs.Markup.Laid

namespace RefPages.Markup

open RefPages.Text Relation

/-! ## Pulling lines up one at a time -/

/-- No line but the first is taken for a link target definition. -/
def AtRest (lines : List (List Char)) : Prop := ∀ line ∈ lines.tail, isLinkDefinition line = false

/-- The first line, but for the one at the top, that is taken for a link target definition goes to the end of
the line above it. -/
inductive PullsUp : List (List Char) → List (List Char) → Prop where
  | pull {before : List (List Char)} {above line : List Char} (after : List (List Char))
    (rest : AtRest (before ++ [above])) (definition : isLinkDefinition line = true) :
    PullsUp (before ++ above :: line :: after) (before ++ (above ++ ' ' :: trimStart line) :: after)

section

variable {lines lines' : List (List Char)}

theorem PullsUp.length_eq (h : PullsUp lines lines') : lines.length = lines'.length + 1 := by
  obtain ⟨after, -, -⟩ := h
  simp only [List.length_append, List.length_cons]
  omega

/-- Lines are not pulled up forever. -/
theorem wellFounded_pullsUp : WellFounded fun lines' lines => PullsUp lines lines' := by
  refine Subrelation.wf (fun {lines' lines} h => ?_) (InvImage.wf List.length Nat.lt_wfRel.wf)
  rw [InvImage, h.length_eq]
  exact Nat.lt_succ_self _

theorem PullsUp.append (h : PullsUp lines lines') (more : List (List Char)) :
    PullsUp (lines ++ more) (lines' ++ more) := by
  obtain ⟨after, hrest, hdef⟩ := h
  simpa using PullsUp.pull (after ++ more) hrest hdef

theorem atRest_append_singleton {line : List Char} :
    AtRest (lines ++ [line]) ↔ AtRest lines ∧ (lines ≠ [] → isLinkDefinition line = false) := by
  cases lines with
  | nil => simp [AtRest]
  | cons above lines => simp [AtRest, or_imp, forall_and]

/-- As long as there is such a line, it is pulled up. -/
theorem exists_pullsUp (h : ¬AtRest lines) : ∃ lines', PullsUp lines lines' := by
  induction lines using List.reverseRecOn with
  | nil => exact absurd (List.forall_mem_nil _) h
  | append_singleton lines line ih =>
    by_cases hrest : AtRest lines
    · -- the last line is the first such line
      rw [atRest_append_singleton, not_and, Classical.not_imp, Bool.not_eq_false] at h
      obtain ⟨hne, hdef⟩ := h hrest
      obtain ⟨before, above, rfl⟩ := (List.eq_nil_or_concat' lines).resolve_left hne
      refine ⟨before ++ [above ++ ' ' :: trimStart line], ?_⟩
      simpa using PullsUp.pull [] hrest hdef
    · obtain ⟨lines', hpulls⟩ := ih hrest
      exact ⟨_, hpulls.append [line]⟩

/-- Lines at rest stay as they are. -/
theorem AtRest.foldl_pullUp_eq (h : AtRest lines) :
    lines.foldl (fun above line => pullUp line above) [] = lines.reverse := by
  induction lines using List.reverseRecOn with
  | nil => rfl
  | append_singleton lines line ih =>
    obtain ⟨hlines, hline⟩ := atRest_append_singleton.1 h
    rw [List.foldl_append, ih hlines, List.reverse_append]
    rcases List.eq_nil_or_concat' lines with rfl | ⟨before, above, rfl⟩
    · rfl
    · simp [pullUp, hline]

theorem AtRest.settle_eq (h : AtRest lines) : settle lines = lines := by
  rw [settle, h.foldl_pullUp_eq, List.reverse_reverse]

/-- Whether a line is pulled up before the others are looked at makes no difference. -/
theorem PullsUp.settle_eq (h : PullsUp lines lines') : settle lines = settle lines' := by
  obtain @⟨before, above, line, after, hrest, hdef⟩ := h
  -- the lines down to the one above come out as they are, and it is then pulled up either way
  have habove := hrest.foldl_pullUp_eq
  have hbefore := (atRest_append_singleton.1 hrest).1.foldl_pullUp_eq
  have hline : before ++ above :: line :: after = (before ++ [above]) ++ line :: after := by simp
  rw [settle, settle, hline, List.foldl_append, habove, List.foldl_cons, List.foldl_append, hbefore, List.foldl_cons,
    List.reverse_append, List.reverse_singleton, List.singleton_append, pullUp, if_pos hdef]

/-- Pulling up one line after the other ends, and it ends at the settled lines, where no line is left to pull up. -/
theorem settle_eq_iff : settle lines = lines' ↔ ReflTransGen PullsUp lines lines' ∧ AtRest lines' := by
  constructor
  · rintro rfl
    induction lines using wellFounded_pullsUp.induction with
    | _ lines ih =>
      by_cases hrest : AtRest lines
      · rw [hrest.settle_eq]
        exact ⟨.refl, hrest⟩
      · obtain ⟨lines', hpulls⟩ := exists_pullsUp hrest
        rw [hpulls.settle_eq]
        exact ⟨.head hpulls (ih lines' hpulls).1, (ih lines' hpulls).2⟩
  · rintro ⟨hpath, hrest⟩
    induction hpath using ReflTransGen.head_induction_on with
    | refl => exact hrest.settle_eq
    | head hpulls _ ih => rw [hpulls.settle_eq, ih]

end

/-! ## Joining lines again -/

/-- What stands before a text on its first line: blanks and, for a list item, its marker. -/
def leadOf (n : Nat) : Option Marker → String
  | none => String.ofList (spaces n)
  | some marker => String.ofList (spaces n ++ (marker.symbol.toList ++ [' ']))

theorem unifyLineEnds_of_unbroken {line : List Char} (h : '\n' ∉ line) : unifyLineEnds line = line := by
  induction line with
  | nil => rfl
  | cons c cs ih =>
    obtain ⟨-, hcs⟩ := not_or.1 (List.mem_cons.not.1 h)
    have hnext : ∀ cs', c = '\r' → cs = '\n' :: cs' → False := by
      rintro cs' - rfl
      exact hcs List.mem_cons_self
    rw [unifyLineEnds.eq_2 _ _ hnext, ih hcs]

/-- Lines without carriage returns at their ends are read as they are written. -/
theorem textLines_intercalate_self {lines : List (List Char)} (hne : lines ≠ []) (h : ∀ line ∈ lines, Lasting line) :
    textLines (['\n'].intercalate lines) = lines := by
  induction lines with
  | nil => exact absurd rfl hne
  | cons line lines ih =>
    obtain ⟨hline, hlines⟩ := List.forall_mem_cons.1 h
    cases lines with
    | nil =>
      rw [List.intercalate_singleton, textLines, unifyLineEnds_of_unbroken hline.unbroken,
        List.splitOn_eq_singleton hline.unbroken]
    | cons next lines =>
      rw [List.intercalate_cons_of_ne_nil (List.cons_ne_nil _ _), List.append_assoc, List.singleton_append, textLines,
        hline.unifyLineEnds_append, List.splitOn_append_cons_self_of_not_mem hline.unbroken, ← textLines,
        ih (List.cons_ne_nil _ _) hlines]

theorem textLines_wrapChars (width : Nat) {lead : List Char} (hlead : '\n' ∉ lead) {words : List (List Char)}
    (h : AreWords words) : textLines (wrapChars width lead ([' '].intercalate words)) =
      ((wrapChars width lead ([' '].intercalate words)).splitOn '\n').map dropReturn := by
  obtain ⟨first, rest, hlines, hcut⟩ := exists_cut width hlead h
  have hrunning := hcut.running h hlead
  rw [wrappedLines] at hlines
  have hwhole : ['\n'].intercalate (laid lead (spaces (byteCount lead)) first rest) =
      wrapChars width lead ([' '].intercalate words) := by
    rw [← hlines, List.intercalate_splitOn]
  rw [hlines, List.map_congr_left fun line hline => (hrunning line hline).dropReturn_eq, List.map_id', ← hwhole]
  exact textLines_intercalate_self (List.cons_ne_nil _ _) fun line hline => (hrunning line hline).lasting

/-- The marker of a list item is a word, like those of its text. -/
theorem exists_start (n : Nat) (marker? : Option Marker) : ∃ start : List (List Char),
    (leadOf n marker?).toList = spaces n ++ start.flatMap (· ++ [' ']) ∧
      ∀ words, AreWords words → AreWords (start ++ words) := by
  cases marker? with
  | none => exact ⟨[], by simp [leadOf], fun words h => h⟩
  | some marker =>
    refine ⟨[marker.symbol.toList], by simp [leadOf], fun words h => ⟨List.cons_ne_nil _ _, ?_⟩⟩
    exact List.forall_mem_cons.2 ⟨by cases marker <;> simp [Marker.symbol, isBlank], h.2⟩

theorem unbroken_leadOf (n : Nat) (marker? : Option Marker) : '\n' ∉ (leadOf n marker?).toList := by
  cases marker? with
  | none => simp [leadOf, spaces]
  | some marker => cases marker <;> simp [leadOf, spaces, Marker.symbol]

theorem exists_laid_leadOf (width n : Nat) (marker? : Option Marker) {text : String} (h : IsWords text) :
    ∃ first m rest, Laid (textLines (wrap width (leadOf n marker?) text).toList) (leadOf n marker? ++ text).toList
      first m rest := by
  obtain ⟨words, hwords, htext⟩ := isWords_iff.1 h
  obtain ⟨start, hlead, hstart⟩ := exists_start n marker?
  rw [wrap, String.toList_ofList, htext, textLines_wrapChars width (unbroken_leadOf n marker?) hwords, hlead,
    String.toList_append, hlead, htext, List.append_assoc, flatMap_append_intercalate start hwords.1]
  exact exists_laid width n hwords (hstart words hwords)

/-- A text that is wrapped after its lead and joined again is the text after its lead, unless its first line is a
heading or the marker of a block. -/
theorem reflow_wrap (width n : Nat) (marker? : Option Marker) {text : String} (hwords : IsWords text)
    (hsign : (leadOf n marker? ++ text).toList.head? ≠ some '#')
    (hmarker : isBlockMarker (trim (leadOf n marker? ++ text).toList) = false) :
    reflow (wrap width (leadOf n marker?) text) = [leadOf n marker? ++ text] := by
  obtain ⟨first, m, rest, hlaid⟩ := exists_laid_leadOf width n marker? hwords
  obtain ⟨after, hafter, hlines⟩ := hlaid.logicalFrom_eq hsign hmarker (.inr rfl) []
  rw [List.append_nil] at hlines
  rw [reflow, logicalLines, ← textLines, hlines, logicalFrom, hafter]
  simp [joinParagraph]

/-- A definition that is pulled up may make one of the line above it. -/
theorem reflow_wrap_pulled :
    wrap 1 "  - " "a [x [y z]: d" = "  - a [x [y z]:\n    d" ∧
      reflow "  - a [x [y z]:\n    d" = ["  - a [x [y z]: d"] := by
  have hwrap : wrap 1 "  - " "a [x [y z]: d" = "  - a [x [y z]:\n    d" := by rfl
  refine ⟨hwrap, ?_⟩
  rw [← hwrap]
  exact reflow_wrap 1 2 (some .dash) (isWords_of_all (by decide)) (by decide) (by decide)

end RefPages.Markup
