/-
Reading what is written for one entry. The line of a list item or a paragraph is joined again from its
wrapped lines when its first line ends the paragraph before it; a heading and a block always do, and the
lines of a block may be out of step with its markers.
-/
import RefPages.Proofs.Markup.Drawn
import RefPages.Proofs.Markup.Entrywise

namespace RefPages.Markup

open RefPages.Text

/-! ## Entries of words -/

/-- A node whose running text, unless it is that of a heading, is made of words. -/
def Node.Worded : Node → Prop
  | .heading .. | .code .. | .properties _ => True
  | .item _ text _ | .note _ text | .paragraph text => IsWords text

/-- An entry that comes from a text, of words. -/
structure Entry.Fit (e : Entry) : Prop where
  bare : e.Bare
  drawn : e.node.Drawn
  worded : e.node.Worded

/-- Whether an entry is written as a line that other lines may go on with. -/
def Entry.goesOn : Entry → Bool
  | .block _ (.item ..) | .block _ (.paragraph _) => true
  | _ => false

/-- An entry is a heading, a line or a block. -/
theorem Entry.Bare.cases {e : Entry} (h : e.Bare) :
    (∃ level text, e = .heading level text) ∨ e.goesOn = true ∨ ∃ opened, e.opened? = some opened := by
  cases e with
  | heading level text => exact .inl ⟨level, text, rfl⟩
  | block n node =>
    cases node with
    | heading => cases h.1
    | item => exact .inr (.inl rfl)
    | paragraph => exact .inr (.inl rfl)
    | _ => exact .inr (.inr ⟨_, rfl⟩)

theorem goesOn_of_opened? {e : Entry} {opened : OpenBlock} (h : e.opened? = some opened) : e.goesOn = false := by
  unfold Entry.opened? at h
  split at h
  · rfl
  · rfl
  · rfl
  · cases h

theorem opened?_of_goesOn {e : Entry} (h : e.goesOn = true) : e.opened? = none := by
  cases hopened : e.opened? with
  | none => rfl
  | some opened =>
    rw [goesOn_of_opened? hopened] at h
    cases h

/-- A paragraph of words that comes from a text does not begin like something else. -/
theorem plain_of_drawn {text : String} (hdrawn : (Node.paragraph text).Drawn) (hwords : IsWords text) :
    Plain text.toList := by
  obtain ⟨hopener, hnode⟩ := hdrawn
  have hsolid := hwords.solid
  have htrim : trim ([] ++ text.toList) = text.toList := hsolid.trim_eq (by simp)
  rw [List.nil_append] at htrim
  refine ⟨hwords.running, ?_, ?_, ?_⟩
  · obtain ⟨c, rest, htext, hc⟩ := hsolid.first
    rw [htext]
    rintro ⟨⟩
    rw [isBlank_space] at hc
    cases hc
  · rw [htrim, isBlockMarker]
    unfold opener? at hopener
    split at hopener
    · cases hopener
    · rename_i hcode
      split at hopener
      · cases hopener
      · rename_i hnote
        rw [Option.map_eq_none_iff] at hopener
        rw [after?_eq_none_iff.1 hcode, after?_eq_none_iff.1 hnote, after?_eq_none_iff.1 hopener]
        rfl
  · -- with a marker it would be an item
    unfold lineNode at hnode
    split at hnode
    · cases hnode
    · rename_i hdash
      split at hnode
      · cases hnode
      · rename_i hstar
        split at hnode
        · cases hnode
        · rename_i hnumber
          simp [itemMarkers, after?_eq_none_iff.1 hdash, after?_eq_none_iff.1 hstar, after?_eq_none_iff.1 hnumber]

/-! ## Wrapped lines -/

/-- How a text is laid out in lines: the first line, and the parts of the text that go on with it. -/
structure Laid (lines : List (List Char)) (whole first : List Char) (n : Nat)
    (rest : List (List (List Char))) : Prop where
  cut : lines = first :: rest.map (spaces n ++ [' '].intercalate ·)
  joined : [' '].intercalate (first :: rest.map ([' '].intercalate)) = whole
  continues : ∀ part ∈ rest, Continues (spaces n) part
  running : Running first
  begins : ∀ start, ' ' ∉ start → startsWith start (trim first) = startsWith start (trim whole)

theorem Running.dropReturn_eq {line : List Char} (h : Running line) : dropReturn line = line :=
  dropReturn_eq_self h.lasting.last

theorem flatMap_append_intercalate (start : List (List Char)) {words : List (List Char)} (hne : words ≠ []) :
    start.flatMap (· ++ [' ']) ++ [' '].intercalate words = [' '].intercalate (start ++ words) := by
  induction start with
  | nil => rfl
  | cons word start ih =>
    rw [List.cons_append, List.intercalate_cons_of_ne_nil (by simp [hne]), ← ih]
    simp

/-- Words after `n` blanks, of which those of `start`, the marker of a list item, are never wrapped. -/
theorem exists_laid (width n : Nat) {start words : List (List Char)} (hwords : AreWords words)
    (hwhole : AreWords (start ++ words)) :
    ∃ first m rest, Laid
      (((wrapChars width (spaces n ++ start.flatMap (· ++ [' '])) ([' '].intercalate words)).splitOn '\n').map
        dropReturn)
      (spaces n ++ [' '].intercalate (start ++ words)) first m rest := by
  have hlead : '\n' ∉ spaces n ++ start.flatMap (· ++ [' ']) := by
    have hstart : ∀ word ∈ start, '\n' ∉ word := fun word hword hmem => by
      have := (hwhole.2 word (List.mem_append_left _ hword)).2 _ hmem
      revert this
      decide
    simpa [(lasting_spaces n).unbroken] using hstart
  obtain ⟨first, rest, hlines, hcut⟩ := exists_cut width hlead hwords
  have hrunning := hcut.running hwords hlead
  have hfirst : (spaces n ++ start.flatMap (· ++ [' '])) ++ [' '].intercalate first =
      spaces n ++ [' '].intercalate (start ++ first) := by
    rw [List.append_assoc, flatMap_append_intercalate start hcut.filled]
  -- the first line and the whole text begin with the same word
  have hbegins : AreWords (start ++ first) := hwhole.of_subset (by simp [hcut.filled]) (by
    rw [← hcut.whole, ← List.append_assoc]
    exact List.subset_append_left _ _)
  obtain ⟨word, others, hothers⟩ := List.exists_cons_of_ne_nil hbegins.1
  have hsame : start ++ words = word :: (others ++ rest.flatten) := by
    rw [← hcut.whole, ← List.append_assoc, hothers]
    rfl
  have htrim : ∀ {words : List (List Char)}, AreWords words →
      trim (spaces n ++ [' '].intercalate words) = [' '].intercalate words := fun hwords =>
    hwords.solid.trim_eq isBlank_of_mem_spaces
  refine ⟨_, _, rest, ⟨?_, ?_, hcut.continues, hrunning _ List.mem_cons_self, fun begin hspace => ?_⟩⟩
  · rw [← wrappedLines, hlines, List.map_congr_left fun line h => (hrunning line h).dropReturn_eq, List.map_id']
    rfl
  · rw [intercalate_laid hcut.filled fun part hpart => (hcut.continues part hpart).words.1, hcut.whole,
      List.append_assoc, flatMap_append_intercalate start hwords.1]
  · rw [hfirst, htrim hbegins, htrim hwhole, hothers, hsame, startsWith_intercalate hspace,
      startsWith_intercalate hspace]

section

variable {lines : List (List Char)} {whole first : List Char} {n : Nat} {rest : List (List (List Char))}
  (h : Laid lines whole first n rest)

include h

theorem Laid.head?_eq : first.head? = whole.head? := by
  obtain ⟨c, cs, rfl⟩ := List.exists_cons_of_ne_nil h.running.ne_nil
  rw [← h.joined]
  cases rest <;> rfl

theorem Laid.isBlockMarker_eq : isBlockMarker (trim first) = isBlockMarker (trim whole) := by
  rw [isBlockMarker, h.begins codeFence (by decide), h.begins propertiesFence (by decide),
    h.begins noteFence (by decide)]
  rfl

theorem Laid.startsAfresh_eq : startsAfresh (trim first) = startsAfresh (trim whole) := by
  simp [startsAfresh, h.begins]

/-- Lines that begin a paragraph are joined again to the whole text. -/
theorem Laid.logicalFrom_eq {paragraph : List (List Char)} (hsign : whole.head? ≠ some '#')
    (hmarker : isBlockMarker (trim whole) = false) (hends : endsParagraph first = true ∨ paragraph = [])
    (more : List (List Char)) :
    ∃ after, joinParagraph after = [whole] ∧
      logicalFrom false paragraph (lines ++ more) = joinParagraph paragraph ++ logicalFrom false after more := by
  refine ⟨first :: rest.map ([' '].intercalate), ?_, ?_⟩
  · rw [joinParagraph, if_neg (List.cons_ne_nil _ _), h.joined]
  · have htrim := h.running.trimEnd_eq []
    rw [List.nil_append] at htrim
    rw [← h.head?_eq] at hsign
    rw [← h.isBlockMarker_eq] at hmarker
    rw [h.cut, List.cons_append, logicalFrom_first _ _ hsign hmarker h.running.trim_ne_nil hends, htrim,
      logicalFrom_continues more (List.cons_ne_nil _ _) h.continues]
    rfl

end

/-- A paragraph that goes on gets longer. -/
theorem exists_longer : ∀ (lines : List (List Char)) (paragraph : List (List Char)), paragraph ≠ [] →
    ∃ tail others, logicalFrom false paragraph lines = ([' '].intercalate paragraph ++ tail) :: others
  | [], paragraph, hne => ⟨[], [], by simp [logicalFrom, joinParagraph, hne]⟩
  | line :: lines, paragraph, hne => by
    have hjoined : joinParagraph paragraph = [[' '].intercalate paragraph ++ []] := by
      rw [joinParagraph, if_neg hne, List.append_nil]
    by_cases hends : endsParagraph line = true
    · by_cases hmarker : isBlockMarker (trim line) = true
      · exact ⟨[], _, by rw [logicalFrom_marker _ _ hmarker, hjoined]; rfl⟩
      · by_cases hsign : line.head? = some '#'
        · exact ⟨[], _, by rw [logicalFrom_sign _ _ hsign, hjoined]; rfl⟩
        · by_cases hblank : trim line = []
          · exact ⟨[], _, by rw [logicalFrom_blank _ _ hblank, hjoined]; rfl⟩
          · refine ⟨[], logicalFrom false [trimEnd line] lines, ?_⟩
            rw [logicalFrom_first _ _ hsign (Bool.eq_false_of_not_eq_true hmarker) hblank (.inl hends), hjoined]
            rfl
    · obtain ⟨tail, others, heq⟩ := exists_longer lines (paragraph ++ [trim line]) (by simp)
      refine ⟨[' '] ++ trim line ++ tail, others, ?_⟩
      rw [logicalFrom_next _ _ (Bool.eq_false_of_not_eq_true hends) hne, heq, intercalate_append_singleton hne]
      simp only [List.append_assoc]

/-! ## Lines of text -/

/-- What the line of a list item or a paragraph is: words after its indentation, which are read as the entry
again, but for a paragraph that begins with a sign. -/
structure Entry.Lined (e : Entry) : Prop where
  running : Running (e.line 0)
  marker : isBlockMarker (trim (e.line 0)) = false
  found : Items [e.line 0] [e.reread]
  laid : ∀ width, ∃ first n rest, Laid (asRead (e.written width)) (e.line 0) first n rest

theorem asRead_written {e : Entry} (hgoes : e.goesOn = true) (width : Nat) :
    asRead (e.written width) = ((e.line width).splitOn '\n').map dropReturn := by
  rw [Entry.written, opened?_of_goesOn hgoes]
  simp [asRead]

theorem lined_item {n : Nat} {marker : Marker} {text : String} (h : IsWords text) :
    (Entry.block n (.item marker text [])).Lined := by
  obtain ⟨words, hwords, htext⟩ := isWords_iff.1 h
  have hsymbol : marker.symbol.toList ≠ [] ∧ (∀ c ∈ marker.symbol.toList, isBlank c = false) ∧
      isBlockMarker marker.symbol.toList = false := by
    cases marker <;> simp [Marker.symbol, isBlank, isBlockMarker, codeFence, noteFence, propertiesFence]
  have hwhole : AreWords ([marker.symbol.toList] ++ words) := by
    refine ⟨by simp, ?_⟩
    rw [List.singleton_append, List.forall_mem_cons]
    exact ⟨⟨hsymbol.1, hsymbol.2.1⟩, hwords.2⟩
  have hjoined : [' '].intercalate ([marker.symbol.toList] ++ words) = marker.symbol.toList ++ ' ' :: text.toList := by
    rw [List.singleton_append, List.intercalate_cons_of_ne_nil hwords.1, htext, List.append_assoc]
    rfl
  have hline : (Entry.block n (.item marker text [])).line 0 =
      spaces n ++ [' '].intercalate ([marker.symbol.toList] ++ words) := by
    rw [Entry.line, wrapChars_zero h.oneLine.1, hjoined]
    simp
  refine ⟨hline ▸ hwhole.running (lasting_spaces n).unbroken, ?_, ?_, fun width => ?_⟩
  · rw [hline, hwhole.solid.trim_eq isBlank_of_mem_spaces, List.singleton_append, isBlockMarker_intercalate]
    exact hsymbol.2.2
  · rw [hline, hjoined]
    exact items_item
  · rw [asRead_written rfl, hline, Entry.line, htext]
    simpa using exists_laid width n hwords hwhole

theorem lined_paragraph {n : Nat} {text : String} (hdrawn : (Node.paragraph text).Drawn) (h : IsWords text) :
    (Entry.block n (.paragraph text)).Lined := by
  obtain ⟨words, hwords, htext⟩ := isWords_iff.1 h
  have hplain := plain_of_drawn hdrawn h
  have hline : (Entry.block n (.paragraph text)).line 0 = spaces n ++ text.toList := by
    rw [Entry.line, wrapChars_zero h.oneLine.1]
  rw [htext] at hline
  refine ⟨hline ▸ hwords.running (lasting_spaces n).unbroken, ?_, ?_, fun width => ?_⟩
  · rw [hline, ← htext, trim_append isBlank_of_mem_spaces]
    exact hplain.marker
  · rw [hline, ← htext]
    exact items_paragraph hplain
  · rw [asRead_written rfl, hline, Entry.line, htext]
    simpa using exists_laid width n hwords (show AreWords ([] ++ words) from hwords)

theorem Entry.Fit.lined {e : Entry} (h : e.Fit) (hgoes : e.goesOn = true) : e.Lined := by
  have hworded := h.worded
  cases e with
  | heading => cases hgoes
  | block n node =>
    cases node with
    | item marker text children =>
      obtain rfl : children = [] := h.bare.2
      exact lined_item hworded
    | paragraph text => exact lined_paragraph h.drawn hworded
    | _ => cases hgoes

end RefPages.Markup
