/-
Finding an entry where it is written. An entry has logical lines of its own when the markers among the lines
of a block come in pairs; it is found when these are read as the entry again, and that does not depend on
the width.
-/
import RefPages.Proofs.Markup.Laid

namespace RefPages.Markup

open RefPages.Text

/-! ## Blocks -/

theorem mem_asRead {line : List Char} {lines : List (List Char)} (h : ∀ line ∈ lines, '\n' ∉ line)
    (hmem : line ∈ asRead lines) : ∃ written ∈ lines, line = dropReturn written := by
  obtain ⟨piece, hpiece, rfl⟩ := List.mem_map.1 hmem
  obtain ⟨written, hwritten, hpiece⟩ := List.mem_flatMap.1 hpiece
  rw [List.splitOn_eq_singleton (h written hwritten), List.mem_singleton] at hpiece
  exact ⟨written, hwritten, by rw [hpiece]⟩

/-- A block as its first line is read again. -/
def OpenBlock.reread (block : OpenBlock) : OpenBlock := { block with info := dropReturn block.info }

/-- A block that an entry opens at some indentation, which nothing inside closes. -/
structure Entry.Opens (e : Entry) (n : Nat) (opened : OpenBlock) : Prop where
  entry : e = .block n e.node
  block : opened.reread = ⟨opened.kind, spaces n, dropReturn opened.info, 0, []⟩
  unbroken : '\n' ∉ opened.info
  opener : opener? (opened.fence ++ dropReturn opened.info) = some (opened.kind, dropReturn opened.info)
  inside : ∀ width, ∀ line ∈ asRead (e.inside width), opened.closes line = false

theorem closes_asRead {block : OpenBlock} {lines : List (List Char)}
    (h : ∀ line ∈ lines, '\n' ∉ line ∧ block.closes line = false) :
    ∀ line ∈ asRead lines, block.closes line = false := by
  intro line hline
  obtain ⟨written, hwritten, rfl⟩ := mem_asRead (fun line hline => (h line hline).1) hline
  rw [OpenBlock.closes, trim_dropReturn]
  exact (h written hwritten).2

theorem Continues.marker {n : Nat} {part : List (List Char)} (h : Continues (spaces n) part) :
    isBlockMarker (trim (spaces n ++ [' '].intercalate part)) = false := by
  have := h.goes_on
  rw [endsParagraph, Bool.or_eq_false_iff] at this
  exact this.2

theorem Laid.closes {lines : List (List Char)} {whole first : List Char} {n : Nat} {rest : List (List (List Char))}
    (h : Laid lines whole first n rest) {block : OpenBlock} (hwhole : block.closes whole = false) :
    ∀ line ∈ lines, block.closes line = false := by
  rw [h.cut, List.forall_mem_cons, List.forall_mem_map]
  refine ⟨?_, fun part hpart => OpenBlock.closes_of_not_marker (h.continues part hpart).marker⟩
  rw [OpenBlock.closes, h.begins _ block.space_not_mem_fence]
  exact hwhole

theorem Entry.Fit.opens {e : Entry} (h : e.Fit) {opened : OpenBlock} (hopened : e.opened? = some opened) :
    ∃ n, e.Opens n opened := by
  have hdrawn := h.drawn
  unfold Entry.opened? at hopened
  split at hopened
  · rename_i n info lines
    cases hopened
    obtain ⟨hinfo, hlines⟩ := hdrawn
    refine ⟨n, rfl, rfl, hinfo, by rw [OpenBlock.fence, opener?, after?_append], fun width => closes_asRead ?_⟩
    rw [Entry.inside, List.forall_mem_map]
    intro line hline
    unfold codeLine
    split
    · exact ⟨by simp, by rfl⟩
    · refine ⟨by simp [(lasting_spaces n).unbroken, (hlines line hline).unbroken], ?_⟩
      rw [OpenBlock.closes, trim_append isBlank_of_mem_spaces]
      exact (hlines line hline).opened
  · rename_i n kind text
    cases hopened
    obtain ⟨hkind, -, htext⟩ := hdrawn
    obtain ⟨words, hwords, heq⟩ := isWords_iff.1 (show IsWords text from h.worded)
    refine ⟨n, rfl, rfl, hkind, by rw [OpenBlock.fence, opener?, after?_append]; rfl, fun width => ?_⟩
    obtain ⟨first, m, rest, hlaid⟩ := exists_laid width n hwords (show AreWords ([] ++ words) from hwords)
    rw [Entry.inside, asRead, List.flatMap_singleton, heq]
    rw [List.flatMap_nil, List.append_nil] at hlaid
    refine hlaid.closes ?_
    rw [List.nil_append, ← heq, OpenBlock.closes, trim_append isBlank_of_mem_spaces]
    exact htext
  · rename_i n lines
    cases hopened
    refine ⟨n, rfl, rfl, by simp, by rfl, fun width => closes_asRead ?_⟩
    rw [Entry.inside, List.forall_mem_map]
    intro line hline
    refine ⟨by simp [(lasting_spaces n).unbroken, (hdrawn line hline).unbroken], ?_⟩
    rw [OpenBlock.closes, trim_append isBlank_of_mem_spaces]
    exact (hdrawn line hline).opened
  · cases hopened

/-! ## The logical lines of an entry -/

/-- What is read where an entry is written. -/
def Entry.logical (width : Nat) (e : Entry) : List (List Char) :=
  match e.opened? with
  | some opened =>
    (opened.indent ++ opened.fence ++ dropReturn opened.info) :: logicalFrom true [] (asRead (e.inside width)) ++
      [opened.indent ++ opened.fence]
  | none => [dropReturn (e.line 0)]

/-- An entry that is found where it is written: the markers among the lines of a block come in pairs, and
the entry is what its logical lines are read as. -/
structure Entry.Found (width : Nat) (e : Entry) : Prop where
  paired : blockAfter true (asRead (e.inside width)) = true
  items : Items (e.logical width) [e]

theorem logical_of_goesOn {e : Entry} (hlined : e.Lined) (hgoes : e.goesOn = true) (width : Nat) :
    e.logical width = [e.line 0] := by
  rw [Entry.logical, opened?_of_goesOn hgoes]
  exact congrArg ([·]) hlined.running.dropReturn_eq

theorem logical_heading (level : Nat) (text : String) (width : Nat) :
    (Entry.heading level text).logical width = [List.replicate level '#' ++ ' ' :: dropReturn text.toList] := by
  have hlast : (List.replicate level '#' ++ [' ']).getLast? ≠ some '\r' := by simp
  have hline := dropReturn_append hlast text.toList
  rw [List.append_assoc, List.append_assoc] at hline
  exact congrArg ([·]) hline

/-! ## Writing one more entry -/

theorem gapBefore_eq (last? : Option Entry) (e : Entry) : gapBefore last? e = [] ∨ gapBefore last? e = [[]] := by
  have hgap : ∀ blank, gap blank = [] ∨ gap blank = [[]] := by decide
  unfold gapBefore
  split
  · split
    · exact .inl rfl
    · exact hgap _
  · exact .inl rfl
  · exact .inl rfl
  · exact hgap _

theorem logicalFrom_nil_line (paragraph lines : List (List Char)) :
    logicalFrom false paragraph ([] :: lines) = joinParagraph paragraph ++ logicalFrom false [] lines :=
  logicalFrom_blank _ _ rfl

/-- Before lines that end the paragraph anyway an empty line makes no difference. -/
theorem logicalFrom_gapBefore {last? : Option Entry} {e : Entry} {lines done : List (List Char)}
    (h : ∀ paragraph, logicalFrom false paragraph lines = joinParagraph paragraph ++ done)
    (paragraph : List (List Char)) :
    logicalFrom false paragraph (gapBefore last? e ++ lines) = joinParagraph paragraph ++ done := by
  rcases gapBefore_eq last? e with hgap | hgap
  · rw [hgap]
    exact h paragraph
  · rw [hgap, List.singleton_append, logicalFrom_nil_line, h]
    rfl

section

variable {width : Nat} {e : Entry} (last? : Option Entry) (paragraph more : List (List Char))

/-- What is read where a heading is written. -/
theorem logicalFrom_heading {level : Nat} {text : String} (hlevel : 0 < level) (htext : '\n' ∉ text.toList) :
    logicalFrom false paragraph (gapBefore last? (.heading level text) ++
        asRead ((Entry.heading level text).written width) ++ more) =
      joinParagraph paragraph ++ ((Entry.heading level text).logical width ++ logicalFrom false [] more) := by
  have hfeed : '\n' ∉ List.replicate level '#' ++ ' ' :: text.toList := by simp [htext]
  have hread : asRead ((Entry.heading level text).written width) = (Entry.heading level text).logical width := by
    show asRead [List.replicate level '#' ++ ' ' :: text.toList] = _
    rw [asRead, List.flatMap_singleton, List.splitOn_eq_singleton hfeed]
    rfl
  obtain ⟨signs, rfl⟩ : ∃ signs, level = signs + 1 := ⟨level - 1, by omega⟩
  rw [List.append_assoc, hread, logical_heading]
  exact logicalFrom_gapBefore (fun paragraph => logicalFrom_sign _ _ rfl) paragraph

/-- What is read where a block is written; an odd number of markers among its lines leaves the reader inside
of a block. -/
theorem logicalFrom_opened {n : Nat} {opened : OpenBlock} (hopens : e.Opens n opened)
    (hopened : e.opened? = some opened) :
    logicalFrom false paragraph (gapBefore last? e ++ asRead (e.written width) ++ more) =
      joinParagraph paragraph ++
        (e.logical width ++ logicalFrom (!blockAfter true (asRead (e.inside width))) [] ([] :: more)) := by
  have hindent : opened.indent = spaces n := congrArg OpenBlock.indent hopens.block
  have hfence : '\n' ∉ opened.indent ++ opened.fence := by
    rw [hindent]
    exact ((lasting_spaces n).append (lasting_fence opened)).unbroken
  have hlast : (opened.indent ++ opened.fence).getLast? ≠ some '\r' := by
    rw [hindent]
    exact ((lasting_spaces n).append (lasting_fence opened)).last
  have hread : asRead (e.written width) = (opened.indent ++ opened.fence ++ dropReturn opened.info) ::
      asRead (e.inside width) ++ [opened.indent ++ opened.fence, []] := by
    have hsingle : ∀ line, '\n' ∉ line → asRead [line] = [dropReturn line] := fun line hline => by
      rw [asRead, List.flatMap_singleton, List.splitOn_eq_singleton hline]
      rfl
    rw [Entry.written, hopened]
    show asRead ([opened.indent ++ opened.fence ++ opened.info] ++ e.inside width ++
      ([opened.indent ++ opened.fence] ++ [[]])) = _
    rw [asRead_append, asRead_append, asRead_append, hsingle _ (by simp [hopens.unbroken] at hfence ⊢; exact hfence),
      hsingle _ hfence, dropReturn_append hlast, dropReturn_eq_self hlast]
    rfl
  have hmarker : ∀ rest, isBlockMarker (trim (opened.indent ++ opened.fence ++ rest)) = true := fun rest => by
    rw [hindent]
    exact opened.isBlockMarker_fence n rest
  have hclosing : isBlockMarker (trim (opened.indent ++ opened.fence)) = true := by
    simpa using hmarker []
  have hlines : asRead (e.written width) ++ more = (opened.indent ++ opened.fence ++ dropReturn opened.info) ::
      (asRead (e.inside width) ++ (opened.indent ++ opened.fence) :: [] :: more) := by
    rw [hread]
    simp
  rw [List.append_assoc, hlines]
  refine logicalFrom_gapBefore (fun paragraph => ?_) paragraph
  rw [logicalFrom_marker _ _ (hmarker _), logicalFrom_append_marker hclosing _ _ (by simp), Entry.logical, hopened]
  simp

end

/-! ## Reading an entry again -/

theorem reread_eq_of_node {e : Entry} (h : e.reread.node = e.node) : e.reread = e := by
  unfold Entry.reread at h ⊢
  split at h
  · split at h
    · cases h
    · rename_i hsign
      exact if_neg hsign
  · rfl

/-- What begins with the logical lines of an entry and is read as its node first is read as the entry. -/
theorem found_of_items {width : Nat} {e : Entry} (hfit : e.Fit) {lines : List (List Char)} {items : List Entry}
    {nodes : List Node} (h : Items (e.logical width ++ lines) items) (hnodes : items.map Entry.node = e.node :: nodes) :
    Items (e.logical width) [e] ∧ ∃ others, Items lines others ∧ others.map Entry.node = nodes := by
  rcases hfit.bare.cases with ⟨level, text, rfl⟩ | hgoes | ⟨opened, hopened⟩
  · have hline := items_heading hfit.drawn.1 (String.ofList (dropReturn text.toList))
    rw [String.toList_ofList] at hline
    rw [logical_heading] at h ⊢
    obtain ⟨others, hothers, rfl⟩ := items_of_cons_singleton hline h
    obtain ⟨hnode, hrest⟩ := List.cons.inj hnodes
    have htext : String.ofList (dropReturn text.toList) = text := by
      injection hnode
    rw [htext] at hline
    exact ⟨hline, others, hothers, hrest⟩
  · have hlined := hfit.lined hgoes
    rw [logical_of_goesOn hlined hgoes] at h ⊢
    obtain ⟨others, hothers, rfl⟩ := items_of_cons_singleton hlined.found h
    obtain ⟨hnode, hrest⟩ := List.cons.inj hnodes
    have hfound := hlined.found
    rw [reread_eq_of_node hnode] at hfound
    exact ⟨hfound, others, hothers, hrest⟩
  · obtain ⟨n, hopens⟩ := hfit.opens hopened
    -- the lines inside do not close the block, so it ends where it is written to end
    have hindent : opened.indent = spaces n := congrArg OpenBlock.indent hopens.block
    obtain ⟨hsign, hopening⟩ := openedBy?_fence n hopens.block hopens.opener
    have hinside := opened_logicalFrom opened true (hopens.inside width)
    have hclosing := opened.closes_fence n
    rw [← hindent] at hsign hopening hclosing
    have hlogical : e.logical width = (opened.indent ++ opened.fence ++ dropReturn opened.info) ::
        logicalFrom true [] (asRead (e.inside width)) ++ [opened.indent ++ opened.fence] := by
      rw [Entry.logical, hopened]
    rw [hlogical] at h ⊢
    rw [List.append_assoc, List.cons_append, List.singleton_append] at h
    rcases items_of_cons h with ⟨hhead, -⟩ | ⟨-, hnone, -⟩ | ⟨-, block, hother, hcloses⟩
    · exact absurd hhead hsign
    · have := hnone.symm.trans hopening
      cases this
    · cases hother.symm.trans hopening
      obtain ⟨inner, others, hinner, hothers, rfl⟩ :=
        closesWith_append (show opened.reread.closes _ = true from hclosing) hinside hcloses
      obtain ⟨hnode, hrest⟩ := List.cons.inj hnodes
      have hentry : (opened.reread.extend inner).entry = e := by
        rw [hopens.entry, ← hnode]
        show Entry.block opened.indent.length _ = _
        rw [hindent, length_spaces]
        rfl
      have hitems : Items (_ :: logicalFrom true [] (asRead (e.inside width)) ++ [_]) _ :=
        .block hsign hopening hinside hinner hclosing .nil
      rw [hentry] at hitems
      exact ⟨hitems, others, hothers, hrest⟩

/-- What is read as a list item or a paragraph does not begin with a sign. -/
theorem sign_ne_of_items {e : Entry} {line : List Char} {lines : List (List Char)} {items : List Entry}
    {nodes : List Node} (hgoes : e.goesOn = true) (h : Items (line :: lines) items)
    (hnodes : items.map Entry.node = e.node :: nodes) :
    line.head? ≠ some '#' := fun hsign => by
  rcases items_of_cons h with ⟨-, others, -, rfl⟩ | ⟨hnone, -⟩ | ⟨hnone, -⟩
  · have hnode : (headingEntry line).node = e.node := (List.cons.inj hnodes).1
    cases e with
    | heading => cases hgoes
    | block n node =>
      cases node with
      | item => cases hnode
      | paragraph => cases hnode
      | _ => cases hgoes
  · exact hnone hsign
  · exact hnone hsign

theorem paired_of_goesOn {e : Entry} (hgoes : e.goesOn = true) (width : Nat) :
    blockAfter true (asRead (e.inside width)) = true := by
  cases e with
  | heading => rfl
  | block n node =>
    cases node with
    | item => rfl
    | paragraph => rfl
    | _ => cases hgoes

/-! ## Other widths -/

/-- Wrapped words are read as they are written. -/
theorem map_dropReturn_wrappedLines (width n : Nat) {text : String} (h : IsWords text) :
    (wrappedLines width (spaces n) text.toList).map dropReturn = wrappedLines width (spaces n) text.toList := by
  obtain ⟨words, hwords, htext⟩ := isWords_iff.1 h
  obtain ⟨first, rest, hlines, hcut⟩ := exists_cut width (lasting_spaces n).unbroken hwords
  have hrunning := hcut.running hwords (lasting_spaces n).unbroken
  rw [htext, hlines, List.map_congr_left fun line h => (hrunning line h).dropReturn_eq, List.map_id']

/-- A note whose text is no block marker is found at any width. -/
theorem found_note {n : Nat} {kind text : String} (hkind : trim kind.toList = kind.toList) (h : IsWords text)
    (hmarker : isBlockMarker (trim text.toList) = false) (width : Nat) :
    (Entry.block n (.note kind text)).Found width := by
  obtain ⟨words, hwords, htext⟩ := isWords_iff.1 h
  obtain ⟨first, rest, hlines, hcut⟩ := exists_cut width (lasting_spaces n).unbroken hwords
  have hrunning := hcut.running hwords (lasting_spaces n).unbroken
  rw [byteCount_spaces] at hlines hcut
  have hparts : ∀ part ∈ first :: rest, AreWords part := by
    rw [List.forall_mem_cons]
    exact ⟨hcut.areWords hwords, fun part hpart => (hcut.continues part hpart).words⟩
  have hinside : asRead ((Entry.block n (.note kind text)).inside width) =
      (first :: rest).map (spaces n ++ [' '].intercalate ·) := by
    rw [Entry.inside, asRead, List.flatMap_singleton]
    exact (map_dropReturn_wrappedLines width n h).trans (by rw [htext, hlines]; rfl)
  have hmarkers :
      ∀ line ∈ (first :: rest).map (spaces n ++ [' '].intercalate ·), isBlockMarker (trim line) = false := by
    rw [List.forall_mem_map, List.forall_mem_cons]
    refine ⟨?_, fun part hpart => (hcut.continues part hpart).marker⟩
    -- the first line and the whole text begin with the same word
    obtain ⟨word, others, rfl⟩ := List.exists_cons_of_ne_nil hcut.filled
    have htrim := hwords.solid.trim_eq (show ∀ c ∈ ([] : List Char), isBlank c = true by simp)
    rw [List.nil_append] at htrim
    rw [htext, htrim, ← hcut.whole, List.cons_append, isBlockMarker_intercalate] at hmarker
    rwa [(hparts _ List.mem_cons_self).solid.trim_eq isBlank_of_mem_spaces, isBlockMarker_intercalate]
  refine ⟨?_, ?_⟩
  · rw [hinside]
    exact blockAfter_inner hmarkers true
  · have hkept := logicalFrom_inner hmarkers []
    rw [List.append_nil, logicalFrom, joinParagraph, if_pos rfl, List.append_nil] at hkept
    have hopener : opener? (noteFence ++ dropReturn kind.toList) = some (.note, dropReturn kind.toList) := by
      rw [opener?, after?_append]
      rfl
    have hitems := items_block n .note (dropReturn kind.toList) _ rfl hopener hmarkers
      (mapM_map_eq_some fun part _ =>
        OpenBlock.strip?_indent ⟨.note, spaces n, dropReturn kind.toList, 0, []⟩ ([' '].intercalate part))
    -- no line of the note is empty, and together they are the text
    have hfilter : ((first :: rest).map [' '].intercalate).filter (· ≠ []) =
        (first :: rest).map [' '].intercalate := by
      refine List.filter_eq_self.2 ?_
      rw [List.forall_mem_map]
      exact fun part hpart => by simpa using (hparts part hpart).solid.ne_nil
    have hjoined : [' '].intercalate ((first :: rest).map ([' '].intercalate)) = text.toList := by
      rw [intercalate_map_intercalate fun part hpart => (hparts part hpart).1, htext, ← hcut.whole]
      rfl
    have hentry : ((⟨.note, spaces n, dropReturn kind.toList, 0, []⟩ : OpenBlock).extend
        ((first :: rest).map ([' '].intercalate))).entry = .block n (.note kind text) := by
      simp only [OpenBlock.entry, OpenBlock.node, OpenBlock.extend, List.nil_append, hfilter, hjoined, length_spaces,
        trim_dropReturn, hkind, String.ofList_toList]
    rw [hentry] at hitems
    show Items (_ :: logicalFrom true [] (asRead _) ++ [_]) _
    rw [hinside, hkept]
    exact hitems

/-- An entry that is found without wrapping is found at any width. -/
theorem Entry.Found.of_zero {e : Entry} (h : e.Found 0) (hfit : e.Fit) (width : Nat) : e.Found width := by
  cases e with
  | heading => exact ⟨h.paired, h.items⟩
  | block n node =>
    cases node with
    | note kind text =>
      obtain ⟨-, hkind, -⟩ := hfit.drawn
      have hwords : IsWords text := hfit.worded
      refine found_note hkind hwords ?_ width
      -- a marker would leave the reader outside of the block
      have hfeed : '\n' ∉ spaces n ++ text.toList := ((lasting_spaces n).append hwords.running.lasting).unbroken
      have hpaired : blockAfter true (asRead [wrapChars 0 (spaces n) text.toList]) = true := h.paired
      rw [wrapChars_zero hwords.oneLine.1, asRead, List.flatMap_singleton, List.splitOn_eq_singleton hfeed] at hpaired
      simpa [blockAfter, trim_dropReturn, trim_append isBlank_of_mem_spaces] using hpaired
    | _ => exact ⟨h.paired, h.items⟩

end RefPages.Markup
