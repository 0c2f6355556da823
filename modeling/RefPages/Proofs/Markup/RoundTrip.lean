/-
Rendering is undone by parsing on canonical forests, and nearly on legible ones. A rendered node, read after
whatever may stand before it, gives exactly its own logical lines: where no empty line separates a paragraph
from the paragraph before it, the paragraph begins with what never goes on with another one.
-/
import RefPages.Proofs.Markup.Reflow
import RefPages.Proofs.Markup.Written

namespace RefPages.Markup

open RefPages.Text

/-! ## Lines without wrapping -/

theorem wrapChars_of_not_mem (width : Nat) {lead text : List Char} (h : '\n' ∉ text) :
    wrapChars width lead text = wrapLine width lead text := by
  rw [wrapChars, List.splitOn_eq_singleton h]
  exact List.intercalate_singleton

theorem wrapChars_zero {lead text : List Char} (h : '\n' ∉ text) : wrapChars 0 lead text = lead ++ text :=
  wrapChars_of_not_mem 0 h

/-- Whether a text is made of words shows once it is cut at its blanks. -/
theorem isWords_of_all {text : String}
    (h : (text.toList.splitOn ' ').all (fun word => !word.isEmpty && word.all (!isBlank ·)) = true) :
    IsWords text := by
  refine ⟨text.toList.splitOn ' ', List.splitOn_ne_nil _ _, fun word hword => ?_, (List.intercalate_splitOn _).symm⟩
  have hword := List.all_eq_true.1 h word hword
  simpa using hword

theorem isLinkDefinition_append {cs : List Char} (h : isLinkDefinition cs = true) (before : List Char) :
    isLinkDefinition (before ++ cs) = true := by
  induction before with
  | nil => exact h
  | cons c before ih => simp [isLinkDefinition, ih]

/-- A paragraph that follows another without an empty line begins with what never goes on with a paragraph,
or both are link target definitions. -/
theorem startsAfresh_of_isTight {n : Nat} {text : List Char} {last : Option Node} (h : isTight text last = true) :
    startsAfresh (trim (spaces n ++ text)) = true ∨
      isLinkDefinition text = true ∧
        ∃ before, last = some (.paragraph before) ∧ isLinkDefinition before.toList = true := by
  -- what the text begins with is still there once it is trimmed
  have hafresh : ∀ c, [c] ∈ [['1', '.'], ['<'], ['>'], ['|'], ['-'], ['*']] → isBlank c = false →
      startsWith [c] text = true → startsAfresh (trim (spaces n ++ text)) = true := by
    intro c hmem hc hstart
    obtain ⟨rest, rfl⟩ := startsWith_iff.1 hstart
    have hsolid : Solid [c] := ⟨⟨c, [], rfl, hc⟩, ⟨[], c, rfl, hc⟩⟩
    have htrim := startsWith_trim hsolid (isBlank_of_mem_spaces (n := n)) rest
    rw [List.append_assoc] at htrim
    exact List.any_eq_true.2 ⟨[c], hmem, htrim⟩
  simp only [isTight, bothStartWith, Bool.or_eq_true, Bool.and_eq_true] at h
  rcases h with ((⟨h, -⟩ | ⟨h, -⟩) | ⟨h, -⟩) | ⟨h, hlast⟩
  · exact .inl (hafresh '|' (by simp) (by decide) h)
  · have hless : startsWith ['<'] text = true :=
      startsWith_iff.2 ((List.prefix_append ['<'] ['!', '-', '-']).trans (startsWith_iff.1 h))
    exact .inl (hafresh '<' (by simp) (by decide) hless)
  · exact .inl (hafresh '>' (by simp) (by decide) h)
  · split at hlast
    · exact .inr ⟨h, _, rfl, hlast⟩
    · cases hlast

/-- A paragraph that follows another without an empty line never goes on with it. -/
theorem endsParagraph_of_isTight {n : Nat} {text : List Char} {last : Option Node}
    (h : isTight text last = true) : endsParagraph (spaces n ++ text) = true := by
  unfold endsParagraph
  rcases startsAfresh_of_isTight (n := n) h with hafresh | ⟨hdefinition, -⟩
  · simp [hafresh]
  · simp [isLinkDefinition_append hdefinition]

/-! ## Rendered leaves -/

section

variable {n : Nat} {last : Option Node} {blank : Bool} {before : List (List Char)}

/-- A rendered paragraph goes on with no other, and when it begins with a sign, no other goes on
with it. -/
theorem reads_paragraph {text : List Char} (h : Plain text) (hready : Ready last blank before) :
    (∃ after, Reads before (renderParagraph 0 (spaces n) text last blank) [spaces n ++ text] after) ∧
      endsBlank blank (renderParagraph 0 (spaces n) text last blank) = false := by
  have hmarker : isBlockMarker (trim (spaces n ++ text)) = false := by
    rw [trim_append isBlank_of_mem_spaces]
    exact h.marker
  have hsolid : trim (spaces n ++ text) ≠ [] := by
    rw [trim_append isBlank_of_mem_spaces]
    exact h.trim_ne_nil
  have hplain : Lasting (spaces n ++ text) := (lasting_spaces n).append h.lasting
  have hline : ∀ {before}, endsParagraph (spaces n ++ text) = true ∨ before = [] →
      ∃ after, Reads before [spaces n ++ text] [spaces n ++ text] after := fun hends => by
    by_cases hhead : (spaces n ++ text).head? = some '#'
    · exact ⟨[], reads_sign hhead hplain⟩
    · exact ⟨_, reads_text hhead hmarker hsolid (h.trimEnd_eq _) hends hplain⟩
  have hne : spaces n ++ text ≠ [] := fun hnil => h.ne_nil (List.append_eq_nil_iff.1 hnil).2
  unfold renderParagraph
  rw [wrapChars_zero h.unbroken, endsBlank_append, endsBlank_singleton hne]
  refine ⟨?_, rfl⟩
  -- an empty line is left out only where the text itself or the node before it ends the paragraph
  by_cases htight : isTight text last = true
  · simpa [htight] using hline (.inl (endsParagraph_of_isTight htight))
  · by_cases htext : (last.bind Node.inlineText?).isSome = true
    · obtain ⟨after, hafter⟩ := hline (.inr rfl)
      exact ⟨after, by simpa [htight, htext] using (reads_gap hready.afterBlank).append hafter⟩
    · have hblank := hready.afterBlock (by simpa using htext)
      simpa [htight, htext] using hline (.inr (hready.afterBlank hblank))

/-- A fenced block and the empty line after it. -/
theorem reads_fenced (block : OpenBlock) {info : List Char} {inner : List (List Char)}
    (hinfo : Lasting info) (hinner : ∀ line ∈ inner, isBlockMarker (trim line) = false ∧ Lasting line) :
    Reads before ((spaces n ++ block.fence ++ info) :: inner ++ [spaces n ++ block.fence, []])
      ((spaces n ++ block.fence ++ info) :: inner ++ [spaces n ++ block.fence]) [] := by
  have hfence : Lasting (spaces n ++ block.fence) := (lasting_spaces n).append (lasting_fence block)
  have hclosing : isBlockMarker (trim (spaces n ++ block.fence)) = true := by
    simpa using block.isBlockMarker_fence n []
  have hplain : ∀ line ∈ (spaces n ++ block.fence ++ info) :: inner ++ [spaces n ++ block.fence],
      Lasting line := by
    intro line hline
    rcases List.mem_append.1 hline with hline | hline
    · rcases List.mem_cons.1 hline with rfl | hline
      · exact hfence.append hinfo
      · exact (hinner line hline).2
    · rw [List.mem_singleton.1 hline]
      exact hfence
  have hblock : Reads before _ _ [] := reads_block (block.isBlockMarker_fence n info)
    (fun line hline => (hinner line hline).1) hclosing hplain
  simpa using hblock.append (reads_blank [])

theorem reads_heading {level : Nat} {text : String} (hlevel : 0 < level) (htext : Lasting text.toList)
    (hblank : blank = true → before = []) :
    Reads before (gap blank ++ [List.replicate level '#' ++ ' ' :: text.toList])
      [List.replicate level '#' ++ ' ' :: text.toList] [] := by
  obtain ⟨signs, rfl⟩ : ∃ signs, level = signs + 1 := ⟨level - 1, by omega⟩
  have hplain : Lasting (List.replicate (signs + 1) '#' ++ ([' '] ++ text.toList)) :=
    (lasting_replicate (by decide) (by decide) _).append ((lasting_spaces 1).append htext)
  exact (reads_gap hblank).append (reads_sign rfl hplain)

theorem reads_item {marker : Marker} {text : String} (htext : Running text.toList) :
    Reads before [spaces n ++ (marker.symbol.toList ++ ' ' :: text.toList)]
      [spaces n ++ (marker.symbol.toList ++ ' ' :: text.toList)]
      [spaces n ++ (marker.symbol.toList ++ ' ' :: text.toList)] := by
  have hline : Running (marker.symbol.toList ++ ' ' :: text.toList) := by
    refine ⟨?_, ?_⟩
    · cases marker <;> simp [Marker.symbol, htext.unbroken]
    · obtain ⟨rest, c, heq, hc⟩ := htext.last
      exact ⟨marker.symbol.toList ++ ' ' :: rest, c, by simp [heq], hc⟩
  -- the marker is not trimmed away
  obtain ⟨c, rest, hsymbol, hc⟩ : ∃ c rest, marker.symbol.toList ++ ' ' :: text.toList = c :: rest ∧
      isBlank c = false := by
    cases marker
    · exact ⟨'-', _, rfl, by decide⟩
    · exact ⟨'*', _, rfl, by decide⟩
    · exact ⟨'1', _, rfl, by decide⟩
  have htrim : trim (spaces n ++ (marker.symbol.toList ++ ' ' :: text.toList)) =
      marker.symbol.toList ++ ' ' :: text.toList :=
    Solid.trim_eq ⟨⟨c, rest, hsymbol, hc⟩, hline.last⟩ isBlank_of_mem_spaces
  refine reads_text ?_ ?_ (htrim.symm ▸ hline.ne_nil) (hline.trimEnd_eq _) (.inl ?_)
    ((lasting_spaces n).append hline.lasting)
  · refine head?_spaces_ne ?_
    cases marker <;> simp [Marker.symbol]
  · rw [htrim]
    cases marker <;> simp [isBlockMarker, Marker.symbol, codeFence, noteFence, propertiesFence]
  · have : startsAfresh (marker.symbol.toList ++ ' ' :: text.toList) = true := by
      cases marker <;> simp [startsAfresh, Marker.symbol]
    simp [endsParagraph, htrim, this]

theorem reads_code {info : String} {lines : List String} (hinfo : Lasting info.toList)
    (hlines : ∀ line ∈ lines, Enclosed line.toList) (hblank : blank = true → before = []) :
    Reads before (renderLeaf 0 (spaces n) last blank (.code info lines))
      (linesOf (spaces n) (.code info lines)) [] := by
  have hinner : ∀ line ∈ lines.map fun line => codeLine (spaces n) line.toList,
      isBlockMarker (trim line) = false ∧ Lasting line := fun line hline => by
    obtain ⟨text, htext, rfl⟩ := List.mem_map.1 hline
    exact ⟨(hlines text htext).isBlockMarker_codeLine, (hlines text htext).lasting_codeLine n⟩
  have := (reads_gap hblank).append (reads_fenced (n := n) ⟨.code, [], [], 0, []⟩ hinfo hinner)
  simpa [renderLeaf, linesOf, OpenBlock.fence] using this

theorem reads_note {kind text : String} (hkind : Lasting kind.toList) (htext : Enclosed text.toList)
    (hblank : blank = true → before = []) :
    Reads before (renderLeaf 0 (spaces n) last blank (.note kind text))
      (linesOf (spaces n) (.note kind text)) [] := by
  have hinner : ∀ line ∈ [spaces n ++ text.toList], isBlockMarker (trim line) = false ∧ Lasting line :=
    fun line hline => by
      rw [List.mem_singleton.1 hline]
      exact ⟨htext.isBlockMarker_indented, (lasting_spaces n).append htext.lasting⟩
  have := (reads_gap hblank).append (reads_fenced (n := n) ⟨.note, [], [], 0, []⟩ hkind hinner)
  simpa [renderLeaf, linesOf, OpenBlock.fence, wrapChars_zero htext.lasting.unbroken] using this

theorem reads_properties {lines : List String} (hlines : ∀ line ∈ lines, Enclosed line.toList) :
    Reads before (renderLeaf 0 (spaces n) last blank (.properties lines))
      (linesOf (spaces n) (.properties lines)) [] := by
  have hinner : ∀ line ∈ lines.map fun line => spaces n ++ line.toList,
      isBlockMarker (trim line) = false ∧ Lasting line := fun line hline => by
    obtain ⟨text, htext, rfl⟩ := List.mem_map.1 hline
    exact ⟨(hlines text htext).isBlockMarker_indented,
      (lasting_spaces n).append (hlines text htext).lasting⟩
  have : Reads before _ _ [] :=
    reads_fenced (n := n) ⟨.properties, [], [], 0, []⟩ lasting_nil hinner
  simpa [renderLeaf, linesOf, OpenBlock.fence] using this

end

/-! ## Rendered forests -/

theorem Ready.of_text {node : Node} {blank : Bool} {before : List (List Char)}
    (htext : node.inlineText?.isSome = true) (hblank : blank = true → before = []) :
    Ready (some node) blank before := by
  refine ⟨hblank, fun h => ?_⟩
  rw [Option.bind_some] at h
  rw [h] at htext
  cases htext

/-- After a block any node may be written. -/
theorem Ready.of_block (last : Option Node) (blank : Bool) (lines : List (List Char)) (line : List Char) :
    Ready last (endsBlank blank (lines ++ [line, []])) [] := by
  have : lines ++ [line, []] = lines ++ [line] ++ [[]] := by simp
  rw [this, endsBlank_append_blank]
  exact ⟨fun _ => rfl, fun _ => rfl⟩

mutual

/-- A rendered node reads as its logical lines, and the next node may be written after it. -/
theorem reads_node {outer n : Nat} :
    ∀ (node : Node) {last : Option Node} {blank : Bool} {before : List (List Char)},
      node.Legible outer → (node.isHeading = true → n = 0) → Ready last blank before →
      ∃ after, Reads before (renderNode 0 (spaces n) last blank node) (linesOf (spaces n) node) after ∧
        Ready (some node) (endsBlank blank (renderNode 0 (spaces n) last blank node)) after
  | .heading level text children, last, blank, before, hc, _, hready => by
    obtain ⟨hlt, htext, -, hchildren⟩ := hc
    have hline := reads_heading (show 0 < level by omega) htext hready.afterBlank
    have hends : endsBlank blank (gap blank ++ [List.replicate level '#' ++ ' ' :: text.toList]) = false := by
      rw [endsBlank_append]
      exact endsBlank_singleton (by simp)
    have hready : Ready (some (.heading level text children)) false [] := .of_text rfl fun _ => rfl
    obtain ⟨after, hreads, hafter⟩ := reads_siblings children hchildren hready
    refine ⟨after, ?_, ?_⟩
    · rw [renderNode, linesOf, hends]
      exact hline.append hreads
    · rw [renderNode, endsBlank_append, hends]
      exact .of_text rfl hafter
  | .item marker text children, last, blank, before, hc, _, _ => by
    obtain ⟨htext, hplain, hchildren⟩ := hc
    have hline : Reads before [spaces n ++ (marker.symbol.toList ++ ' ' :: text.toList)] _ _ :=
      reads_item htext
    have hwrap : wrapChars 0 (spaces n ++ marker.symbol.toList ++ [' ']) text.toList =
        spaces n ++ (marker.symbol.toList ++ ' ' :: text.toList) := by
      rw [wrapChars_zero htext.unbroken]
      simp
    have hends : endsBlank blank [spaces n ++ (marker.symbol.toList ++ ' ' :: text.toList)] = false :=
      endsBlank_singleton (by simp)
    -- under an item every node takes the item for the node before it
    have hready : Ready (some (.item marker text children)) false
        [spaces n ++ (marker.symbol.toList ++ ' ' :: text.toList)] := .of_text rfl (by simp)
    obtain ⟨after, hreads, hafter⟩ := reads_under (n := n + underItem marker) children hchildren
      hplain rfl hready
    refine ⟨after, ?_, ?_⟩
    · rw [renderNode, linesOf, hwrap, hends, spaces_append, spaces_append]
      exact hline.append hreads
    · rw [renderNode, endsBlank_append, hwrap, hends, spaces_append]
      exact .of_text rfl hafter
  | .code info lines, last, blank, before, hc, _, hready => by
    rw [renderNode.eq_3 _ _ _ _ _ (by simp) (by simp)]
    exact ⟨[], reads_code hc.1 hc.2 hready.afterBlank, .of_block _ _ _ _⟩
  | .note kind text, last, blank, before, hc, _, hready => by
    rw [renderNode.eq_3 _ _ _ _ _ (by simp) (by simp)]
    refine ⟨[], reads_note hc.1 hc.2.2 hready.afterBlank, ?_⟩
    have := Ready.of_block (some (.note kind text)) blank (gap blank ++
      [spaces n ++ noteFence ++ kind.toList, wrapChars 0 (spaces n) text.toList]) (spaces n ++ noteFence)
    simpa [renderLeaf] using this
  | .properties lines, last, blank, before, hc, _, _ => by
    rw [renderNode.eq_3 _ _ _ _ _ (by simp) (by simp)]
    exact ⟨[], reads_properties hc, .of_block _ _ _ _⟩
  | .paragraph text, last, blank, before, hc, _, hready => by
    obtain ⟨⟨after, hreads⟩, hends⟩ := reads_paragraph (n := n) hc hready
    rw [renderNode.eq_3 _ _ _ _ _ (by simp) (by simp)]
    refine ⟨after, hreads, .of_text rfl fun h => ?_⟩
    rw [renderLeaf, hends] at h
    cases h

/-- Rendered nodes that follow one another read as their logical lines. -/
theorem reads_siblings {outer : Nat} :
    ∀ (nodes : List Node) {last : Option Node} {blank : Bool} {before : List (List Char)},
      LegibleAll outer nodes → Ready last blank before →
      ∃ after, Reads before (renderSiblings 0 last blank nodes) (linesOfAll [] nodes) after ∧
        (endsBlank blank (renderSiblings 0 last blank nodes) = true → after = [])
  | [], last, blank, before, _, hready => ⟨before, .nil before, hready.afterBlank⟩
  | node :: nodes, last, blank, before, hc, hready => by
    obtain ⟨between, hreads, hbetween⟩ := reads_node (n := 0) node hc.1 (fun _ => rfl) hready
    obtain ⟨after, hrest, hafter⟩ := reads_siblings nodes hc.2 hbetween
    refine ⟨after, hreads.append hrest, fun h => hafter ?_⟩
    rwa [renderSiblings, endsBlank_append] at h

/-- Rendered nodes under a list item read as their logical lines. -/
theorem reads_under {outer n : Nat} :
    ∀ (nodes : List Node) {parent : Node} {blank : Bool} {before : List (List Char)},
      LegibleAll outer nodes → (∀ node ∈ nodes, node.isHeading = false) →
      parent.inlineText?.isSome = true → Ready (some parent) blank before →
      ∃ after, Reads before (renderUnder 0 (spaces n) parent blank nodes)
          (linesOfAll (spaces n) nodes) after ∧
        (endsBlank blank (renderUnder 0 (spaces n) parent blank nodes) = true → after = [])
  | [], parent, blank, before, _, _, _, hready => ⟨before, .nil before, hready.afterBlank⟩
  | node :: nodes, parent, blank, before, hc, hplain, hparent, hready => by
    have hheading : node.isHeading = true → n = 0 := fun h => by
      rw [hplain node List.mem_cons_self] at h
      cases h
    obtain ⟨between, hreads, hbetween⟩ := reads_node node hc.1 hheading hready
    obtain ⟨after, hrest, hafter⟩ := reads_under nodes hc.2
      (fun other ho => hplain other (List.mem_cons_of_mem _ ho)) hparent
      (Ready.of_text hparent hbetween.afterBlank)
    refine ⟨after, hreads.append hrest, fun h => hafter ?_⟩
    rwa [renderUnder, endsBlank_append] at h

end

/-- Parsing what a legible forest is rendered to gives the forest of its entries, reread. -/
theorem parse_render_eq {nodes : List Node} (h : Legible nodes) :
    parse (render 0 nodes) = .ok (nest ((entriesOfAll 0 nodes).map Entry.reread)) := by
  have hready : Ready none true [] := ⟨fun _ => rfl, fun _ => rfl⟩
  obtain ⟨after, hreads, -⟩ := reads_siblings nodes h.nodes hready
  rw [parse, render, String.toList_ofList, hreads.logicalLines_eq, forest_linesOfAll_eq h]

/-- Canonical nodes that follow one another read as their logical lines. -/
theorem reads_renderSiblings {outer : Nat} (nodes : List Node) {last : Option Node} {blank : Bool}
    {before : List (List Char)} (h : CanonicalAll outer nodes) (hready : Ready last blank before) :
    ∃ after, Reads before (renderSiblings 0 last blank nodes) (linesOfAll [] nodes) after ∧
      (endsBlank blank (renderSiblings 0 last blank nodes) = true → after = []) :=
  reads_siblings nodes h.legible hready

/-- Parsing what a canonical forest is rendered to, with lines of any length, gives the forest. -/
theorem parse_render {nodes : List Node} (h : Canonical nodes) : parse (render 0 nodes) = .ok nodes := by
  have hready : Ready none true [] := ⟨fun _ => rfl, fun _ => rfl⟩
  obtain ⟨after, hreads, -⟩ := reads_renderSiblings nodes h.nodes hready
  rw [parse, render, String.toList_ofList, hreads.logicalLines_eq, forest_linesOfAll h]

/-- Tables, items with a paragraph and code under them, and headings with notes. -/
def pageForest : List Node :=
  [.properties ["id: page"], .paragraph "| a", .paragraph "| b", .paragraph "text",
    .item .dash "an item" [.paragraph "below", .code "js" ["", "  f();"], .item .number "deep" []],
    .heading 2 "A" [.note "note" "mind # this", .heading 3 "b" []], .heading 1 "C" [.paragraph "> c"]]

theorem parse_render_page : Canonical pageForest ∧ parse (render 0 pageForest) = .ok pageForest := by
  have hwords : IsWords "| a" ∧ IsWords "| b" ∧ IsWords "text" ∧ IsWords "an item" ∧ IsWords "below" ∧
      IsWords "deep" ∧ IsWords "> c" :=
    ⟨isWords_of_all rfl, isWords_of_all rfl, isWords_of_all rfl, isWords_of_all rfl,
      isWords_of_all rfl, isWords_of_all rfl, isWords_of_all rfl⟩
  have hpage : Canonical pageForest :=
    ⟨by simp [pageForest, MayPrecede],
      by simp [pageForest, CanonicalAll, Node.Canonical, hwords, MayPrecede, Node.isHeading, IsInner,
        OneLine, Unbroken, markers]; decide⟩
  exact ⟨hpage, parse_render hpage⟩

end RefPages.Markup
