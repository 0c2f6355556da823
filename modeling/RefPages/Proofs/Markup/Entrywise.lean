/-
Rendering entry by entry. What is written for a node depends on the nodes above it only through its
indentation, and on those before it only through the last entry, which decides whether an empty line
is written in between; so the lines of a forest are those of its entries.
-/
import RefPages.Proofs.Markup.Wrapped

namespace RefPages.Markup

open RefPages.Text

/-! ## The lines of entries -/

/-- The lines of a block, and the empty line after it. -/
def OpenBlock.around (block : OpenBlock) (inside : List (List Char)) : List (List Char) :=
  (block.indent ++ block.fence ++ block.info) :: inside ++ [block.indent ++ block.fence, []]

namespace Entry

/-- The block that an entry opens; a heading, a list item or a paragraph opens none. -/
def opened? : Entry → Option OpenBlock
  | .block n (.code info _) => some ⟨.code, spaces n, info.toList, 0, []⟩
  | .block n (.note kind _) => some ⟨.note, spaces n, kind.toList, 0, []⟩
  | .block n (.properties _) => some ⟨.properties, spaces n, [], 0, []⟩
  | _ => none

/-- What is written between the markers of a block. -/
def inside (width : Nat) : Entry → List (List Char)
  | .block n (.code _ lines) => lines.map fun line => codeLine (spaces n) line.toList
  | .block n (.note _ text) => [wrapChars width (spaces n) text.toList]
  | .block n (.properties lines) => lines.map fun line => spaces n ++ line.toList
  | _ => []

/-- What is written for an entry that opens no block. -/
def line (width : Nat) : Entry → List Char
  | .heading level text => List.replicate level '#' ++ ' ' :: text.toList
  | .block n (.item marker text _) => wrapChars width (spaces n ++ marker.symbol.toList ++ [' ']) text.toList
  | .block n (.paragraph text) => wrapChars width (spaces n) text.toList
  | _ => []

/-- What is written for an entry. -/
def written (width : Nat) (e : Entry) : List (List Char) :=
  match e.opened? with
  | some opened => opened.around (e.inside width)
  | none => [e.line width]

end Entry

/-- Whether what is written for an entry ends with an empty line; nothing at all counts as one. -/
def blankAfter : Option Entry → Bool
  | some e => e.opened?.isSome
  | none => true

/-- Whether a paragraph without indentation belongs together with the paragraph before it. -/
def tightAfter (n : Nat) (text : String) : Option Entry → Bool
  | some (.block 0 (.paragraph before)) => n = 0 && isTight text.toList (some (.paragraph before))
  | _ => false

/-- The empty line before an entry, if there is one. -/
def gapBefore (last? : Option Entry) : Entry → List (List Char)
  | .block n (.paragraph text) => if tightAfter n text last? then [] else gap (blankAfter last?)
  | .block _ (.item ..) | .block _ (.properties _) => []
  | _ => gap (blankAfter last?)

/-- What is written for some entries after the entry `last?`. -/
def writtenFrom (width : Nat) : Option Entry → List Entry → List (List Char)
  | _, [] => []
  | last?, e :: es => gapBefore last? e ++ e.written width ++ writtenFrom width (some e) es

/-- The last of some entries, or the one before them. -/
def lastAfter (last? : Option Entry) (es : List Entry) : Option Entry := es.getLast?.or last?

theorem lastAfter_append (last? : Option Entry) (es es' : List Entry) :
    lastAfter last? (es ++ es') = lastAfter (lastAfter last? es) es' := by
  unfold lastAfter
  rw [List.getLast?_append, Option.or_assoc]

theorem lastAfter_cons (last? : Option Entry) (e : Entry) (es : List Entry) :
    lastAfter last? (e :: es) = lastAfter (some e) es := lastAfter_append last? [e] es

theorem writtenFrom_append (width : Nat) (last? : Option Entry) (es es' : List Entry) :
    writtenFrom width last? (es ++ es') =
      writtenFrom width last? es ++ writtenFrom width (lastAfter last? es) es' := by
  induction es generalizing last? with
  | nil => rfl
  | cons e es ih =>
    rw [List.cons_append, writtenFrom, writtenFrom, ih, ← List.append_assoc,
      lastAfter_cons]

/-- Whether what is written ends with an empty line depends on the last entry only. -/
theorem endsBlank_writtenFrom {width : Nat} :
    ∀ {es : List Entry} {last? : Option Entry}, (∀ e ∈ es, e.opened? = none → e.line width ≠ []) →
      endsBlank (blankAfter last?) (writtenFrom width last? es) = blankAfter (lastAfter last? es)
  | [], _, _ => rfl
  | e :: es, last?, h => by
    obtain ⟨he, hes⟩ := List.forall_mem_cons.1 h
    have hend : endsBlank (blankAfter last?) (gapBefore last? e ++ e.written width) = blankAfter (some e) := by
      rw [endsBlank_append, Entry.written, blankAfter]
      cases hopened : e.opened? with
      | none => exact endsBlank_singleton (he hopened)
      | some opened =>
        have hlines : opened.around (e.inside width) =
            (opened.indent ++ opened.fence ++ opened.info) :: e.inside width ++
              [opened.indent ++ opened.fence] ++ [[]] := by
          simp [OpenBlock.around]
        show endsBlank _ (opened.around (e.inside width)) = true
        rw [hlines, endsBlank_append_blank]
    rw [writtenFrom, endsBlank_append, hend, endsBlank_writtenFrom hes, lastAfter_cons]

/-! ## The lines of nodes -/

/-- What decides about the empty line before a node is the same whether it is told from the node before
it or from the entry before it. -/
structure Led (n : Nat) (last : Option Node) (last? : Option Entry) (node : Node) : Prop where
  blank : last.bind Node.inlineText? = none → blankAfter last? = true
  tight : ∀ text, node = .paragraph text → isTight text.toList last = tightAfter n text last?

theorem isTight_eq_false {text : List Char} {last : Node} (h : ∀ before, last ≠ .paragraph before) :
    isTight text (some last) = false := by
  cases last with
  | paragraph before => exact absurd rfl (h before)
  | _ => simp [isTight, bothStartWith]

theorem tightAfter_eq_false {n : Nat} {text : String} {last? : Option Entry}
    (h : n ≠ 0 ∨ ∀ before, last? ≠ some (.block 0 (.paragraph before))) : tightAfter n text last? = false := by
  unfold tightAfter
  split
  · rename_i before
    rcases h with h | h
    · simp [h]
    · exact absurd rfl (h before)
  · rfl

/-- Under a list item every node is led by the item. -/
theorem led_under {n : Nat} (hn : n ≠ 0) {marker : Marker} {text : String} {children : List Node}
    (last? : Option Entry) (node : Node) : Led n (some (.item marker text children)) last? node :=
  ⟨nofun, fun text _ => by
    rw [isTight_eq_false (by simp), tightAfter_eq_false (.inl hn)]⟩

theorem led_heading {level : Nat} {text : String} {children : List Node} (node : Node) :
    Led 0 (some (.heading level text children)) (some (.heading level text)) node :=
  ⟨nofun, fun text' _ => by rw [isTight_eq_false (by simp), tightAfter_eq_false (.inr (by simp))]⟩

/-- The last entry of a node leads what follows the node. -/
theorem led_next {outer : Nat} {node next : Node} (last? : Option Entry) (hranked : node.Ranked outer)
    (horder : MayPrecede node next) : Led 0 (some node) (lastAfter last? (entriesOf 0 node)) next := by
  cases node with
  | heading level text children =>
    refine ⟨fun hnone => (by cases hnone), fun text' hnext => ?_⟩
    subst hnext
    exact horder.elim
  | item marker text children =>
    refine ⟨fun hnone => (by cases hnone), fun text' _ => ?_⟩
    rw [isTight_eq_false (by simp), tightAfter_eq_false (.inr fun before hlast => ?_)]
    -- what is under the item is indented
    rw [entriesOf, lastAfter_cons, lastAfter] at hlast
    cases hend : (entriesOfAll (0 + underItem marker) children).getLast? with
    | none =>
      rw [hend] at hlast
      cases hlast
    | some e =>
      rw [hend] at hlast
      cases hlast
      obtain ⟨indent, inner, heq, hle⟩ :=
        entriesOfAll_blocks _ children hranked.2 hranked.1 _ (List.mem_of_getLast? hend)
      cases heq
      exact absurd hle (by simp [underItem])
  | paragraph before =>
    refine ⟨fun hnone => (by cases hnone), fun text _ => ?_⟩
    simp [entriesOf, lastAfter, tightAfter]
  | _ =>
    refine ⟨fun _ => rfl, fun text' _ => ?_⟩
    rw [isTight_eq_false (by simp), tightAfter_eq_false (.inr fun before => by simp [entriesOf, lastAfter])]

mutual

/-- The lines of a node are those of its entries. -/
theorem renderNode_eq {width outer n : Nat} :
    ∀ (node : Node) {last : Option Node} {last? : Option Entry}, node.Ranked outer →
      (node.isHeading = true → n = 0) → Led n last last? node →
      (∀ e ∈ entriesOf n node, e.opened? = none → e.line width ≠ []) →
      renderNode width (spaces n) last (blankAfter last?) node = writtenFrom width last? (entriesOf n node)
  | .heading level text children, last, last?, hranked, _, hled, hlines => by
    obtain ⟨-, horder, hchildren⟩ := hranked
    rw [entriesOf, List.forall_mem_cons] at hlines
    have hends :
        endsBlank (blankAfter last?) (gap (blankAfter last?) ++ [List.replicate level '#' ++ ' ' :: text.toList]) =
        blankAfter (some (.heading level text)) := by
      rw [endsBlank_append]
      exact endsBlank_singleton (by simp)
    rw [renderNode, entriesOf, writtenFrom, hends,
      renderSiblings_eq children hchildren horder (fun node _ => led_heading node) hlines.2]
    rfl
  | .item marker text children, last, last?, hranked, _, hled, hlines => by
    obtain ⟨hplain, hchildren⟩ := hranked
    rw [entriesOf, List.forall_mem_cons] at hlines
    have hends :
        endsBlank (blankAfter last?) [wrapChars width (spaces n ++ marker.symbol.toList ++ [' ']) text.toList] =
        blankAfter (some (.block n (.item marker text []))) := endsBlank_singleton (hlines.1 rfl)
    rw [renderNode, entriesOf, writtenFrom, hends, spaces_append]
    exact congrArg (_ :: ·) (renderUnder_eq children hchildren hplain hlines.2)
  | .code info lines, last, last?, _, _, _, _ => by
    rw [renderNode.eq_3 _ _ _ _ _ (by simp) (by simp)]
    simp [renderLeaf, entriesOf, writtenFrom, gapBefore, Entry.written, Entry.opened?, Entry.inside,
      OpenBlock.around, OpenBlock.fence]
  | .note kind text, last, last?, _, _, _, _ => by
    rw [renderNode.eq_3 _ _ _ _ _ (by simp) (by simp)]
    simp [renderLeaf, entriesOf, writtenFrom, gapBefore, Entry.written, Entry.opened?, Entry.inside,
      OpenBlock.around, OpenBlock.fence]
  | .properties lines, last, last?, _, _, _, _ => by
    rw [renderNode.eq_3 _ _ _ _ _ (by simp) (by simp)]
    simp [renderLeaf, entriesOf, writtenFrom, gapBefore, Entry.written, Entry.opened?, Entry.inside,
      OpenBlock.around, OpenBlock.fence]
  | .paragraph text, last, last?, _, _, hled, _ => by
    rw [renderNode.eq_3 _ _ _ _ _ (by simp) (by simp), renderLeaf, renderParagraph, hled.tight text rfl]
    have hgap :
        (if !tightAfter n text last? && (last.bind Node.inlineText?).isSome then gap (blankAfter last?) else []) =
        gapBefore last? (.block n (.paragraph text)) := by
      -- without a running text before it, the paragraph comes after an empty line
      cases hlast : last.bind Node.inlineText? with
      | none => cases htight : tightAfter n text last? <;> simp [gapBefore, htight, hled.blank hlast, gap]
      | some before => cases htight : tightAfter n text last? <;> simp [gapBefore, htight]
    rw [hgap]
    simp [entriesOf, writtenFrom, Entry.written, Entry.opened?, Entry.line]

/-- The lines of nodes that follow one another are those of their entries. -/
theorem renderSiblings_eq {width outer : Nat} :
    ∀ (nodes : List Node) {last : Option Node} {last? : Option Entry}, RankedAll outer nodes →
      nodes.Pairwise MayPrecede → (∀ node ∈ nodes.head?, Led 0 last last? node) →
      (∀ e ∈ entriesOfAll 0 nodes, e.opened? = none → e.line width ≠ []) →
      renderSiblings width last (blankAfter last?) nodes = writtenFrom width last? (entriesOfAll 0 nodes)
  | [], _, _, _, _, _, _ => rfl
  | node :: nodes, last, last?, hranked, horder, hled, hlines => by
    obtain ⟨hfirst, horder⟩ := List.pairwise_cons.1 horder
    rw [entriesOfAll, List.forall_mem_append] at hlines
    have hnode := renderNode_eq (n := 0) node hranked.1 (fun _ => rfl) (hled node rfl) hlines.1
    have hnext : ∀ next ∈ nodes.head?, Led 0 (some node) (lastAfter last? (entriesOf 0 node)) next :=
      fun next hnext => led_next last? hranked.1 (hfirst next (List.mem_of_mem_head? hnext))
    rw [renderSiblings, entriesOfAll, writtenFrom_append, ← renderSiblings_eq nodes hranked.2 horder hnext hlines.2,
      ← endsBlank_writtenFrom hlines.1, ← hnode]
    rfl

/-- The lines of nodes under a list item are those of their entries. -/
theorem renderUnder_eq {width outer n : Nat} {marker : Marker} {text : String} {children : List Node} :
    ∀ (nodes : List Node) {last? : Option Entry}, RankedAll outer nodes →
      (∀ node ∈ nodes, node.isHeading = false) →
      (∀ e ∈ entriesOfAll (n + underItem marker) nodes, e.opened? = none → e.line width ≠ []) →
      renderUnder width (spaces (n + underItem marker)) (.item marker text children) (blankAfter last?) nodes =
        writtenFrom width last? (entriesOfAll (n + underItem marker) nodes)
  | [], _, _, _, _ => rfl
  | node :: nodes, last?, hranked, hplain, hlines => by
    obtain ⟨hheading, hplain⟩ := List.forall_mem_cons.1 hplain
    rw [entriesOfAll, List.forall_mem_append] at hlines
    have hled : Led (n + underItem marker) (some (.item marker text children)) last? node :=
      led_under (by simp [underItem]) last? node
    have hnode := renderNode_eq node hranked.1 (by simp [hheading]) hled hlines.1
    rw [renderUnder, entriesOfAll, writtenFrom_append, ← renderUnder_eq nodes hranked.2 hplain hlines.2,
      ← endsBlank_writtenFrom hlines.1, ← hnode]

end

/-! ## Rendered texts -/

/-- Written lines as they are read again: a wrapped text is several lines, and a carriage return at the
end of a line is taken for a part of the line end. -/
def asRead (lines : List (List Char)) : List (List Char) := (lines.flatMap (List.splitOn '\n')).map dropReturn

theorem asRead_append (lines lines' : List (List Char)) : asRead (lines ++ lines') = asRead lines ++ asRead lines' := by
  simp [asRead]

theorem asRead_gap (blank : Bool) : asRead (gap blank) = gap blank := by
  cases blank <;> rfl

theorem textLines_eq_asRead {lines : List (List Char)} (hne : lines ≠ []) :
    textLines (['\n'].intercalate lines ++ ['\n']) = asRead (lines ++ [[]]) := by
  -- written lines are cut where they hold line feeds
  have hcut : ['\n'].intercalate (lines.flatMap (List.splitOn '\n')) = ['\n'].intercalate lines := by
    rw [List.flatMap, ← intercalate_map_intercalate (by simp), List.map_map]
    simp [Function.comp_def, List.intercalate_splitOn]
  have hlines : ∀ line ∈ lines.flatMap (List.splitOn '\n'), '\n' ∉ line := fun line hline => by
    obtain ⟨whole, -, hmem⟩ := List.mem_flatMap.1 hline
    exact not_mem_splitOn whole line hmem
  obtain ⟨first, others, rfl⟩ := List.exists_cons_of_ne_nil hne
  rw [← hcut, textLines_intercalate (by simp [List.splitOn_ne_nil]) hlines, asRead_append]
  rfl

/-- The lines of the text that is rendered from some entries after the entry `last?`. -/
def linesFrom (width : Nat) : Option Entry → List Entry → List (List Char)
  | last?, [] => gap (blankAfter last?)
  | last?, e :: es => gapBefore last? e ++ asRead (e.written width) ++ linesFrom width (some e) es

theorem asRead_gapBefore (last? : Option Entry) (e : Entry) : asRead (gapBefore last? e) = gapBefore last? e := by
  unfold gapBefore
  split
  · split
    · rfl
    · exact asRead_gap _
  · rfl
  · rfl
  · exact asRead_gap _

theorem asRead_writtenFrom (width : Nat) : ∀ (last? : Option Entry) (es : List Entry),
    asRead (writtenFrom width last? es ++ gap (blankAfter (lastAfter last? es))) = linesFrom width last? es
  | last?, [] => asRead_gap _
  | last?, e :: es => by
    rw [writtenFrom, linesFrom, lastAfter_cons, List.append_assoc, asRead_append, asRead_append, asRead_gapBefore,
      asRead_writtenFrom width (some e) es]

theorem dropBlankEnd_concat {line : List Char} (h : line ≠ []) (lines : List (List Char)) :
    dropBlankEnd (lines ++ [line]) = lines ++ [line] := by
  simp [dropBlankEnd, h]

theorem dropBlankEnd_concat_nil (lines : List (List Char)) : dropBlankEnd (lines ++ [[]]) = dropBlankEnd lines := by
  simp [dropBlankEnd]

/-- Without the empty lines at its end, what is written ends with a line, and an empty one follows. -/
theorem dropBlankEnd_writtenFrom {width : Nat} {es : List Entry} (hne : es ≠ []) (last? : Option Entry)
    (h : ∀ e ∈ es, e.opened? = none → e.line width ≠ []) :
    dropBlankEnd (writtenFrom width last? es) ≠ [] ∧
      writtenFrom width last? es ++ gap (blankAfter (lastAfter last? es)) =
        dropBlankEnd (writtenFrom width last? es) ++ [[]] := by
  obtain ⟨before, e, rfl⟩ := (List.eq_nil_or_concat es).resolve_left hne
  rw [List.concat_eq_append] at h ⊢
  have hlast : lastAfter last? (before ++ [e]) = some e := by simp [lastAfter]
  rw [writtenFrom_append, writtenFrom, writtenFrom, hlast, Entry.written]
  cases hopened : e.opened? with
  | none =>
    have hline := dropBlankEnd_concat (h e (by simp) hopened) (writtenFrom width last? before ++ gapBefore
      (lastAfter last? before) e)
    simp only [List.append_nil, ← List.append_assoc]
    rw [hline, blankAfter, hopened]
    exact ⟨by simp, rfl⟩
  | some opened =>
    have hfence : opened.indent ++ opened.fence ≠ [] := by simp [opened.solid_fence.ne_nil]
    have hline := dropBlankEnd_concat hfence (writtenFrom width last? before ++ gapBefore
      (lastAfter last? before) e ++ (opened.indent ++ opened.fence ++ opened.info) :: e.inside width)
    have haround : opened.around (e.inside width) =
        (opened.indent ++ opened.fence ++ opened.info) :: e.inside width ++
          [opened.indent ++ opened.fence] ++ [[]] := by
      simp [OpenBlock.around]
    dsimp only
    simp only [haround, List.append_nil, ← List.append_assoc] at hline ⊢
    rw [dropBlankEnd_concat_nil, hline, blankAfter, hopened]
    exact ⟨by simp, by simp [gap]⟩

/-- The logical lines of a rendered forest are those of the lines written for its entries. -/
theorem logicalLines_render {width : Nat} {nodes : List Node} (hranked : RankedAll 0 nodes)
    (horder : nodes.Pairwise MayPrecede) (h : ∀ e ∈ entriesOfAll 0 nodes, e.opened? = none → e.line width ≠ []) :
    logicalLines (render width nodes).toList = logicalFrom false [] (linesFrom width none (entriesOfAll 0 nodes)) := by
  have hled : ∀ node ∈ nodes.head?, Led 0 none none node := fun node _ =>
    ⟨fun _ => rfl, fun text _ => by simp [isTight, bothStartWith, tightAfter]⟩
  have hwritten : renderSiblings width none true nodes = _ := renderSiblings_eq nodes hranked horder hled h
  rw [render, String.toList_ofList, logicalLines, ← textLines, hwritten]
  by_cases hnil : entriesOfAll 0 nodes = []
  · rw [hnil]
    rfl
  · obtain ⟨hne, hgap⟩ := dropBlankEnd_writtenFrom hnil none h
    rw [textLines_eq_asRead hne, ← hgap, asRead_writtenFrom]

end RefPages.Markup
