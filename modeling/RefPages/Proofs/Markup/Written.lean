/-
The logical lines of a legible forest, read again: each node is written as the lines of its own
item, so that reading finds the entries of the forest, but for paragraphs that begin with a sign
where they are written. Without those, nesting the entries gives the forest back.
-/
import RefPages.Proofs.Markup.Canonical

namespace RefPages.Markup

open RefPages.Text

/-! ## Entries read again -/

/-- The entry that is read where an entry was written: a paragraph is a heading when its line begins
with a sign. -/
def Entry.reread : Entry → Entry
  | .block indent (.paragraph text) =>
    if (spaces indent ++ text.toList).head? = some '#' then headingEntry (spaces indent ++ text.toList)
    else .block indent (.paragraph text)
  | e => e

/-! ## Items of single lines and of blocks -/

/-- A line that opens no block is one item. -/
theorem items_line {n : Nat} {content : List Char} (hspace : content.head? ≠ some ' ')
    (hsign : (spaces n ++ content).head? ≠ some '#') (hopener : opener? content = none) :
    Items [spaces n ++ content] [.block n (lineNode content)] := by
  obtain ⟨hindent, hcontent⟩ := indentOf_spaces (n := n) hspace
  have hopened : openedBy? (spaces n ++ content) = none := by
    rw [openedBy?, hcontent, hopener]
    rfl
  have := Items.line hsign hopened .nil
  rwa [hindent, hcontent, length_spaces] at this

namespace OpenBlock

theorem solid_fence (block : OpenBlock) : Solid block.fence := by
  unfold fence
  cases block.kind
  · exact ⟨⟨'\x60', _, rfl, by decide⟩, ⟨['\x60', '\x60'], '\x60', rfl, by decide⟩⟩
  · exact ⟨⟨':', _, rfl, by decide⟩, ⟨[':', ':'], ':', rfl, by decide⟩⟩
  · exact ⟨⟨'-', _, rfl, by decide⟩, ⟨['-', '-'], '-', rfl, by decide⟩⟩

theorem isBlockMarker_fence (block : OpenBlock) (n : Nat) (rest : List Char) :
    isBlockMarker (trim (spaces n ++ block.fence ++ rest)) = true := by
  have := startsWith_trim block.solid_fence (isBlank_of_mem_spaces (n := n)) rest
  unfold isBlockMarker
  unfold fence at this ⊢
  cases hkind : block.kind <;> simp [hkind] at this <;> simp [this]

/-- A line that opens a block begins with the marker that closes it. -/
theorem fence_of_opener? {content info : List Char} {kind : BlockKind}
    (h : opener? content = some (kind, info)) (block : OpenBlock) (hkind : block.kind = kind) :
    content = block.fence ++ info := by
  unfold fence
  rw [hkind]
  unfold opener? at h
  split at h
  · rename_i hcode
    cases h
    exact after?_eq_some_iff.1 hcode
  · split at h
    · rename_i hnote
      cases h
      exact after?_eq_some_iff.1 hnote
    · obtain ⟨_, hproperties, heq⟩ := Option.map_eq_some_iff.1 h
      cases heq
      exact after?_eq_some_iff.1 hproperties

theorem closes_of_not_marker {block : OpenBlock} {line : List Char}
    (h : isBlockMarker (trim line) = false) : block.closes line = false := by
  simp only [isBlockMarker, Bool.or_eq_false_iff] at h
  unfold closes fence
  cases block.kind
  · exact h.1.1
  · exact h.2
  · exact h.1.2

theorem strip?_indent (block : OpenBlock) (line : List Char) :
    block.strip? (block.indent ++ line) = some line := by
  unfold strip?
  split
  · rename_i h
    rw [(List.append_eq_nil_iff.1 h.1).2]
  · exact after?_append _ _

theorem strip?_codeLine (block : OpenBlock) (h : block.kind ≠ .properties) (line : List Char) :
    block.strip? (codeLine block.indent line) = some line := by
  unfold codeLine
  split
  · rename_i hline
    rw [hline, strip?, if_pos ⟨rfl, h⟩]
  · exact block.strip?_indent line

end OpenBlock

theorem mapM_map_eq_some {α β γ : Type} {f : β → Option γ} {g : α → β} {h : α → γ} {as : List α}
    (hf : ∀ a ∈ as, f (g a) = some (h a)) : (as.map g).mapM f = some (as.map h) := by
  induction as with
  | nil => rfl
  | cons a as ih =>
    rw [List.map_cons, List.mapM_cons, hf a List.mem_cons_self,
      ih fun b hb => hf b (List.mem_cons_of_mem _ hb)]
    rfl

/-- The first line of a block, with its indentation. -/
theorem openedBy?_fence (n : Nat) {kind : BlockKind} {info : List Char} {block : OpenBlock}
    (hblock : block = ⟨kind, spaces n, info, 0, []⟩) (hopener : opener? (block.fence ++ info) = some (kind, info)) :
    (spaces n ++ block.fence ++ info).head? ≠ some '#' ∧ openedBy? (spaces n ++ block.fence ++ info) = some block := by
  -- a fence is neither a blank of its indentation nor a heading
  have hfence : (block.fence ++ info).head? ≠ some ' ' ∧ (block.fence ++ info).head? ≠ some '#' := by
    subst hblock
    cases kind <;> exact ⟨by simp [OpenBlock.fence, codeFence, noteFence, propertiesFence],
      by simp [OpenBlock.fence, codeFence, noteFence, propertiesFence]⟩
  obtain ⟨hindent, hcontent⟩ := indentOf_spaces (n := n) hfence.1
  rw [List.append_assoc]
  refine ⟨head?_spaces_ne hfence.2, ?_⟩
  rw [openedBy?, hcontent, hopener, hindent, hblock]
  rfl

/-- The last line of a block, with its indentation. -/
theorem OpenBlock.closes_fence (block : OpenBlock) (n : Nat) : block.closes (spaces n ++ block.fence) = true := by
  have := startsWith_trim block.solid_fence (isBlank_of_mem_spaces (n := n)) []
  rwa [List.append_nil] at this

/-- A block that is written with its indentation is one item. -/
theorem items_block (n : Nat) (kind : BlockKind) (info : List Char) (body : List (List Char))
    {inner : List (List Char)} {block : OpenBlock} (hblock : block = ⟨kind, spaces n, info, 0, []⟩)
    (hopener : opener? (block.fence ++ info) = some (kind, info))
    (hbody : ∀ line ∈ body, isBlockMarker (trim line) = false)
    (hinner : body.mapM block.strip? = some inner) :
    Items ((spaces n ++ block.fence ++ info) :: body ++ [spaces n ++ block.fence])
      [(block.extend inner).entry] := by
  obtain ⟨hsign, hopened⟩ := openedBy?_fence n hblock hopener
  exact .block hsign hopened (fun line hline => OpenBlock.closes_of_not_marker (hbody line hline)) hinner
    (block.closes_fence n) .nil

/-! ## Items of legible nodes -/

theorem items_heading {level : Nat} (hlevel : 0 < level) (text : String) :
    Items [List.replicate level '#' ++ ' ' :: text.toList] [.heading level text] := by
  have hsigns : ∀ c ∈ List.replicate level '#', decide (c = '#') = true := fun c hc => by
    simpa using List.eq_of_mem_replicate hc
  have hhead : (List.replicate level '#' ++ ' ' :: text.toList).head? = some '#' := by
    obtain ⟨n, rfl⟩ : ∃ n, level = n + 1 := ⟨level - 1, by omega⟩
    rfl
  have := Items.heading hhead .nil
  rw [List.takeWhile_append_of_pos hsigns, List.dropWhile_append_of_pos hsigns] at this
  have hsize : (' ' : Char).utf8Size = 1 := by decide
  simpa [headingText, hsize] using this

theorem items_item {n : Nat} {marker : Marker} {text : String} :
    Items [spaces n ++ (marker.symbol.toList ++ ' ' :: text.toList)]
      [.block n (.item marker text [])] := by
  have hnode : lineNode (marker.symbol.toList ++ ' ' :: text.toList) = .item marker text [] := by
    cases marker <;> simp [lineNode, Marker.symbol, after?]
  rw [← hnode]
  refine items_line ?_ (head?_spaces_ne ?_) ?_
  · cases marker <;> simp [Marker.symbol]
  · cases marker <;> simp [Marker.symbol]
  · cases marker <;>
      simp [opener?, Marker.symbol, after?, codeFence, noteFence, propertiesFence]

/-- What begins no block when the white space around it is trimmed opens none. -/
theorem opener?_eq_none {content : List Char} (h : isBlockMarker (trim content) = false) :
    opener? content = none := by
  refine Option.eq_none_iff_forall_not_mem.2 fun ⟨kind, info⟩ hopener => ?_
  have hcontent := OpenBlock.fence_of_opener? hopener ⟨kind, [], [], 0, []⟩ rfl
  have := OpenBlock.isBlockMarker_fence ⟨kind, [], [], 0, []⟩ 0 info
  rw [spaces, List.replicate_zero, List.nil_append, ← hcontent, h] at this
  cases this

theorem items_paragraph {n : Nat} {text : String} (h : Plain text.toList) :
    Items [spaces n ++ text.toList] [(Entry.block n (.paragraph text)).reread] := by
  have hnone : ∀ marker ∈ itemMarkers, after? marker text.toList = none := fun marker hm =>
    after?_eq_none_iff.2 (h.item marker hm)
  have hnode : lineNode text.toList = .paragraph text := by
    rw [lineNode, hnone ['-', ' '] (by simp [itemMarkers]), hnone ['*', ' '] (by simp [itemMarkers]),
      hnone ['1', '.', ' '] (by simp [itemMarkers]), String.ofList_toList]
  rw [Entry.reread]
  split
  · rename_i hsign
    exact .heading hsign .nil
  · rename_i hsign
    rw [← hnode]
    exact items_line h.first hsign (opener?_eq_none h.marker)

theorem items_code {n : Nat} {info : String} {lines : List String} (h : ∀ line ∈ lines, Enclosed line.toList) :
    Items (linesOf (spaces n) (.code info lines)) [.block n (.code info lines)] := by
  have hopener : opener? (codeFence ++ info.toList) = some (.code, info.toList) := by
    rw [opener?, after?_append]
  have := items_block n .code info.toList (lines.map fun line => codeLine (spaces n) line.toList) rfl
    hopener
    (by
      intro line hline
      obtain ⟨inner, hinner, rfl⟩ := List.mem_map.1 hline
      exact (h inner hinner).isBlockMarker_codeLine)
    (mapM_map_eq_some (h := String.toList) fun line _ =>
      OpenBlock.strip?_codeLine ⟨.code, spaces n, info.toList, 0, []⟩ (by simp) line.toList)
  simpa [linesOf, OpenBlock.entry, OpenBlock.extend, OpenBlock.node, OpenBlock.fence,
    Function.comp_def] using this

theorem items_note {n : Nat} {kind text : String} (hkind : trim kind.toList = kind.toList)
    (htext : Enclosed text.toList) :
    Items (linesOf (spaces n) (.note kind text)) [.block n (.note kind text)] := by
  have hopener : opener? (noteFence ++ kind.toList) = some (.note, kind.toList) := by
    rw [opener?, after?_append]
    rfl
  have := items_block n .note kind.toList ([text].map fun line => spaces n ++ line.toList) rfl hopener
    (by
      intro line hline
      obtain ⟨inner, hinner, rfl⟩ := List.mem_map.1 hline
      rw [List.mem_singleton.1 hinner]
      exact htext.isBlockMarker_indented)
    (mapM_map_eq_some (h := String.toList) fun line _ =>
      OpenBlock.strip?_indent ⟨.note, spaces n, kind.toList, 0, []⟩ line.toList)
  have hjoin : [' '].intercalate ([text.toList].filter fun line => !decide (line = [])) = text.toList := by
    by_cases hempty : text.toList = []
    · simp [hempty]
    · simp [hempty]
  simpa [linesOf, OpenBlock.entry, OpenBlock.extend, OpenBlock.node, OpenBlock.fence, hkind, hjoin]
    using this

theorem items_properties {n : Nat} {lines : List String} (h : ∀ line ∈ lines, Enclosed line.toList) :
    Items (linesOf (spaces n) (.properties lines)) [.block n (.properties lines)] := by
  have hopener : opener? (propertiesFence ++ []) = some (.properties, []) := by
    simp [opener?, after?, propertiesFence, codeFence, noteFence]
  have := items_block n .properties [] (lines.map fun line => spaces n ++ line.toList) rfl hopener
    (by
      intro line hline
      obtain ⟨inner, hinner, rfl⟩ := List.mem_map.1 hline
      exact (h inner hinner).isBlockMarker_indented)
    (mapM_map_eq_some (h := String.toList) fun line _ =>
      OpenBlock.strip?_indent ⟨.properties, spaces n, [], 0, []⟩ line.toList)
  simpa [linesOf, OpenBlock.entry, OpenBlock.extend, OpenBlock.node, OpenBlock.fence,
    Function.comp_def] using this

mutual

/-- The items of the logical lines of a legible node are its entries, reread. -/
theorem items_linesOf {outer n : Nat} :
    ∀ node : Node, node.Legible outer → (node.isHeading = true → n = 0) →
      Items (linesOf (spaces n) node) ((entriesOf n node).map Entry.reread)
  | .heading level text children, h, _ => by
    obtain ⟨hlt, -, -, hchildren⟩ := h
    exact (items_heading (by omega) text).append (items_linesOfAll (n := 0) children hchildren fun _ _ _ => rfl)
  | .item marker text children, h, _ => by
    obtain ⟨-, hplain, hchildren⟩ := h
    rw [linesOf, spaces_append]
    exact items_item.append (items_linesOfAll children hchildren fun child hchild hheading => by
      rw [hplain child hchild] at hheading
      cases hheading)
  | .code info lines, h, _ => items_code h.2
  | .note kind text, h, _ => items_note h.2.1 h.2.2
  | .properties lines, h, _ => items_properties h
  | .paragraph text, h, _ => items_paragraph h

theorem items_linesOfAll {outer n : Nat} :
    ∀ nodes : List Node, LegibleAll outer nodes →
      (∀ node ∈ nodes, node.isHeading = true → n = 0) →
      Items (linesOfAll (spaces n) nodes) ((entriesOfAll n nodes).map Entry.reread)
  | [], _, _ => .nil
  | node :: nodes, h, hheading => by
    rw [entriesOfAll, List.map_append]
    exact (items_linesOf node h.1 (hheading node List.mem_cons_self)).append
      (items_linesOfAll nodes h.2 fun other ho => hheading other (List.mem_cons_of_mem _ ho))

end

/-- The forest of the logical lines of a legible forest has its entries, reread. -/
theorem forest_linesOfAll_eq {nodes : List Node} (h : Legible nodes) :
    forest (linesOfAll [] nodes) = .ok (nest ((entriesOfAll 0 nodes).map Entry.reread)) := by
  have hitems := items_linesOfAll (n := 0) nodes h.nodes fun _ _ _ => rfl
  rw [forest, show linesOfAll [] nodes = linesOfAll (spaces 0) nodes from rfl,
    entries_eq_ok_iff.2 hitems]
  rfl

mutual

/-- Paragraphs of canonical nodes never begin with a sign. -/
theorem reread_entriesOf {outer n : Nat} : ∀ node : Node, node.Canonical outer →
    (entriesOf n node).map Entry.reread = entriesOf n node
  | .heading level text children, h => congrArg (_ :: ·) (reread_entriesOfAll children h.2.2.2)
  | .item marker text children, h => congrArg (_ :: ·) (reread_entriesOfAll children h.2.2)
  | .code .., _ => rfl
  | .note .., _ => rfl
  | .properties _, _ => rfl
  | .paragraph text, h => by
    have hsign : (spaces n ++ text.toList).head? ≠ some '#' := head?_spaces_ne fun hhead => by
      obtain ⟨rest, hrest⟩ := List.head?_eq_some_iff.1 hhead
      simpa [hrest] using h.2 ['#'] (by simp [markers])
    rw [entriesOf, List.map_singleton, Entry.reread, if_neg hsign]

theorem reread_entriesOfAll {outer n : Nat} : ∀ nodes : List Node, CanonicalAll outer nodes →
    (entriesOfAll n nodes).map Entry.reread = entriesOfAll n nodes
  | [], _ => rfl
  | node :: nodes, h => by
    rw [entriesOfAll, List.map_append, reread_entriesOf node h.1, reread_entriesOfAll nodes h.2]

end

/-- The forest of the logical lines of a canonical forest is that forest. -/
theorem forest_linesOfAll {nodes : List Node} (h : Canonical nodes) :
    forest (linesOfAll [] nodes) = .ok nodes := by
  rw [forest_linesOfAll_eq h.legible, reread_entriesOfAll nodes h.nodes,
    nest_entriesOfAll 0 nodes h.order h.legible.nodes.ranked]

end RefPages.Markup
