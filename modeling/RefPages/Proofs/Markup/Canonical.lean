/-
Canonical forests: those that can be told from how they are written, and the legible ones, all that
a text is read as. Their logical lines and the entries of those lines are given here by recursion on
the forest, and nesting the entries gives the forest back.
-/
import RefPages.Proofs.Markup.Items
import RefPages.Proofs.Markup.Nesting
import RefPages.Proofs.Text.Trim
import RefPages.Markup.Render

namespace RefPages.Markup

open RefPages.Text

/-! ## Canonical forests -/

/-- A line has no line end in it. -/
def Unbroken (line : List Char) : Prop := '\n' ∉ line ∧ '\r' ∉ line

/-- A text without line ends. -/
def OneLine (text : String) : Prop := Unbroken text.toList

/-- A text of words with one blank between neighbours and no other white space. -/
def IsWords (text : String) : Prop :=
  ∃ words : List (List Char), words ≠ [] ∧ (∀ word ∈ words, word ≠ [] ∧ ∀ c ∈ word, isBlank c = false) ∧
    text.toList = [' '].intercalate words

/-- What a paragraph may not begin with, as it would be something else. -/
def markers : List (List Char) :=
  [['#'], ['-', ' '], ['*', ' '], ['1', '.', ' '], codeFence, noteFence, propertiesFence]

/-- A line that may stand in a block: it does not begin with a block marker. -/
def IsInner (line : String) : Prop := OneLine line ∧ isBlockMarker (trim line.toList) = false

/-- Whether a node may come before another one under the same node: headings come last, and none
has more signs than the one before it. -/
def MayPrecede : Node → Node → Prop
  | .heading level _ _, .heading other _ _ => other ≤ level
  | .heading .., _ => False
  | _, _ => True

theorem mayPrecede_of_not_heading {node : Node} (h : node.isHeading = false) (next : Node) :
    MayPrecede node next := by
  cases node with
  | heading => cases h
  | _ => trivial

mutual

/-- A node that can be told from how it is written, under a heading of level `outer`. -/
def Node.Canonical (outer : Nat) : Node → Prop
  | .heading level text children =>
    outer < level ∧ OneLine text ∧ children.Pairwise MayPrecede ∧ CanonicalAll level children
  | .item _ text children =>
    IsWords text ∧ (∀ child ∈ children, child.isHeading = false) ∧ CanonicalAll 0 children
  | .code info lines => OneLine info ∧ ∀ line ∈ lines, IsInner line
  | .note kind text => OneLine kind ∧ trim kind.toList = kind.toList ∧ IsInner text
  | .properties lines => ∀ line ∈ lines, IsInner line
  | .paragraph text => IsWords text ∧ ∀ marker ∈ markers, startsWith marker text.toList = false

/-- Nodes that can be told from how they are written. -/
def CanonicalAll (outer : Nat) : List Node → Prop
  | [] => True
  | node :: nodes => node.Canonical outer ∧ CanonicalAll outer nodes

end

/-- A forest that can be told from how it is written. -/
structure Canonical (nodes : List Node) : Prop where
  order : nodes.Pairwise MayPrecede
  nodes : CanonicalAll 0 nodes

/-! ## Legible forests -/

/-- A line that is read as it is written: no line feed is in it, and its last character is not
taken for a part of the line end. -/
structure Lasting (line : List Char) : Prop where
  unbroken : '\n' ∉ line
  last : line.getLast? ≠ some '\r'

instance (line : List Char) : Decidable (Lasting line) :=
  decidable_of_iff ('\n' ∉ line ∧ line.getLast? ≠ some '\r') ⟨fun h => ⟨h.1, h.2⟩, fun h => ⟨h.unbroken, h.last⟩⟩

/-- A running text on one line that does not end with white space. -/
structure Running (text : List Char) : Prop where
  unbroken : '\n' ∉ text
  last : ∃ rest c, text = rest ++ [c] ∧ isBlank c = false

/-- A line that may stand in a block and is read as it is written. -/
structure Enclosed (line : List Char) : Prop where
  lasting : Lasting line
  inner : isBlockMarker (trim line) = false

/-- What a list item begins with. -/
def itemMarkers : List (List Char) := [['-', ' '], ['*', ' '], ['1', '.', ' ']]

/-- The text of a paragraph: it has no indentation and begins neither a block nor a list item. That
it is no heading shows only in where it is written. -/
structure Plain (text : List Char) : Prop extends Running text where
  first : text.head? ≠ some ' '
  marker : isBlockMarker (trim text) = false
  item : ∀ marker ∈ itemMarkers, startsWith marker text = false

mutual

/-- A node under a heading of level `outer` as it comes from a text: unlike a canonical one it may
hold any white space, and a paragraph may begin with a sign. -/
def Node.Legible (outer : Nat) : Node → Prop
  | .heading level text children =>
    outer < level ∧ Lasting text.toList ∧ children.Pairwise MayPrecede ∧ LegibleAll level children
  | .item _ text children =>
    Running text.toList ∧ (∀ child ∈ children, child.isHeading = false) ∧ LegibleAll 0 children
  | .code info lines => Lasting info.toList ∧ ∀ line ∈ lines, Enclosed line.toList
  | .note kind text => Lasting kind.toList ∧ trim kind.toList = kind.toList ∧ Enclosed text.toList
  | .properties lines => ∀ line ∈ lines, Enclosed line.toList
  | .paragraph text => Plain text.toList

/-- Nodes as they come from a text. -/
def LegibleAll (outer : Nat) : List Node → Prop
  | [] => True
  | node :: nodes => node.Legible outer ∧ LegibleAll outer nodes

end

/-- A forest as it comes from a text. -/
structure Legible (nodes : List Node) : Prop where
  order : nodes.Pairwise MayPrecede
  nodes : LegibleAll 0 nodes

/-! ## Ranks -/

mutual

/-- A node whose headings have more signs than the one they are under, `outer` at the top, and come
after all else; under list items there are none. -/
def Node.Ranked (outer : Nat) : Node → Prop
  | .heading level _ children => outer < level ∧ children.Pairwise MayPrecede ∧ RankedAll level children
  | .item _ _ children => (∀ child ∈ children, child.isHeading = false) ∧ RankedAll 0 children
  | .code .. | .note .. | .properties _ | .paragraph _ => True

/-- Nodes with such headings. -/
def RankedAll (outer : Nat) : List Node → Prop
  | [] => True
  | node :: nodes => node.Ranked outer ∧ RankedAll outer nodes

end

mutual

theorem Node.Legible.ranked {outer : Nat} : ∀ {node : Node}, node.Legible outer → node.Ranked outer
  | .heading .., h => ⟨h.1, h.2.2.1, LegibleAll.ranked h.2.2.2⟩
  | .item .., h => ⟨h.2.1, LegibleAll.ranked h.2.2⟩
  | .code .., _ | .note .., _ | .properties _, _ | .paragraph _, _ => trivial

theorem LegibleAll.ranked {outer : Nat} : ∀ {nodes : List Node}, LegibleAll outer nodes → RankedAll outer nodes
  | [], _ => trivial
  | _ :: _, h => ⟨Node.Legible.ranked h.1, LegibleAll.ranked h.2⟩

end

/-! ## Words and indentation -/

theorem isBlank_space : isBlank ' ' = true := by decide

theorem isBlank_of_mem_spaces {n : Nat} : ∀ c ∈ spaces n, isBlank c = true := by
  intro c hc
  rw [List.eq_of_mem_replicate hc]
  exact isBlank_space

theorem solid_intercalate {words : List (List Char)} (hne : words ≠ [])
    (h : ∀ word ∈ words, word ≠ [] ∧ ∀ c ∈ word, isBlank c = false) : Solid ([' '].intercalate words) := by
  have hsolid : ∀ word ∈ words, Solid word := fun word hw => by
    obtain ⟨hword, hblank⟩ := h word hw
    refine ⟨?_, ?_⟩
    · obtain ⟨c, rest, rfl⟩ := List.exists_cons_of_ne_nil hword
      exact ⟨c, rest, rfl, hblank c List.mem_cons_self⟩
    · obtain ⟨rest, c, rfl⟩ := List.eq_nil_or_concat word |>.resolve_left hword
      exact ⟨rest, c, by simp, hblank c (by simp)⟩
  induction words with
  | nil => exact absurd rfl hne
  | cons word words ih =>
    cases words with
    | nil =>
      rw [List.intercalate_singleton]
      exact hsolid word List.mem_cons_self
    | cons next words =>
      rw [List.intercalate_cons_of_ne_nil (List.cons_ne_nil _ _)]
      exact (hsolid word List.mem_cons_self).append
        (ih (List.cons_ne_nil _ _) (fun w hw => h w (List.mem_cons_of_mem _ hw))
          fun w hw => hsolid w (List.mem_cons_of_mem _ hw)) [' ']

theorem IsWords.solid {text : String} (h : IsWords text) : Solid text.toList := by
  obtain ⟨words, hne, hwords, htext⟩ := h
  rw [htext]
  exact solid_intercalate hne hwords

/-- A text that does not begin with a blank is the content of a line after its indentation. -/
theorem indentOf_spaces {n : Nat} {content : List Char} (h : content.head? ≠ some ' ') :
    indentOf (spaces n ++ content) = spaces n ∧ contentOf (spaces n ++ content) = content := by
  have hspaces : ∀ c ∈ spaces n, decide (c = ' ') = true := fun c hc => by
    simpa using List.eq_of_mem_replicate hc
  rw [indentOf, contentOf, List.takeWhile_append_of_pos hspaces, List.dropWhile_append_of_pos hspaces]
  cases content with
  | nil => simp
  | cons c cs =>
    have hc : c ≠ ' ' := fun hc => h (by rw [hc]; rfl)
    simp [hc]

theorem head?_spaces_ne {n : Nat} {content : List Char} (h : content.head? ≠ some '#') :
    (spaces n ++ content).head? ≠ some '#' := by
  cases n with
  | zero => exact h
  | succ n => simp [spaces, List.replicate_succ]

theorem spaces_append (m n : Nat) : spaces m ++ spaces n = spaces (m + n) :=
  List.replicate_append_replicate

@[simp] theorem length_spaces (n : Nat) : (spaces n).length = n := List.length_replicate

theorem Enclosed.isBlockMarker_codeLine {n : Nat} {line : List Char} (h : Enclosed line) :
    isBlockMarker (trim (codeLine (spaces n) line)) = false := by
  unfold codeLine
  split
  · rfl
  · rw [trim_append isBlank_of_mem_spaces]
    exact h.inner

theorem Enclosed.isBlockMarker_indented {n : Nat} {line : List Char} (h : Enclosed line) :
    isBlockMarker (trim (spaces n ++ line)) = false := by
  rw [trim_append isBlank_of_mem_spaces]
  exact h.inner

/-! ## Canonical forests are legible -/

/-- Words hold no line end, as line ends are white space. -/
theorem IsWords.oneLine {text : String} (h : IsWords text) : OneLine text := by
  obtain ⟨words, -, hwords, htext⟩ := h
  have hnone : ∀ c, isBlank c = true → ∀ word ∈ words, c ∉ word := fun c hc word hword hmem => by
    rw [(hwords word hword).2 c hmem] at hc
    cases hc
  rw [OneLine, htext]
  exact ⟨not_mem_intercalate (by decide) (hnone '\n' (by decide)),
    not_mem_intercalate (by decide) (hnone '\r' (by decide))⟩

theorem Unbroken.lasting {line : List Char} (h : Unbroken line) : Lasting line :=
  ⟨h.1, fun hlast => h.2 (List.mem_of_getLast? hlast)⟩

theorem IsWords.running {text : String} (h : IsWords text) : Running text.toList :=
  ⟨h.oneLine.1, h.solid.last⟩

theorem IsInner.enclosed {line : String} (h : IsInner line) : Enclosed line.toList :=
  ⟨Unbroken.lasting h.1, h.2⟩

theorem IsWords.plain {text : String} (hwords : IsWords text)
    (hmarkers : ∀ marker ∈ markers, startsWith marker text.toList = false) : Plain text.toList := by
  have htrim : trim ([] ++ text.toList) = text.toList := hwords.solid.trim_eq (by simp)
  rw [List.nil_append] at htrim
  refine ⟨hwords.running, ?_, ?_, fun marker hm => hmarkers marker ?_⟩
  · obtain ⟨c, rest, htext, hc⟩ := hwords.solid.first
    rw [htext]
    rintro ⟨⟩
    exact absurd hc (by decide)
  · rw [htrim, isBlockMarker, hmarkers codeFence (by simp [markers]),
      hmarkers noteFence (by simp [markers]), hmarkers propertiesFence (by simp [markers])]
    rfl
  · simp only [itemMarkers, markers, List.mem_cons] at hm ⊢
    tauto

mutual

theorem Node.Canonical.legible {outer : Nat} : ∀ {node : Node}, node.Canonical outer → node.Legible outer
  | .heading .., h => ⟨h.1, Unbroken.lasting h.2.1, h.2.2.1, CanonicalAll.legible h.2.2.2⟩
  | .item .., h => ⟨h.1.running, h.2.1, CanonicalAll.legible h.2.2⟩
  | .code .., h => ⟨Unbroken.lasting h.1, fun line hline => (h.2 line hline).enclosed⟩
  | .note .., h => ⟨Unbroken.lasting h.1, h.2.1, h.2.2.enclosed⟩
  | .properties _, h => fun line hline => (h line hline).enclosed
  | .paragraph _, h => h.1.plain h.2

theorem CanonicalAll.legible {outer : Nat} : ∀ {nodes : List Node}, CanonicalAll outer nodes → LegibleAll outer nodes
  | [], _ => trivial
  | _ :: _, h => ⟨Node.Canonical.legible h.1, CanonicalAll.legible h.2⟩

end

theorem Canonical.legible {nodes : List Node} (h : Canonical nodes) : Legible nodes :=
  ⟨h.order, CanonicalAll.legible h.nodes⟩

/-! ## Lines that last -/

theorem lasting_nil : Lasting [] := ⟨by simp, by simp⟩

theorem Lasting.append {as bs : List Char} (ha : Lasting as) (hb : Lasting bs) : Lasting (as ++ bs) := by
  refine ⟨by simp [ha.unbroken, hb.unbroken], ?_⟩
  rw [List.getLast?_append]
  cases hlast : bs.getLast? with
  | none => simpa using ha.last
  | some c => simpa [hlast] using hb.last

theorem lasting_replicate {c : Char} (hfeed : c ≠ '\n') (hreturn : c ≠ '\r') (n : Nat) :
    Lasting (List.replicate n c) :=
  ⟨fun h => hfeed (List.eq_of_mem_replicate h).symm,
    fun h => hreturn (List.eq_of_mem_replicate (List.mem_of_getLast? h)).symm⟩

theorem lasting_spaces (n : Nat) : Lasting (spaces n) := lasting_replicate (by decide) (by decide) n

theorem lasting_fence (block : OpenBlock) : Lasting block.fence := by
  unfold OpenBlock.fence
  cases block.kind <;> exact ⟨by decide, by decide⟩

theorem Enclosed.lasting_codeLine {line : List Char} (h : Enclosed line) (n : Nat) :
    Lasting (codeLine (spaces n) line) := by
  unfold codeLine
  split
  · exact lasting_nil
  · exact (lasting_spaces n).append h.lasting

/-- A running text lasts, as a carriage return is white space. -/
theorem Running.lasting {text : List Char} (h : Running text) : Lasting text := by
  refine ⟨h.unbroken, ?_⟩
  obtain ⟨rest, c, rfl, hc⟩ := h.last
  rw [List.getLast?_concat]
  rintro ⟨⟩
  exact absurd hc (by decide)

theorem Running.ne_nil {text : List Char} (h : Running text) : text ≠ [] := by
  obtain ⟨rest, c, rfl, -⟩ := h.last
  simp

theorem Running.trimEnd_eq {text : List Char} (h : Running text) (before : List Char) :
    trimEnd (before ++ text) = before ++ text := by
  obtain ⟨rest, c, rfl, hc⟩ := h.last
  rw [← List.append_assoc, trimEnd_concat hc]

/-- Something is left when a running text is trimmed. -/
theorem Running.trim_ne_nil {text : List Char} (h : Running text) : trim text ≠ [] := by
  obtain ⟨rest, c, rfl, hc⟩ := h.last
  rw [trim, trimStart_append_cons hc, trimEnd_concat hc]
  simp

/-! ## Logical lines and entries -/

/-- The indentation under a list item. -/
def underItem (marker : Marker) : Nat := byteCount marker.symbol.toList + 1

mutual

/-- The logical lines of a node with some indentation. -/
def linesOf (indent : List Char) : Node → List (List Char)
  | .heading level text children =>
    (List.replicate level '#' ++ ' ' :: text.toList) :: linesOfAll [] children
  | .item marker text children =>
    (indent ++ (marker.symbol.toList ++ ' ' :: text.toList)) ::
      linesOfAll (indent ++ spaces (underItem marker)) children
  | .code info lines =>
    (indent ++ codeFence ++ info.toList) :: (lines.map fun line => codeLine indent line.toList) ++
      [indent ++ codeFence]
  | .note kind text =>
    [indent ++ noteFence ++ kind.toList, indent ++ text.toList, indent ++ noteFence]
  | .properties lines =>
    (indent ++ propertiesFence) :: (lines.map fun line => indent ++ line.toList) ++
      [indent ++ propertiesFence]
  | .paragraph text => [indent ++ text.toList]

/-- The logical lines of a forest with some indentation. -/
def linesOfAll (indent : List Char) : List Node → List (List Char)
  | [] => []
  | node :: nodes => linesOf indent node ++ linesOfAll indent nodes

end

mutual

/-- The entries of a node with some indentation. -/
def entriesOf (indent : Nat) : Node → List Entry
  | .heading level text children => .heading level text :: entriesOfAll 0 children
  | .item marker text children =>
    .block indent (.item marker text []) :: entriesOfAll (indent + underItem marker) children
  | .code info lines => [.block indent (.code info lines)]
  | .note kind text => [.block indent (.note kind text)]
  | .properties lines => [.block indent (.properties lines)]
  | .paragraph text => [.block indent (.paragraph text)]

/-- The entries of a forest with some indentation. -/
def entriesOfAll (indent : Nat) : List Node → List Entry
  | [] => []
  | node :: nodes => entriesOf indent node ++ entriesOfAll indent nodes

end

/-! ## Nesting the entries -/

theorem entriesOf_ne_nil (indent : Nat) (node : Node) : entriesOf indent node ≠ [] := by
  cases node <;> exact List.cons_ne_nil _ _

/-- What is no heading begins with a block of its own indentation. -/
theorem entriesOf_block {indent : Nat} {node : Node} {e : Entry} {es : List Entry}
    (he : entriesOf indent node = e :: es) (hheading : node.isHeading = false) :
    ∃ inner, e = .block indent inner := by
  cases node with
  | heading => cases hheading
  | _ =>
    cases he
    exact ⟨_, rfl⟩

mutual

/-- Without headings there are only blocks, none with less indentation. -/
theorem entriesOf_blocks {outer : Nat} (indent : Nat) :
    ∀ node : Node, node.Ranked outer → node.isHeading = false →
      ∀ e ∈ entriesOf indent node, ∃ other inner, e = .block other inner ∧ indent ≤ other
  | .heading .., _, hheading => by simp [Node.isHeading] at hheading
  | .item marker text children, hc, _ => by
    obtain ⟨hplain, hchildren⟩ := hc
    intro e he
    rcases List.mem_cons.1 he with rfl | he
    · exact ⟨_, _, rfl, le_rfl⟩
    · obtain ⟨other, inner, rfl, hle⟩ :=
        entriesOfAll_blocks (indent + underItem marker) children hchildren hplain e he
      exact ⟨other, inner, rfl, by omega⟩
  | .code .., _, _ => by simp [entriesOf]
  | .note .., _, _ => by simp [entriesOf]
  | .properties _, _, _ => by simp [entriesOf]
  | .paragraph _, _, _ => by simp [entriesOf]

theorem entriesOfAll_blocks {outer : Nat} (indent : Nat) :
    ∀ nodes : List Node, RankedAll outer nodes → (∀ node ∈ nodes, node.isHeading = false) →
      ∀ e ∈ entriesOfAll indent nodes, ∃ other inner, e = .block other inner ∧ indent ≤ other
  | [], _, _ => by simp [entriesOfAll]
  | node :: nodes, hc, hplain => by
    intro e he
    rcases List.mem_append.1 he with he | he
    · exact entriesOf_blocks indent node hc.1 (hplain node List.mem_cons_self) e he
    · exact entriesOfAll_blocks indent nodes hc.2
        (fun n hn => hplain n (List.mem_cons_of_mem _ hn)) e he

end

mutual

/-- Headings have more signs than the heading they are under. -/
theorem entriesOf_headings {outer : Nat} (indent : Nat) :
    ∀ node : Node, node.Ranked outer →
      ∀ level text, .heading level text ∈ entriesOf indent node → outer < level
  | .heading own text children, hc => by
    obtain ⟨hlt, -, hchildren⟩ := hc
    intro level text' he
    rcases List.mem_cons.1 he with he | he
    · cases he
      exact hlt
    · exact hlt.trans (entriesOfAll_headings 0 children hchildren level text' he)
  | .item marker text children, hc => by
    obtain ⟨hplain, hchildren⟩ := hc
    intro level text' he
    rcases List.mem_cons.1 he with he | he
    · cases he
    · obtain ⟨_, _, heq, -⟩ := entriesOfAll_blocks _ children hchildren hplain _ he
      cases heq
  | .code .., _ => by simp [entriesOf]
  | .note .., _ => by simp [entriesOf]
  | .properties _, _ => by simp [entriesOf]
  | .paragraph _, _ => by simp [entriesOf]

theorem entriesOfAll_headings {outer : Nat} (indent : Nat) :
    ∀ nodes : List Node, RankedAll outer nodes →
      ∀ level text, .heading level text ∈ entriesOfAll indent nodes → outer < level
  | [], _ => by simp [entriesOfAll]
  | node :: nodes, hc => by
    intro level text he
    rcases List.mem_append.1 he with he | he
    · exact entriesOf_headings indent node hc.1 level text he
    · exact entriesOfAll_headings indent nodes hc.2 level text he

end

/-- An entry that holds all of some entries but not the next holds just these. -/
theorem nest_cons_append {e : Entry} (held : List Entry) {rest : List Entry}
    (hheld : ∀ a ∈ held, e.holds a = true)
    (hrest : ∀ a ∈ rest.head?, e.holds a = false) :
    nest (e :: (held ++ rest)) = e.over (nest held) :: nest rest := by
  rw [nest_cons, List.takeWhile_append_of_pos hheld, List.dropWhile_append_of_pos hheld]
  cases rest with
  | nil => simp
  | cons a rest => simp [hrest a rfl]

theorem holds_block_same (indent : Nat) (inner inner' : Node) :
    (Entry.block indent inner).holds (.block indent inner') = false := by
  cases inner <;> simp [Entry.holds]

theorem holds_block_heading (indent level : Nat) (inner : Node) (text : String) :
    (Entry.block indent inner).holds (.heading level text) = false := by
  cases inner <;> rfl

/-- The first entry of a node does not hold that of a node that may follow it. -/
theorem holds_eq_false {node next : Node} {e a : Entry} {es as : List Entry} {indent : Nat}
    (he : entriesOf indent node = e :: es) (ha : entriesOf indent next = a :: as)
    (horder : MayPrecede node next) : e.holds a = false := by
  by_cases hnode : node.isHeading = true
  · cases node with
    | heading level text children =>
      cases next with
      | heading other text' children' =>
        cases he
        cases ha
        have hle : other ≤ level := horder
        simpa [Entry.holds] using hle
      | _ => exact horder.elim
    | _ => cases hnode
  · obtain ⟨inner, rfl⟩ := entriesOf_block he (by simpa using hnode)
    by_cases hnext : next.isHeading = true
    · cases next with
      | heading other text children =>
        cases ha
        exact holds_block_heading indent other inner text
      | _ => cases hnext
    · obtain ⟨inner', rfl⟩ := entriesOf_block ha (by simpa using hnext)
      exact holds_block_same indent inner inner'

/-- What comes after a node goes not under it. -/
theorem not_holds_head {node : Node} {nodes : List Node} {e : Entry} {es : List Entry} {indent : Nat}
    (he : entriesOf indent node = e :: es) (horder : ∀ next ∈ nodes, MayPrecede node next) :
    ∀ a ∈ (entriesOfAll indent nodes).head?, e.holds a = false := by
  cases nodes with
  | nil => simp [entriesOfAll]
  | cons next nodes =>
    obtain ⟨a, as, ha⟩ := List.exists_cons_of_ne_nil (entriesOf_ne_nil indent next)
    rw [entriesOfAll, ha]
    rintro _ ⟨⟩
    exact holds_eq_false he ha (horder next List.mem_cons_self)

/-- Nesting the entries of nodes with such headings gives the nodes. -/
theorem nest_entriesOfAll {outer : Nat} (indent : Nat) :
    ∀ nodes : List Node, nodes.Pairwise MayPrecede → RankedAll outer nodes →
      nest (entriesOfAll indent nodes) = nodes
  | [], _, _ => rfl
  | node :: nodes, horder, hc => by
    obtain ⟨hfirst, horder⟩ := List.pairwise_cons.1 horder
    have hrest := nest_entriesOfAll indent nodes horder hc.2
    have hhead : ∀ e es, entriesOf indent node = e :: es →
        ∀ a ∈ (entriesOfAll indent nodes).head?, e.holds a = false :=
      fun e es h => not_holds_head h hfirst
    cases node with
    | heading level text children =>
      -- the headings below have more signs, so all that the children give is held
      obtain ⟨-, hchildren, hranked⟩ := hc.1
      have hheld : ∀ a ∈ entriesOfAll 0 children, (Entry.heading level text).holds a = true := by
        intro a ha
        cases a with
        | heading other text' =>
          simpa [Entry.holds] using entriesOfAll_headings 0 children hranked other text' ha
        | block => rfl
      rw [entriesOfAll, entriesOf, List.cons_append, nest_cons_append _ hheld (hhead _ _ rfl),
        nest_entriesOfAll 0 children hchildren hranked, hrest]
      rfl
    | item marker text children =>
      -- the children are indented further than the item, which its marker takes up
      obtain ⟨hplain, hranked⟩ := hc.1
      have hchildren : children.Pairwise MayPrecede :=
        List.pairwise_of_forall_mem_list fun a ha b _ => mayPrecede_of_not_heading (hplain a ha) b
      have hheld : ∀ a ∈ entriesOfAll (indent + underItem marker) children,
          (Entry.block indent (.item marker text [])).holds a = true := by
        intro a ha
        obtain ⟨other, inner, rfl, hle⟩ := entriesOfAll_blocks _ children hranked hplain a ha
        have : 0 < underItem marker := Nat.succ_pos _
        simp only [Entry.holds, decide_eq_true_eq]
        omega
      rw [entriesOfAll, entriesOf, List.cons_append, nest_cons_append _ hheld (hhead _ _ rfl),
        nest_entriesOfAll _ children hchildren hranked, hrest]
      rfl
    | _ =>
      have hleaf := nest_cons_append [] (by simp) (hhead _ _ rfl)
      rw [entriesOfAll, entriesOf, List.singleton_append]
      rw [List.nil_append] at hleaf
      rw [hleaf, hrest]
      rfl

end RefPages.Markup
