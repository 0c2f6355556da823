/-
Parsing what a parsed text is rendered to. Layout that parsing drops is written anew by rendering, and
only one thing depends on it: a line is a heading when its first character is a sign, so a paragraph
that begins with a sign was indented, and is written without indentation unless it is under a list item.
-/
import RefPages.Proofs.Markup.Legible

namespace RefPages.Markup

open RefPages.Text

/-! ## Paragraphs without indentation -/

mutual

/-- The paragraphs of a node that are not under list items. -/
def Node.flushTexts : Node → List String
  | .heading _ _ children => flushTextsAll children
  | .paragraph text => [text]
  | _ => []

/-- The paragraphs of a forest that are not under list items. They are written without
indentation. -/
def flushTextsAll : List Node → List String
  | [] => []
  | node :: nodes => node.flushTexts ++ flushTextsAll nodes

end

mutual

theorem mem_entriesOf_iff {outer : Nat} {text : String} : ∀ {node : Node}, node.Legible outer →
    (.block 0 (.paragraph text) ∈ entriesOf 0 node ↔ text ∈ node.flushTexts)
  | .heading level own children, h => by
    rw [entriesOf, Node.flushTexts, List.mem_cons, ← mem_entriesOfAll_iff h.2.2.2]
    simp
  | .item marker own children, h => by
    -- what is under the item is indented
    have hinner : .block 0 (.paragraph text) ∉ entriesOfAll (underItem marker) children := fun hmem => by
      obtain ⟨indent, inner, heq, hle⟩ := entriesOfAll_blocks _ children h.2.2.ranked h.2.1 _ hmem
      cases heq
      exact absurd hle (by simp [underItem])
    simp [entriesOf, Node.flushTexts, hinner]
  | .code .., _ => by simp [entriesOf, Node.flushTexts]
  | .note .., _ => by simp [entriesOf, Node.flushTexts]
  | .properties _, _ => by simp [entriesOf, Node.flushTexts]
  | .paragraph own, _ => by simp [entriesOf, Node.flushTexts]

/-- The entries of paragraphs without indentation are those of paragraphs that are not under list
items. -/
theorem mem_entriesOfAll_iff {outer : Nat} {text : String} : ∀ {nodes : List Node}, LegibleAll outer nodes →
    (.block 0 (.paragraph text) ∈ entriesOfAll 0 nodes ↔ text ∈ flushTextsAll nodes)
  | [], _ => by simp [entriesOfAll, flushTextsAll]
  | node :: nodes, h => by
    rw [entriesOfAll, flushTextsAll, List.mem_append, List.mem_append, mem_entriesOf_iff h.1,
      mem_entriesOfAll_iff h.2]

end

mutual

theorem bare_entriesOf (indent : Nat) : ∀ node : Node, ∀ e ∈ entriesOf indent node, e.Bare
  | .heading level text children => by
    rw [entriesOf, List.forall_mem_cons]
    exact ⟨trivial, bare_entriesOfAll 0 children⟩
  | .item marker text children => by
    rw [entriesOf, List.forall_mem_cons]
    exact ⟨⟨rfl, rfl⟩, bare_entriesOfAll _ children⟩
  | .code .. => by simp [entriesOf, Entry.Bare, Node.isHeading, Node.children]
  | .note .. => by simp [entriesOf, Entry.Bare, Node.isHeading, Node.children]
  | .properties _ => by simp [entriesOf, Entry.Bare, Node.isHeading, Node.children]
  | .paragraph _ => by simp [entriesOf, Entry.Bare, Node.isHeading, Node.children]

theorem bare_entriesOfAll (indent : Nat) : ∀ nodes : List Node, ∀ e ∈ entriesOfAll indent nodes, e.Bare
  | [] => by simp [entriesOfAll]
  | node :: nodes => by
    rw [entriesOfAll, List.forall_mem_append]
    exact ⟨bare_entriesOf indent node, bare_entriesOfAll indent nodes⟩

end

/-! ## Entries that are read again -/

theorem Entry.Bare.reread {e : Entry} (h : e.Bare) : e.reread.Bare := by
  unfold Entry.reread
  split
  · split
    · trivial
    · exact h
  · exact h

theorem reread_paragraph {text : String} (h : text.toList.head? = some '#') :
    (Entry.block 0 (.paragraph text)).reread = headingEntry text.toList := by
  have hline : (spaces 0 ++ text.toList).head? = some '#' := h
  rw [Entry.reread, if_pos hline]
  rfl

/-- Any other entry is read as it was written. -/
theorem reread_eq_self {e : Entry}
    (h : ∀ text, e = .block 0 (.paragraph text) → text.toList.head? ≠ some '#') : e.reread = e := by
  unfold Entry.reread
  split
  · rename_i indent text
    refine if_neg ?_
    cases indent with
    | zero => exact h text rfl
    | succ indent => simp [spaces, List.replicate_succ]
  · rfl

/-- Parsing what a legible forest is rendered to gives the forest exactly when no paragraph that is
not under a list item begins with a sign. -/
theorem parse_render_iff {nodes : List Node} (h : Legible nodes) :
    parse (render 0 nodes) = .ok nodes ↔ ∀ text ∈ flushTextsAll nodes, text.toList.head? ≠ some '#' := by
  have hnest := nest_entriesOfAll 0 nodes h.order h.nodes.ranked
  have hbare := bare_entriesOfAll 0 nodes
  rw [parse_render_eq h, Except.ok.injEq]
  constructor
  · intro hsame text htext hsign
    -- a walk would meet a heading in the place of the paragraph
    have hwalk := preorderAll_nest ((entriesOfAll 0 nodes).map Entry.reread)
      (List.forall_mem_map.2 fun e he => (hbare e he).reread)
    have hwalk' := preorderAll_nest (entriesOfAll 0 nodes) hbare
    rw [hsame, List.map_map] at hwalk
    rw [hnest] at hwalk'
    have hnode := List.map_inj_left.1 (hwalk.symm.trans hwalk') _ ((mem_entriesOfAll_iff h.nodes).2 htext)
    rw [Function.comp_apply, reread_paragraph hsign] at hnode
    cases hnode
  · intro hplain
    have hreread : ∀ e ∈ entriesOfAll 0 nodes, e.reread = e := fun e he => reread_eq_self fun text heq =>
      hplain text ((mem_entriesOfAll_iff h.nodes).1 (heq ▸ he))
    rw [List.map_congr_left hreread, List.map_id', hnest]

/-- Parsing what a parsed text is rendered to gives the same forest exactly when no paragraph that
is not under a list item begins with a sign. -/
theorem parse_render_parse_iff {text : String} {nodes : List Node} (htext : Orderly text)
    (h : parse text = .ok nodes) :
    parse (render 0 nodes) = .ok nodes ↔ ∀ own ∈ flushTextsAll nodes, own.toList.head? ≠ some '#' :=
  parse_render_iff (legible_of_parse htext h)

/-- Two lines of a paragraph, an item with a paragraph and code under it, and a heading with a note. -/
def guideText : String :=
  "Intro\n  goes  on\n- item\n\n    # note\n  ```js\n\n    f();\n  ```\n##  Title\n::: note\na\n b\n:::\n"

/-- What the text is read as. -/
def guideForest : List Node :=
  [.paragraph "Intro goes  on", .item .dash "item" [.paragraph "# note", .code "js" ["", "  f();"]],
    .heading 2 " Title" [.note "note" "a  b"]]

/-- A sign under a list item makes no heading. -/
theorem parse_render_parse_guide :
    Orderly guideText ∧ parse guideText = .ok guideForest ∧
      parse (render 0 guideForest) = .ok guideForest := by
  have htext : Orderly guideText := by
    constructor <;> rw [guideText, String.toList_ofList] <;> decide
  have h : parse guideText = .ok guideForest := (parse_of_toList String.toList_ofList).trans rfl
  exact ⟨htext, h, (parse_render_parse_iff htext h).2 (by decide)⟩

/-- A blank before a sign makes a paragraph of the line, but it is not written again. -/
theorem parse_render_parse_sign :
    parse " # a" = .ok [.paragraph "# a"] ∧
      parse (render 0 [.paragraph "# a"]) = .ok [.heading 1 "a" []] ∧
      parse (render 0 [.paragraph "# a"]) ≠ .ok [.paragraph "# a"] := by
  have hagain : parse (render 0 [.paragraph "# a"]) = .ok [.heading 1 "a" []] := by rfl
  refine ⟨by rfl, hagain, fun hsame => ?_⟩
  rw [hagain] at hsame
  cases hsame

end RefPages.Markup
