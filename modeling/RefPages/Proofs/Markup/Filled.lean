/-
Tables of contents put in place of their marks. The nodes are gone through by position while they are replaced,
and at every position what is ahead are still nodes of the forest at the beginning: a table is passed over as a
whole, so that no mark in it is looked at.
-/
import RefPages.Markup.Contents
import RefPages.Proofs.Markup.Deleted

namespace RefPages.Markup

open Node RefPages.Text

/-! ## Outlines -/

namespace Node

@[simp] theorem bare_bare (node : Node) : node.bare.bare = node.bare := bare_withChildren node []

theorem outline_append (above : Place) (nodes more : List Node) :
    outline above (nodes ++ more) = outline above nodes ++ outline above more := by
  induction nodes with
  | nil => rfl
  | cons node nodes ih => rw [List.cons_append, outline_cons, outline_cons, ih, List.append_assoc]

/-- What is below the nodes that a forest is under does not show in its outline. -/
theorem outline_congr {above above' : Place} (h : above.map bare = above'.map bare) (nodes : List Node) :
    outline above nodes = outline above' nodes := by
  induction nodes using forest_induction generalizing above above' with
  | nil => rfl
  | cons node nodes ihbelow ihrest =>
    have hbelow : (node :: above).map bare = (node :: above').map bare := by rw [List.map_cons, List.map_cons, h]
    rw [outline_cons, outline_cons, h, ihbelow hbelow, ihrest h]

end Node

/-! ## Marks -/

variable {toc toc3 nodes : List Node}

/-- What there is in an outline for a place once the tables are put in: for a mark the table, under the nodes that
the mark is under, and for any other place this place. -/
def filledPlace (toc toc3 : List Node) : Place → List Place
  | .paragraph text :: above =>
    if trim text.toList = contentsMark.toList then outline above toc
    else if trim text.toList = deepContentsMark.toList then outline above toc3
    else [.paragraph text :: above]
  | place => [place]

theorem filledPlace_bare (toc toc3 : List Node) (node : Node) (above : Place) :
    filledPlace toc toc3 (node.bare :: above) =
      match tableFor? toc toc3 node with
      | some table => outline above table
      | none => [node.bare :: above] := by
  cases node with
  | paragraph text =>
    simp only [bare, withChildren, filledPlace, tableFor?]
    split
    · rfl
    · split <;> rfl
  | _ => rfl

theorem children_of_table {node : Node} {table : List Node} (h : tableFor? toc toc3 node = some table) :
    node.children = [] := by
  cases node with
  | paragraph => rfl
  | _ => cases h

/-- Nothing comes to stand below a leaf. -/
theorem children_filled (toc toc3 : List Node) (node : Node) :
    (node.withChildren (fillMarksFrom toc toc3 0 node.children)).children = fillMarksFrom toc toc3 0 node.children := by
  have hleaf : fillMarksFrom toc toc3 0 [] = [] := by
    rw [fillMarksFrom]
    rfl
  cases node with
  | heading | item => rfl
  | _ => exact hleaf.symm

/-- A node that is no mark stays where it is, and so does what is below it once that is filled in. -/
theorem outline_withChildren_filled {node : Node} (hnone : tableFor? toc toc3 node = none) {above : Place}
    (hbelow : outline (node :: above) (fillMarksFrom toc toc3 0 node.children) =
      (outline (node :: above) node.children).flatMap (filledPlace toc toc3)) :
    outline above [node.withChildren (fillMarksFrom toc toc3 0 node.children)] =
      (outline above [node]).flatMap (filledPlace toc toc3) := by
  have hplace : filledPlace toc toc3 (node.bare :: above.map bare) = [node.bare :: above.map bare] := by
    rw [filledPlace_bare, hnone]
  have habove (below : List Node) : outline (node.withChildren below :: above) below = outline (node :: above) below :=
    outline_congr (by simp) below
  rw [outline_cons, outline_cons, outline_nil, List.append_nil, List.append_nil, bare_withChildren, children_filled,
    habove, hbelow, List.flatMap_cons, hplace, List.singleton_append]

/-! ## Position by position -/

/-- What has been passed stays as it is, and what is ahead is filled in. -/
theorem outline_fillMarksFrom (toc toc3 : List Node) (position : Nat) (nodes : List Node) (above : Place) :
    outline above (fillMarksFrom toc toc3 position nodes) =
      outline above (nodes.take position) ++ (outline above (nodes.drop position)).flatMap (filledPlace toc toc3) := by
  induction position, nodes using fillMarksFrom.induct toc toc3 generalizing above with
  | case1 position nodes hlt table htable ih =>
    have htop : outline (above.map bare) table = outline above table := outline_congr (by simp) table
    have hplace : filledPlace toc toc3 (nodes[position].bare :: above.map bare) = outline (above.map bare) table := by
      rw [filledPlace_bare, htable]
    rw [fillMarksFrom, dif_pos hlt, htable]
    -- the table goes to what has been passed
    rw [ih, take_splice hlt.le, drop_splice hlt.le, outline_append, List.append_assoc, ← htop, ← hplace]
    rw [List.drop_eq_getElem_cons hlt, outline_cons, children_of_table htable, outline_nil, List.singleton_append,
      List.flatMap_cons]
  | case2 position nodes hlt hnone below ihbelow ih =>
    have hpassed : (nodes.set position (nodes[position].withChildren below)).take (position + 1) =
        nodes.take position ++ [nodes[position].withChildren below] := by
      rw [List.take_succ_eq_append_getElem (by simpa using hlt), List.take_set_of_le (Nat.le_refl _),
        List.getElem_set_self]
    have hnode : outline above [nodes[position].withChildren below] =
        (outline above [nodes[position]]).flatMap (filledPlace toc toc3) := by
      refine outline_withChildren_filled hnone ?_
      rw [ihbelow, List.take_zero, List.drop_zero, outline_nil, List.nil_append]
    rw [fillMarksFrom, dif_pos hlt, hnone]
    -- so does the node, with what is below it filled in
    rw [ih, hpassed, List.drop_set_of_lt (Nat.lt_succ_self _), outline_append, List.append_assoc, hnode,
      ← List.flatMap_append, ← outline_append, List.singleton_append, List.drop_eq_getElem_cons hlt]
  | case3 position nodes hge =>
    have hle := Nat.not_lt.1 hge
    rw [fillMarksFrom, dif_neg hge, List.take_of_length_le hle, List.drop_of_length_le hle, outline_nil,
      List.flatMap_nil, List.append_nil]

/-- A forest with its marks replaced is the one in whose outline each mark, at whatever depth, gives way to the table
it asks for, and every other place stays, under the same nodes and in the same order. -/
theorem eq_fillMarks_iff (toc toc3 nodes result : List Node) :
    result = fillMarks toc toc3 nodes ↔
      outline [] result = (outline [] nodes).flatMap (filledPlace toc toc3) := by
  have hfilled : outline [] (fillMarks toc toc3 nodes) = (outline [] nodes).flatMap (filledPlace toc toc3) := by
    rw [fillMarks, outline_fillMarksFrom, List.take_zero, List.drop_zero, outline_nil, List.nil_append]
  refine ⟨fun h => h ▸ hfilled, fun h => ?_⟩
  rw [← hfilled] at h
  exact eq_of_outline rfl h

/-- A table of contents in which there is a mark, in front of an empty one and in a list: the mark is not replaced
in turn. -/
example :
    let mark := Node.paragraph " <!-- TOC --> "
    let deepMark := Node.paragraph "<!-- TOC3 -->"
    let toc := [mark, .paragraph "a"]
    fillMarks toc [] [mark, deepMark, .item .dash "<!-- TOC -->" [deepMark, mark, .code "" []], mark] =
      toc ++ [.item .dash "<!-- TOC -->" (toc ++ [.code "" []])] ++ toc := by
  decide +kernel

end RefPages.Markup
