/-
Tables of contents: the anchors of headings, a list of links to them, and the places where such
a list is put.
-/
import RefPages.Markup.Node
import RefPages.Text.Blank
import RefPages.Text.LetterCase

namespace RefPages.Markup

open RefPages.Text

/-- The anchor of a heading: small letters and digits, hyphens and underscores are kept, and a
blank becomes a hyphen. -/
def slug (text : String) : String :=
  String.ofList
    (((lower text.toList).filter fun c => isAlphanumeric c || c = ' ' || c = '-' || c = '_').map
      fun c => if c = ' ' then '-' else c)

/-- The entry of a heading in a table of contents. -/
def contentsItem (text : String) (nested : List Node) : Node :=
  .item .dash ("[" ++ text ++ "](#" ++ slug text ++ ")") nested

/-- The entries of the third level among the nodes under a heading. -/
def nestedContents : List Node → List Node
  | [] => []
  | .heading 3 text _ :: nodes => contentsItem text [] :: nestedContents nodes
  | _ :: nodes => nestedContents nodes

mutual

/-- The entries that a node contributes to a table of contents. -/
def contentsOf (deep : Bool) : Node → List Node
  | .heading level text children =>
    if level < 2 then contents deep children
    else if level = 2 then [contentsItem text (if deep then nestedContents children else [])]
    else []
  | _ => []

/-- A table of contents: an entry for each heading of the second level and, when it goes deep,
entries for those of the third level under it. -/
def contents (deep : Bool) : List Node → List Node
  | [] => []
  | node :: nodes => contentsOf deep node ++ contents deep nodes

end

/-- The paragraph that a table of contents replaces. -/
def contentsMark : String := "<!-- TOC -->"

/-- The paragraph that a table of contents with the third level replaces. -/
def deepContentsMark : String := "<!-- TOC3 -->"

/-- The table of contents that a node asks for, when it is one of these paragraphs. -/
def tableFor? (toc toc3 : List Node) : Node → Option (List Node)
  | .paragraph text =>
    let mark := trim text.toList
    if mark = contentsMark.toList then some toc
    else if mark = deepContentsMark.toList then some toc3
    else none
  | _ => none

/-- The nodes with others in place of the one at a position. -/
def splice (position : Nat) (others nodes : List Node) : List Node :=
  nodes.take position ++ others ++ nodes.drop (position + 1)

section

variable {position : Nat} {others nodes : List Node}

theorem take_splice (h : position ≤ nodes.length) :
    (splice position others nodes).take (position + others.length) = nodes.take position ++ others :=
  List.take_left' (by rw [List.length_append, List.length_take_of_le h])

theorem drop_splice (h : position ≤ nodes.length) :
    (splice position others nodes).drop (position + others.length) = nodes.drop (position + 1) :=
  List.drop_left' (by rw [List.length_append, List.length_take_of_le h])

theorem sizeOf_drop_succ (h : position < nodes.length) :
    sizeOf (nodes.drop (position + 1)) < sizeOf (nodes.drop position) := by
  rw [List.drop_eq_getElem_cons h, List.cons.sizeOf_spec]
  omega

theorem sizeOf_children (h : position < nodes.length) :
    sizeOf nodes[position].children < sizeOf (nodes.drop position) := by
  rw [List.drop_eq_getElem_cons h, List.cons.sizeOf_spec]
  cases nodes[position] <;> simp [Node.children] <;> omega

end

/-- The forest with the marks from a position on replaced, each by the table of contents it asks for. The next
position is behind a table that has been put in, or behind a node in which the marks have been replaced, so what
is ahead becomes less. -/
def fillMarksFrom (toc toc3 : List Node) (position : Nat) (nodes : List Node) : List Node :=
  if h : position < nodes.length then
    match tableFor? toc toc3 nodes[position] with
    | some table => fillMarksFrom toc toc3 (position + table.length) (splice position table nodes)
    | none =>
      let below := fillMarksFrom toc toc3 0 nodes[position].children
      fillMarksFrom toc toc3 (position + 1) (nodes.set position (nodes[position].withChildren below))
  else nodes
termination_by sizeOf (nodes.drop position)
decreasing_by
  · rw [drop_splice (Nat.le_of_lt h)]
    exact sizeOf_drop_succ h
  · exact sizeOf_children h
  · rw [List.drop_set_of_lt (Nat.lt_succ_self position)]
    exact sizeOf_drop_succ h

/-- The forest with each mark replaced by the table of contents it asks for. -/
def fillMarks (toc toc3 nodes : List Node) : List Node := fillMarksFrom toc toc3 0 nodes

end RefPages.Markup
