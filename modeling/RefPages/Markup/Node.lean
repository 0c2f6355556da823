/-
Documents as forests: headings and list items hold other nodes, code, notes, properties and
texts are leaves. Equality of forests is decided here, by recursion on both sides.
-/

namespace RefPages.Markup

/-- The marker that a list item begins with. -/
inductive Marker where
  | dash
  | star
  | number
  deriving DecidableEq, Repr

/-- The marker as it is written. -/
def Marker.symbol : Marker → String
  | .dash => "-"
  | .star => "*"
  | .number => "1."

/-- A part of a document. -/
inductive Node where
  /-- A heading and everything up to the next heading that is not deeper. -/
  | heading (level : Nat) (text : String) (children : List Node)
  /-- A list item and the blocks indented under it. -/
  | item (marker : Marker) (text : String) (children : List Node)
  /-- A fenced code sample with the words after its opening fence. -/
  | code (info : String) (lines : List String)
  /-- A call-out of some kind. -/
  | note (kind : String) (text : String)
  /-- Lines between two rules, as at the top of a page. -/
  | properties (lines : List String)
  /-- A paragraph. -/
  | paragraph (text : String)
  deriving Repr

instance : Inhabited Node := ⟨.paragraph ""⟩

namespace Node

/-! ## Parts -/

/-- The running text of a node; code and properties have none. -/
def inlineText? : Node → Option String
  | heading _ text _ | item _ text _ | note _ text | paragraph text => some text
  | code .. | properties _ => none

/-- The node with another running text; code and properties stay as they are. -/
def withText (new : String) : Node → Node
  | heading level _ children => heading level new children
  | item marker _ children => item marker new children
  | note kind _ => note kind new
  | paragraph _ => paragraph new
  | code info lines => code info lines
  | properties lines => properties lines

/-- The nodes under a node. -/
def children : Node → List Node
  | heading _ _ children | item _ _ children => children
  | _ => []

/-- The node with other nodes under it; a leaf stays as it is. -/
def withChildren (new : List Node) : Node → Node
  | heading level text _ => heading level text new
  | item marker text _ => item marker text new
  | leaf => leaf

/-- Whether a node is a heading. -/
def isHeading : Node → Bool
  | heading .. => true
  | _ => false

/-! ## Equality -/

mutual

/-- Whether two nodes are the same. -/
def same : Node → Node → Bool
  | heading level text children, heading level' text' children' =>
    level == level' && text == text' && sameAll children children'
  | item marker text children, item marker' text' children' =>
    marker == marker' && text == text' && sameAll children children'
  | code info lines, code info' lines' => info == info' && lines == lines'
  | note kind text, note kind' text' => kind == kind' && text == text'
  | properties lines, properties lines' => lines == lines'
  | paragraph text, paragraph text' => text == text'
  | _, _ => false

/-- Whether two forests are the same. -/
def sameAll : List Node → List Node → Bool
  | [], [] => true
  | node :: nodes, node' :: nodes' => same node node' && sameAll nodes nodes'
  | _, _ => false

end

mutual

theorem same_iff : ∀ (a b : Node), same a b = true ↔ a = b
  | heading .., b => by cases b <;> simp [same, and_assoc, sameAll_iff]
  | item .., b => by cases b <;> simp [same, and_assoc, sameAll_iff]
  | code .., b => by cases b <;> simp [same]
  | note .., b => by cases b <;> simp [same]
  | properties _, b => by cases b <;> simp [same]
  | paragraph _, b => by cases b <;> simp [same]

theorem sameAll_iff : ∀ (as bs : List Node), sameAll as bs = true ↔ as = bs
  | [], bs => by cases bs <;> simp [sameAll]
  | a :: as, bs => by
    cases bs with
    | nil => simp [sameAll]
    | cons b bs => simp [sameAll, same_iff a b, sameAll_iff as bs]

end

instance : DecidableEq Node := fun a b => decidable_of_iff (same a b = true) (same_iff a b)

/-! ## Walks -/

mutual

/-- A node and the nodes below it, each before the nodes under it. -/
def preorder : Node → List Node
  | heading level text children => heading level text children :: preorderAll children
  | item marker text children => item marker text children :: preorderAll children
  | code info lines => [code info lines]
  | note kind text => [note kind text]
  | properties lines => [properties lines]
  | paragraph text => [paragraph text]

/-- All nodes of a forest, each before the nodes under it. -/
def preorderAll : List Node → List Node
  | [] => []
  | node :: nodes => preorder node ++ preorderAll nodes

end

end Node

end RefPages.Markup
