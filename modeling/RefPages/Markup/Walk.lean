/-
Changing the running texts of a forest one by one, in document order. A walk carries a state and
may be stopped by its visitor: later nodes keep their texts, and the shape of the forest never
changes.
-/
import RefPages.Markup.Node

namespace RefPages.Markup

/-! ## A walk that may stop -/

/-- What a visitor makes of a node: its running text from now on, which a node without one
ignores, the state, and the fault with which the walk stops. -/
structure Visited (σ ε : Type) where
  text : String
  state : σ
  fault? : Option ε

section

variable {σ ε : Type} (visit : σ → Node → Visited σ ε)

mutual

/-- A node after a walk over it and the nodes below it, the state the walk ends in, and the fault
that stopped it. -/
def walk (state : σ) : Node → Node × σ × Option ε
  | .heading level text children =>
    let this := visit state (.heading level text children)
    match this.fault? with
    | some fault => (.heading level this.text children, this.state, some fault)
    | none =>
      let (children, state, fault?) := walkAll this.state children
      (.heading level this.text children, state, fault?)
  | .item marker text children =>
    let this := visit state (.item marker text children)
    match this.fault? with
    | some fault => (.item marker this.text children, this.state, some fault)
    | none =>
      let (children, state, fault?) := walkAll this.state children
      (.item marker this.text children, state, fault?)
  | leaf =>
    let this := visit state leaf
    (leaf.withText this.text, this.state, this.fault?)

/-- A forest after a walk over it, the state the walk ends in, and the fault that stopped it. -/
def walkAll (state : σ) : List Node → List Node × σ × Option ε
  | [] => ([], state, none)
  | node :: nodes =>
    match walk state node with
    | (node, state, some fault) => (node :: nodes, state, some fault)
    | (node, state, none) =>
      let (nodes, state, fault?) := walkAll state nodes
      (node :: nodes, state, fault?)

end

end

/-! ## A walk that changes every text or fails -/

section

variable {ε : Type} (change : String → Except ε String)

mutual

/-- The node with every running text in it changed; the first text that cannot be changed gives
the fault. -/
def tryMapTexts : Node → Except ε Node
  | .heading level text children => do
    return .heading level (← change text) (← tryMapAllTexts children)
  | .item marker text children => do
    return .item marker (← change text) (← tryMapAllTexts children)
  | .note kind text => return .note kind (← change text)
  | .paragraph text => return .paragraph (← change text)
  | .code info lines => return .code info lines
  | .properties lines => return .properties lines

/-- The forest with every running text in it changed. -/
def tryMapAllTexts : List Node → Except ε (List Node)
  | [] => return []
  | node :: nodes => return (← tryMapTexts node) :: (← tryMapAllTexts nodes)

end

end

/-! ## A walk that changes every text -/

section

variable (change : String → String)

mutual

/-- The node with every running text in it changed. -/
def mapTexts : Node → Node
  | .heading level text children => .heading level (change text) (mapAllTexts children)
  | .item marker text children => .item marker (change text) (mapAllTexts children)
  | .note kind text => .note kind (change text)
  | .paragraph text => .paragraph (change text)
  | .code info lines => .code info lines
  | .properties lines => .properties lines

/-- The forest with every running text in it changed. -/
def mapAllTexts : List Node → List Node
  | [] => []
  | node :: nodes => mapTexts node :: mapAllTexts nodes

end

end

end RefPages.Markup
