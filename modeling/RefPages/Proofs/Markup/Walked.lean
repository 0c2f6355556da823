/-
A walk over a forest is a walk over its nodes one after another, in the order in which a reader
meets them. Such a walk has gone as far as the first node where the visitor fails: up to there every
node has the text that the visitor gives it, behind it every node is what it was, and nowhere does
the forest change its shape.
-/
import RefPages.Markup.Walk

namespace RefPages.Markup

open Node

section

variable {σ ε : Type} (visit : σ → Node → Visited σ ε)

/-! ## A visitor that goes from node to node -/

/-- The state in which a visitor leaves nodes that it visits in turn. -/
def stateAfter (state : σ) (nodes : List Node) : σ :=
  nodes.foldl (fun state node => (visit state node).state) state

/-- The nodes with the texts that a visitor gives them in turn, and nothing under them. -/
def handled (state : σ) : List Node → List Node
  | [] => []
  | node :: nodes =>
    (node.withText (visit state node).text).withChildren [] :: handled (visit state node).state nodes

/-- The fault with which a visitor that has been to `seen` stops at a node. -/
def faultAt? (state : σ) (seen : List Node) (node : Node) : Option ε :=
  (visit (stateAfter visit state seen) node).fault?

/-- The visitor stops at none of the nodes that it visits in turn. -/
def Unfailing (state : σ) (nodes : List Node) : Prop :=
  ∀ seen node, seen ++ [node] <+: nodes → faultAt? visit state seen node = none

/-- A walk over nodes one after another, with nothing under them. -/
def visitEach (state : σ) : List Node → List Node × σ × Option ε
  | [] => ([], state, none)
  | node :: nodes =>
    let this := visit state node
    let first := (node.withText this.text).withChildren []
    match this.fault? with
    | some fault => (first :: nodes.map (withChildren []), this.state, some fault)
    | none =>
      let (nodes, state, fault?) := visitEach this.state nodes
      (first :: nodes, state, fault?)

theorem visitEach_singleton (state : σ) (node : Node) :
    visitEach visit state [node] =
      ([(node.withText (visit state node).text).withChildren []], (visit state node).state,
        (visit state node).fault?) := by
  rw [visitEach]
  cases (visit state node).fault? <;> rfl

variable {visit} {state : σ} {nodes : List Node}

theorem handled_append (state : σ) (nodes more : List Node) :
    handled visit state (nodes ++ more) =
      handled visit state nodes ++ handled visit (stateAfter visit state nodes) more := by
  induction nodes generalizing state with
  | nil => rfl
  | cons node nodes ih =>
    rw [List.cons_append, handled, handled, ih, List.cons_append]
    rfl

theorem unfailing_nil (state : σ) : Unfailing visit state [] := fun seen node h =>
  absurd (List.prefix_nil.1 h) (List.append_ne_nil_of_right_ne_nil seen (List.cons_ne_nil node []))

theorem unfailing_cons {node : Node} :
    Unfailing visit state (node :: nodes) ↔
      (visit state node).fault? = none ∧ Unfailing visit (visit state node).state nodes := by
  constructor
  · intro h
    exact ⟨h [] node (List.cons_prefix_cons.2 ⟨rfl, List.nil_prefix⟩), fun seen other hseen =>
      h (node :: seen) other (List.cons_prefix_cons.2 ⟨rfl, hseen⟩)⟩
  · rintro ⟨hnode, hnodes⟩ seen other hseen
    cases seen with
    | nil =>
      obtain ⟨rfl, -⟩ := List.cons_prefix_cons.1 hseen
      exact hnode
    | cons first seen =>
      obtain ⟨rfl, hrest⟩ := List.cons_prefix_cons.1 hseen
      exact hnodes seen other hrest

/-- Where nothing fails every node is handled. -/
theorem visitEach_of_unfailing (h : Unfailing visit state nodes) :
    visitEach visit state nodes = (handled visit state nodes, stateAfter visit state nodes, none) := by
  induction nodes generalizing state with
  | nil => rfl
  | cons node nodes ih =>
    obtain ⟨hnode, hnodes⟩ := unfailing_cons.1 h
    rw [visitEach, hnode, handled]
    dsimp only
    rw [ih hnodes]
    rfl

/-- A walk over more nodes goes on where the visitor has not failed before. -/
theorem visitEach_append (state : σ) (nodes more : List Node) :
    visitEach visit state (nodes ++ more) =
      match visitEach visit state nodes with
      | (done, state, some fault) => (done ++ more.map (withChildren []), state, some fault)
      | (done, state, none) =>
        let (rest, state, fault?) := visitEach visit state more
        (done ++ rest, state, fault?) := by
  induction nodes generalizing state with
  | nil => rfl
  | cons node nodes ih =>
    rw [List.cons_append, visitEach, visitEach]
    cases (visit state node).fault? with
    -- the visitor stops before it comes to the other nodes
    | some fault => simp only [List.map_append, List.cons_append]
    | none =>
      dsimp only
      rw [ih]
      rcases visitEach visit (visit state node).state nodes with ⟨done, state, _ | fault⟩ <;> rfl

/-- At the first failure the walk stops, and the nodes behind it stay as they are. -/
theorem visitEach_of_fault {node : Node} {later : List Node} {fault : ε} (h : Unfailing visit state nodes)
    (hfault : faultAt? visit state nodes node = some fault) :
    visitEach visit state (nodes ++ node :: later) =
      (handled visit state (nodes ++ [node]) ++ later.map (withChildren []),
        stateAfter visit state (nodes ++ [node]), some fault) := by
  have hnode : (visit (stateAfter visit state nodes) node).fault? = some fault := hfault
  have hstate : stateAfter visit state (nodes ++ [node]) = (visit (stateAfter visit state nodes) node).state := by
    rw [stateAfter, List.foldl_append]
    rfl
  rw [visitEach_append, visitEach_of_unfailing h, handled_append, hstate, List.append_assoc]
  dsimp only
  rw [visitEach, hnode]
  rfl

/-! ## A visitor that goes over a forest -/

/-- The forest without its running texts. -/
def wordless (nodes : List Node) : List Node := mapAllTexts (fun _ => "") nodes

mutual

theorem mapTexts_walk (state : σ) : ∀ node : Node,
    mapTexts (fun _ => "") (walk visit state node).1 = mapTexts (fun _ => "") node
  | .heading level text children => by
    rw [walk]
    cases (visit state (.heading level text children)).fault? with
    | some fault => rfl
    | none =>
      dsimp only
      rw [mapTexts, mapTexts, mapAllTexts_walkAll]
  | .item marker text children => by
    rw [walk]
    cases (visit state (.item marker text children)).fault? with
    | some fault => rfl
    | none =>
      dsimp only
      rw [mapTexts, mapTexts, mapAllTexts_walkAll]
  | .code .. => rfl
  | .note .. => rfl
  | .properties _ => rfl
  | .paragraph _ => rfl

/-- Walking over a forest changes nothing but running texts. -/
theorem mapAllTexts_walkAll (state : σ) : ∀ nodes : List Node,
    mapAllTexts (fun _ => "") (walkAll visit state nodes).1 = mapAllTexts (fun _ => "") nodes
  | [] => rfl
  | node :: nodes => by
    have hnode := mapTexts_walk state node
    rw [walkAll]
    rcases hwalk : walk visit state node with ⟨after, state', _ | fault⟩
    · rw [hwalk] at hnode
      dsimp only at hnode ⊢
      rw [mapAllTexts, mapAllTexts, hnode, mapAllTexts_walkAll]
    · rw [hwalk] at hnode
      dsimp only at hnode ⊢
      rw [mapAllTexts, mapAllTexts, hnode]

end

mutual

theorem walk_eq_visitEach (state : σ) : ∀ node : Node,
    ((preorder (walk visit state node).1).map (withChildren []), (walk visit state node).2) =
      visitEach visit state (preorder node)
  | .heading level text children => by
    have hchildren := walkAll_eq_visitEach (visit state (.heading level text children)).state children
    rw [walk, preorder, visitEach]
    cases (visit state (.heading level text children)).fault? with
    | some fault => rfl
    | none =>
      dsimp only
      rw [← hchildren]
      rfl
  | .item marker text children => by
    have hchildren := walkAll_eq_visitEach (visit state (.item marker text children)).state children
    rw [walk, preorder, visitEach]
    cases (visit state (.item marker text children)).fault? with
    | some fault => rfl
    | none =>
      dsimp only
      rw [← hchildren]
      rfl
  | .code info lines => (visitEach_singleton visit state (.code info lines)).symm
  | .note kind text => (visitEach_singleton visit state (.note kind text)).symm
  | .properties lines => (visitEach_singleton visit state (.properties lines)).symm
  | .paragraph text => (visitEach_singleton visit state (.paragraph text)).symm

/-- A walk over a forest is a walk over its nodes, each before those under it. -/
theorem walkAll_eq_visitEach (state : σ) : ∀ nodes : List Node,
    ((preorderAll (walkAll visit state nodes).1).map (withChildren []), (walkAll visit state nodes).2) =
      visitEach visit state (preorderAll nodes)
  | [] => rfl
  | node :: nodes => by
    rw [walkAll, preorderAll, visitEach_append, ← walk_eq_visitEach state node]
    rcases walk visit state node with ⟨after, state', _ | fault⟩
    · dsimp only
      rw [← walkAll_eq_visitEach state' nodes, preorderAll, List.map_append]
    · dsimp only
      rw [preorderAll, List.map_append]

end

theorem walkAll_of_unfailing (h : Unfailing visit state (preorderAll nodes)) :
    (preorderAll (walkAll visit state nodes).1).map (withChildren []) = handled visit state (preorderAll nodes) ∧
      (walkAll visit state nodes).2 = (stateAfter visit state (preorderAll nodes), none) := by
  have hwalk := @walkAll_eq_visitEach _ _ visit state nodes
  rw [visitEach_of_unfailing h] at hwalk
  exact Prod.mk.inj hwalk

theorem walkAll_of_fault {before later : List Node} {node : Node} {fault : ε}
    (hnodes : preorderAll nodes = before ++ node :: later) (hbefore : Unfailing visit state before)
    (hfault : faultAt? visit state before node = some fault) :
    (preorderAll (walkAll visit state nodes).1).map (withChildren []) =
        handled visit state (before ++ [node]) ++ later.map (withChildren []) ∧
      (walkAll visit state nodes).2 = (stateAfter visit state (before ++ [node]), some fault) := by
  have hwalk := @walkAll_eq_visitEach _ _ visit state nodes
  rw [hnodes, visitEach_of_fault hbefore hfault] at hwalk
  exact Prod.mk.inj hwalk

/-! ## The calls of a visitor -/

/-- The visitor, with a note of every node that it is called on. -/
def noting (visit : σ → Node → Visited σ ε) (state : σ × List Node) (node : Node) : Visited (σ × List Node) ε :=
  let this := visit state.1 node
  ⟨this.text, (this.state, state.2 ++ [node]), this.fault?⟩

/-- The nodes that a visitor is called on by a walk over a forest, call by call. -/
def calls (visit : σ → Node → Visited σ ε) (state : σ) (nodes : List Node) : List Node :=
  (walkAll (noting visit) (state, []) nodes).2.1.2

theorem stateAfter_noting (state : σ) (noted nodes : List Node) :
    stateAfter (noting visit) (state, noted) nodes = (stateAfter visit state nodes, noted ++ nodes) := by
  induction nodes generalizing state noted with
  | nil => rw [List.append_nil]; rfl
  | cons node nodes ih =>
    refine (ih (visit state node).state (noted ++ [node])).trans ?_
    rw [List.append_assoc]
    rfl

theorem faultAt?_noting (state : σ) (seen : List Node) (node : Node) :
    faultAt? (noting visit) (state, []) seen node = faultAt? visit state seen node := by
  unfold faultAt?
  rw [stateAfter_noting]
  rfl

theorem Unfailing.noting (h : Unfailing visit state nodes) : Unfailing (noting visit) (state, []) nodes :=
  fun seen node hseen => (faultAt?_noting state seen node).trans (h seen node hseen)

/-! ## Where a walk stops -/

/-- A walk changes nothing but running texts. If the visitor fails nowhere, it is called once on every node, each
before those under it, and every node gets the text that the visitor gives it. Otherwise the visitor is called on the
nodes up to the first where it fails, these get their texts, all behind them are what they were, and the walk ends with
the fault. -/
theorem walkAll_upTo_fault (visit : σ → Node → Visited σ ε) (state : σ) (nodes : List Node) :
    wordless (walkAll visit state nodes).1 = wordless nodes ∧
      (Unfailing visit state (preorderAll nodes) →
        calls visit state nodes = preorderAll nodes ∧
          (preorderAll (walkAll visit state nodes).1).map (withChildren []) = handled visit state (preorderAll nodes) ∧
          (walkAll visit state nodes).2 = (stateAfter visit state (preorderAll nodes), none)) ∧
      ∀ before node later fault, preorderAll nodes = before ++ node :: later → Unfailing visit state before →
        faultAt? visit state before node = some fault →
        calls visit state nodes = before ++ [node] ∧
          (preorderAll (walkAll visit state nodes).1).map (withChildren []) =
            handled visit state (before ++ [node]) ++ later.map (withChildren []) ∧
          (walkAll visit state nodes).2 = (stateAfter visit state (before ++ [node]), some fault) := by
  refine ⟨mapAllTexts_walkAll state nodes, fun h => ⟨?_, walkAll_of_unfailing h⟩,
    fun before node later fault hnodes hbefore hfault => ⟨?_, walkAll_of_fault hnodes hbefore hfault⟩⟩
  -- noting calls changes nothing about where the visitor fails, so the notes are read off the last state
  · rw [calls, (walkAll_of_unfailing h.noting).2, stateAfter_noting]
    rfl
  · have hnoted : faultAt? (noting visit) (state, []) before node = some fault :=
      (faultAt?_noting state before node).trans hfault
    rw [calls, (walkAll_of_fault hnodes hbefore.noting hnoted).2, stateAfter_noting]
    rfl

end

/-- A visitor that marks nodes and fails at the one after the first `limit`. -/
def marking (limit count : Nat) (node : Node) : Visited Nat String :=
  ⟨node.inlineText?.getD "" ++ "!", count + 1, if count = limit then some "full" else none⟩

/-- A walk that fails at its third node, which is in a list item in a section. -/
theorem walkAll_upTo_fault_third :
    let guide := [heading 1 "a" [item .dash "b" [paragraph "c"], code "" []], paragraph "d"]
    let before := [heading 1 "a" [item .dash "b" [paragraph "c"], code "" []], item .dash "b" [paragraph "c"]]
    preorderAll guide = before ++ paragraph "c" :: [code "" [], paragraph "d"] ∧ Unfailing (marking 2) 0 before ∧
      faultAt? (marking 2) 0 before (paragraph "c") = some "full" ∧
      calls (marking 2) 0 guide = before ++ [paragraph "c"] ∧
      (preorderAll (walkAll (marking 2) 0 guide).1).map (withChildren []) =
        [heading 1 "a!" [], item .dash "b!" [], paragraph "c!", code "" [], paragraph "d"] ∧
      (walkAll (marking 2) 0 guide).2 = (3, some "full") := by
  intro guide before
  have hnodes : preorderAll guide = before ++ paragraph "c" :: [code "" [], paragraph "d"] := rfl
  have hbefore : Unfailing (marking 2) 0 before :=
    unfailing_cons.2 ⟨rfl, unfailing_cons.2 ⟨rfl, unfailing_nil _⟩⟩
  have hfault : faultAt? (marking 2) 0 before (paragraph "c") = some "full" := rfl
  exact ⟨hnodes, hbefore, hfault, (walkAll_upTo_fault (marking 2) 0 guide).2.2 before _ _ _ hnodes hbefore hfault⟩

/-! ## Changing every text -/

section

variable {ε : Type}

/-- The visitor that changes every running text and fails where a text cannot be changed. -/
def changing (change : String → Except ε String) (_ : Unit) (node : Node) : Visited Unit ε :=
  match node.inlineText? with
  | none => ⟨"", (), none⟩
  | some text =>
    match change text with
    | .ok new => ⟨new, (), none⟩
    | .error fault => ⟨text, (), some fault⟩

/-- What a walk leaves, if nothing has stopped it. -/
def unlessStopped {α : Type} : α × Unit × Option ε → Except ε α
  | (result, _, none) => .ok result
  | (_, _, some fault) => .error fault

variable (change : String → Except ε String)

mutual

theorem tryMapTexts_eq_walk : ∀ node : Node,
    tryMapTexts change node = unlessStopped (walk (changing change) () node)
  | .heading level text children => by
    rw [tryMapTexts, tryMapAllTexts_eq_walkAll children, walk]
    cases htext : change text with
    | error fault => simp [changing, inlineText?, htext, unlessStopped, bind, Except.bind]
    | ok new =>
      rcases hchildren : walkAll (changing change) () children with ⟨after, state, _ | fault⟩ <;>
        simp [changing, inlineText?, htext, unlessStopped, bind, Except.bind, pure, Except.pure]
  | .item marker text children => by
    rw [tryMapTexts, tryMapAllTexts_eq_walkAll children, walk]
    cases htext : change text with
    | error fault => simp [changing, inlineText?, htext, unlessStopped, bind, Except.bind]
    | ok new =>
      rcases hchildren : walkAll (changing change) () children with ⟨after, state, _ | fault⟩ <;>
        simp [changing, inlineText?, htext, unlessStopped, bind, Except.bind, pure, Except.pure]
  | .note kind text => by
    cases htext : change text <;>
      simp [tryMapTexts, walk, withText, changing, inlineText?, htext, unlessStopped, bind, Except.bind, pure,
        Except.pure]
  | .paragraph text => by
    cases htext : change text <;>
      simp [tryMapTexts, walk, withText, changing, inlineText?, htext, unlessStopped, bind, Except.bind, pure,
        Except.pure]
  | .code .. => rfl
  | .properties _ => rfl

/-- Changing every text of a forest, and giving it up at the first text that cannot be changed, is a walk. -/
theorem tryMapAllTexts_eq_walkAll : ∀ nodes : List Node,
    tryMapAllTexts change nodes = unlessStopped (walkAll (changing change) () nodes)
  | [] => rfl
  | node :: nodes => by
    rw [tryMapAllTexts, tryMapTexts_eq_walk node, tryMapAllTexts_eq_walkAll nodes, walkAll]
    rcases walk (changing change) () node with ⟨after, state, _ | fault⟩
    · rcases hrest : walkAll (changing change) () nodes with ⟨rest, state', _ | fault⟩ <;>
        simp [hrest, unlessStopped, bind, Except.bind, pure, Except.pure]
    · rfl

end

end

end RefPages.Markup
