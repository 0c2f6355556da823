/-
Forests from which subtrees are deleted. A node is told together with the nodes above it, its place.
What is left after a deletion are the nodes at and above which nothing goes, in their order and under
the same nodes, and no other forest has these places.
-/
import RefPages.Markup.Node
import Mathlib.Tactic

namespace RefPages.Markup

/-- A node of a forest with the nodes above it, the nearest first. -/
abbrev Place := List Node

namespace Node

/-- The node without what is below it. -/
def bare (node : Node) : Node := node.withChildren []

@[simp] theorem withChildren_children (node : Node) : node.withChildren node.children = node := by
  cases node <;> rfl

@[simp] theorem bare_withChildren (node : Node) (below : List Node) : (node.withChildren below).bare = node.bare := by
  cases node <;> rfl

theorem preorder_eq (node : Node) : preorder node = node :: preorderAll node.children := by
  cases node <;> rfl

/-- A node is known by itself and what is below it. -/
theorem eq_of_bare {node other : Node} (hbare : node.bare = other.bare) (hchildren : node.children = other.children) :
    node = other := by
  rw [← withChildren_children node, ← withChildren_children other, hchildren]
  cases node <;> cases other <;> simp_all [bare, withChildren]

/-- Induction over forests: for a node before others, what is below it and what follows it. -/
theorem forest_induction {motive : List Node → Prop} (nil : motive [])
    (cons : ∀ node nodes, motive node.children → motive nodes → motive (node :: nodes)) :
    ∀ nodes, motive nodes
  | [] => nil
  | node :: nodes =>
    have : sizeOf node.children < sizeOf (node :: nodes) := by
      cases node <;> simp [children] <;> omega
    cons node nodes (forest_induction nil cons node.children) (forest_induction nil cons nodes)

/-! ## Places -/

mutual

/-- The places of a node under others and of what is below it, each before the places below it. -/
def placesOf (above : Place) : Node → List Place
  | heading level text children =>
    (heading level text children :: above) :: places (heading level text children :: above) children
  | item marker text children =>
    (item marker text children :: above) :: places (item marker text children :: above) children
  | leaf => [leaf :: above]

/-- The places of a forest under some nodes, each before the places below it. -/
def places (above : Place) : List Node → List Place
  | [] => []
  | node :: nodes => placesOf above node ++ places above nodes

end

theorem places_cons (above : Place) (node : Node) (nodes : List Node) :
    places above (node :: nodes) = (node :: above) :: places (node :: above) node.children ++ places above nodes := by
  cases node <;> simp [places, placesOf, children]

/-- The forest as the list of its places, each told by nodes without what is below them. -/
def outline (above : Place) (nodes : List Node) : List Place := (places above nodes).map (·.map bare)

theorem outline_nil (above : Place) : outline above [] = [] := rfl

theorem outline_cons (above : Place) (node : Node) (nodes : List Node) :
    outline above (node :: nodes) =
      (node.bare :: above.map bare) :: outline (node :: above) node.children ++ outline above nodes := by
  simp [outline, places_cons]

/-- All places are below the nodes that the forest is under. -/
theorem lt_length_of_mem_outline {above place : Place} {nodes : List Node} (h : place ∈ outline above nodes) :
    above.length < place.length := by
  induction nodes using forest_induction generalizing above with
  | nil => cases h
  | cons node nodes ihbelow ihrest =>
    rw [outline_cons, List.cons_append, List.mem_cons, List.mem_append] at h
    rcases h with rfl | h | h
    · simp
    · exact lt_trans (Nat.lt_succ_self _) (ihbelow h)
    · exact ihrest h

/-- The first place of a forest is right below the nodes that it is under. -/
theorem length_of_head?_outline {above place : Place} {nodes : List Node} (h : place ∈ (outline above nodes).head?) :
    place.length = above.length + 1 := by
  cases nodes with
  | nil => cases h
  | cons node nodes =>
    rw [outline_cons] at h
    cases h
    simp

/-- What comes before the first element that fails a test and what comes after it are known from both together. -/
theorem append_inj_of_takeWhile {α : Type} {p : α → Bool} {as bs as' bs' : List α} (has : ∀ a ∈ as, p a = true)
    (has' : ∀ a ∈ as', p a = true) (hbs : ∀ b ∈ bs.head?, p b = false) (hbs' : ∀ b ∈ bs'.head?, p b = false)
    (h : as ++ bs = as' ++ bs') : as = as' ∧ bs = bs' := by
  have hnone : ∀ {cs : List α}, (∀ c ∈ cs.head?, p c = false) → cs.takeWhile p = [] := fun {cs} hcs => by
    cases cs with
    | nil => rfl
    | cons c cs => simp [hcs c rfl]
  have hwhole := congrArg (List.takeWhile p) h
  rw [List.takeWhile_append_of_pos has, List.takeWhile_append_of_pos has', hnone hbs, hnone hbs', List.append_nil,
    List.append_nil] at hwhole
  subst hwhole
  exact ⟨rfl, List.append_cancel_left h⟩

/-- No two forests have the same outline. -/
theorem eq_of_outline {above above' : Place} (habove : above.length = above'.length) {nodes nodes' : List Node}
    (h : outline above nodes = outline above' nodes') : nodes = nodes' := by
  induction nodes using forest_induction generalizing above above' nodes' with
  | nil =>
    cases nodes' with
    | nil => rfl
    | cons node nodes => simp [outline_nil, outline_cons] at h
  | cons node nodes ihbelow ihrest =>
    cases nodes' with
    | nil => simp [outline_nil, outline_cons] at h
    | cons node' nodes' =>
      rw [outline_cons, outline_cons, List.cons_append, List.cons_append, List.cons.injEq, List.cons.injEq] at h
      obtain ⟨⟨hbare, -⟩, h⟩ := h
      -- the places below the first node are the longer ones up to the first that is not
      have hlength : (node :: above).length = (node' :: above').length := by simp [habove]
      have hbelow : outline (node :: above) node.children = outline (node' :: above') node'.children ∧
          outline above nodes = outline above' nodes' := by
        refine append_inj_of_takeWhile (p := fun place => above.length + 1 < place.length) ?_ ?_ ?_ ?_ h
        · intro place hplace
          exact decide_eq_true (lt_length_of_mem_outline hplace)
        · intro place hplace
          have := lt_length_of_mem_outline hplace
          rw [← hlength] at this
          exact decide_eq_true this
        · intro place hplace
          simp [length_of_head?_outline hplace]
        · intro place hplace
          simp [length_of_head?_outline hplace, habove]
      rw [eq_of_bare hbare (ihbelow hlength hbelow.1), ihrest habove hbelow.2]

end Node

/-! ## Deleting -/

mutual

/-- The node under others without the subtrees whose place goes; none when its own place goes. -/
def delete? (goes : Place → Bool) (above : Place) : Node → Option Node
  | .heading level text children =>
    if goes (.heading level text children :: above) then none
    else some (.heading level text (delete goes (.heading level text children :: above) children))
  | .item marker text children =>
    if goes (.item marker text children :: above) then none
    else some (.item marker text (delete goes (.item marker text children :: above) children))
  | leaf => if goes (leaf :: above) then none else some leaf

/-- The forest under some nodes without the subtrees whose place goes. -/
def delete (goes : Place → Bool) (above : Place) : List Node → List Node
  | [] => []
  | node :: nodes => (delete? goes above node).toList ++ delete goes above nodes

end

/-- Whether neither a place nor one above it goes. -/
def stays (goes : Place → Bool) : Place → Bool
  | [] => true
  | node :: above => !goes (node :: above) && stays goes above

section

variable {goes : Place → Bool} {above above' : Place}

theorem delete?_eq (goes : Place → Bool) (above : Place) (node : Node) :
    delete? goes above node =
      if goes (node :: above) then none
      else some (node.withChildren (delete goes (node :: above) node.children)) := by
  cases node <;> rfl

theorem children_delete (goes : Place → Bool) (above : Place) (node : Node) :
    (node.withChildren (delete goes above node.children)).children = delete goes above node.children := by
  cases node <;> rfl

open Node

/-- Nothing stays below a place that does not. -/
theorem filter_places_of_not_stays (h : stays goes above = false) (nodes : List Node) :
    (places above nodes).filter (stays goes) = [] := by
  induction nodes using forest_induction generalizing above with
  | nil => rfl
  | cons node nodes ihbelow ihrest =>
    have hplace : stays goes (node :: above) = false := by rw [stays, h, Bool.and_false]
    rw [places_cons, List.cons_append, List.filter_cons_of_neg (by rw [hplace]; exact Bool.false_ne_true),
      List.filter_append, ihbelow hplace, ihrest h, List.nil_append]

/-- What is left of a forest are the places that stay, in their order and each under the same nodes. -/
theorem outline_delete (habove : stays goes above = true) (hsame : above'.map bare = above.map bare)
    (nodes : List Node) :
    outline above' (delete goes above nodes) = ((places above nodes).filter (stays goes)).map (·.map bare) := by
  induction nodes using forest_induction generalizing above above' with
  | nil => rfl
  | cons node nodes ihbelow ihrest =>
    rw [delete, delete?_eq, places_cons, List.cons_append, List.filter_cons, stays, habove, Bool.and_true]
    by_cases hgoes : goes (node :: above) = true
    · have hplace : stays goes (node :: above) = false := by rw [stays, hgoes, Bool.not_true, Bool.false_and]
      rw [if_pos hgoes, hgoes, Bool.not_true, if_neg Bool.false_ne_true, List.filter_append,
        filter_places_of_not_stays hplace, Option.toList_none, List.nil_append, List.nil_append, ihrest habove hsame]
    · have hplace : stays goes (node :: above) = true := by
        rw [stays, habove, Bool.eq_false_of_not_eq_true hgoes]
        rfl
      have hbelow := ihbelow hplace
        (show ((node.withChildren (delete goes (node :: above) node.children)) :: above').map bare = _ by
          rw [List.map_cons, List.map_cons, bare_withChildren, hsame])
      rw [if_neg hgoes, Option.toList_some, List.singleton_append, outline_cons, children_delete, hbelow,
        bare_withChildren, hsame, ihrest habove hsame, Bool.eq_false_of_not_eq_true hgoes, Bool.not_false, if_pos rfl,
        List.filter_append, List.map_cons, List.map_append, List.map_cons, List.cons_append]

end

end RefPages.Markup
