/-
The parent of every node of a document, told from the items before it alone: for a heading the
nearest heading with fewer signs, for anything else the nearest list item that all since is deeper
than, or the last heading. A walk over the forest meets the items in their order.
-/
import RefPages.Proofs.Markup.Items
import RefPages.Proofs.Markup.Nesting

namespace RefPages.Markup

/-! ## Walks with parents -/

namespace Node

mutual

/-- For each node of a walk over a node, the place in the whole walk of the node it is under;
`position` is the place of the first and `parent` that of its parent. -/
def parents (parent : Option Nat) (position : Nat) : Node → List (Option Nat)
  | heading _ _ children => parent :: parentsAll (some position) (position + 1) children
  | item _ _ children => parent :: parentsAll (some position) (position + 1) children
  | _ => [parent]

/-- For each node of a walk over a forest, the place in the whole walk of the node it is under. -/
def parentsAll (parent : Option Nat) (position : Nat) : List Node → List (Option Nat)
  | [] => []
  | node :: nodes =>
    parents parent position node ++ parentsAll parent (position + (preorder node).length) nodes

end

/-- A place in a walk that follows `offset` other nodes, or else `parent`. -/
def placeAfter (offset : Nat) (parent : Option Nat) : Option Nat → Option Nat
  | some j => some (offset + j)
  | none => parent

@[simp] theorem placeAfter_none (offset : Nat) (parent : Option Nat) :
    placeAfter offset parent none = parent := rfl

@[simp] theorem placeAfter_some (offset j : Nat) (parent : Option Nat) :
    placeAfter offset parent (some j) = some (offset + j) := rfl

theorem placeAfter_comp (m n : Nat) (p q : Option Nat) :
    placeAfter m p ∘ placeAfter n q = placeAfter (m + n) (placeAfter m p q) := by
  funext r
  cases r <;> simp [Nat.add_assoc]

mutual

theorem length_parents (parent : Option Nat) (position : Nat) :
    ∀ node : Node, (parents parent position node).length = (preorder node).length
  | heading _ _ children => by simp [parents, preorder, length_parentsAll _ _ children]
  | item _ _ children => by simp [parents, preorder, length_parentsAll _ _ children]
  | code .. | note .. | properties _ | paragraph _ => rfl

theorem length_parentsAll (parent : Option Nat) (position : Nat) :
    ∀ nodes : List Node, (parentsAll parent position nodes).length = (preorderAll nodes).length
  | [] => rfl
  | node :: nodes => by
    simp [parentsAll, preorderAll, length_parents _ _ node, length_parentsAll _ _ nodes]

end

mutual

/-- Parents are counted from the beginning of the walk. -/
theorem parents_eq_map (parent : Option Nat) (position : Nat) :
    ∀ node : Node,
      parents parent position node = (parents none 0 node).map (placeAfter position parent)
  | heading _ _ children => by
    rw [parents, parents, parentsAll_eq_map _ _ children, parentsAll_eq_map _ (0 + 1) children]
    simp [placeAfter_comp]
  | item _ _ children => by
    rw [parents, parents, parentsAll_eq_map _ _ children, parentsAll_eq_map _ (0 + 1) children]
    simp [placeAfter_comp]
  | code .. | note .. | properties _ | paragraph _ => rfl

theorem parentsAll_eq_map (parent : Option Nat) (position : Nat) :
    ∀ nodes : List Node,
      parentsAll parent position nodes =
        (parentsAll none 0 nodes).map (placeAfter position parent)
  | [] => rfl
  | node :: nodes => by
    rw [parentsAll, parentsAll, parents_eq_map _ _ node, parentsAll_eq_map _ _ nodes,
      parentsAll_eq_map none (0 + _) nodes]
    simp [placeAfter_comp]

end

end Node

/-! ## The parent of an item -/

/-- The last place before `bound` at which something holds, if there is one. -/
def Nearest (P : Nat → Prop) (bound : Nat) : Option Nat → Prop
  | some j => j < bound ∧ P j ∧ ∀ k, j < k → k < bound → ¬ P k
  | none => ∀ k < bound, ¬ P k

/-- Whether there is a heading at a place. -/
def IsHeading (items : List Entry) (j : Nat) : Prop :=
  ∃ level text, items[j]? = some (.heading level text)

/-- Whether there is a heading with fewer signs than `level` at a place. -/
def IsHigher (items : List Entry) (level : Nat) (j : Nat) : Prop :=
  ∃ other text, items[j]? = some (.heading other text) ∧ other < level

/-- Whether there is a list item at `j` with no heading after it up to `i`, but only what has more
indentation. -/
def Encloses (items : List Entry) (i j : Nat) : Prop :=
  ∃ indent marker text below, items[j]? = some (.block indent (.item marker text below)) ∧
    ∀ k, j < k → k ≤ i → ∃ deeper node, items[k]? = some (.block deeper node) ∧ indent < deeper

/-- What the parent of the item at `i` is, of those before `bound`. -/
def ParentBefore (items : List Entry) (bound i : Nat) (parent : Option Nat) : Prop :=
  match items[i]? with
  | some (.heading level _) => Nearest (IsHigher items level) bound parent
  | some (.block ..) =>
    (parent ≠ none ∧ Nearest (Encloses items i) bound parent) ∨
      (Nearest (Encloses items i) bound none ∧ Nearest (IsHeading items) bound parent)
  | none => False

/-- What the parent of the item at `i` is: of a heading the nearest heading with fewer signs, of
anything else the nearest list item that encloses it or, when there is none, the last heading. -/
def IsParent (items : List Entry) (i : Nat) (parent : Option Nat) : Prop :=
  ParentBefore items i i parent

theorem nearest_unique {P : Nat → Prop} {bound : Nat} {p q : Option Nat} (hp : Nearest P bound p)
    (hq : Nearest P bound q) : p = q := by
  cases p with
  | none =>
    cases q with
    | none => rfl
    | some k => exact absurd hq.2.1 (hp k hq.1)
  | some j =>
    cases q with
    | none => exact absurd hp.2.1 (hq j hp.1)
    | some k =>
      rcases Nat.lt_trichotomy j k with h | rfl | h
      · exact absurd hq.2.1 (hp.2.2 k h hq.1)
      · rfl
      · exact absurd hp.2.1 (hq.2.2 j h hp.1)

theorem isParent_unique {items : List Entry} {i : Nat} {p q : Option Nat}
    (hp : IsParent items i p) (hq : IsParent items i q) : p = q := by
  unfold IsParent ParentBefore at hp hq
  cases hi : items[i]? with
  | none =>
    rw [hi] at hp
    exact hp.elim
  | some e =>
    rw [hi] at hp hq
    cases e with
    | heading level text => exact nearest_unique hp hq
    | block indent node =>
      rcases hp with ⟨hne, hp⟩ | ⟨hnone, hp⟩ <;> rcases hq with ⟨hne', hq⟩ | ⟨hnone', hq⟩
      · exact nearest_unique hp hq
      · exact absurd (nearest_unique hp hnone') hne
      · exact absurd (nearest_unique hq hnone) hne'
      · exact nearest_unique hp hq

/-! ## Items before others -/

/-- The nearest place stays the nearest when it is moved along with all after it. -/
theorem nearest_moved {P Q : Nat → Prop} {offset i : Nat} {j : Nat}
    (hPQ : ∀ k < i, Q (offset + k) ↔ P k) (h : Nearest P i (some j)) :
    Nearest Q (offset + i) (some (offset + j)) := by
  obtain ⟨hj, hP, hafter⟩ := h
  refine ⟨by omega, (hPQ j hj).2 hP, fun k hjk hki hk => ?_⟩
  obtain ⟨m, rfl⟩ : ∃ m, k = offset + m := ⟨k - offset, by omega⟩
  exact hafter m (by omega) (by omega) ((hPQ m (by omega)).1 hk)

/-- When there is no such place after `offset`, the nearest one before it counts. -/
theorem nearest_before {P Q : Nat → Prop} {offset i : Nat} {p : Option Nat}
    (hPQ : ∀ k < i, Q (offset + k) ↔ P k) (hnone : Nearest P i none) (h : Nearest Q offset p) :
    Nearest Q (offset + i) p := by
  have hlate : ∀ k, offset ≤ k → k < offset + i → ¬ Q k := fun k hk hki hQ => by
    obtain ⟨m, rfl⟩ : ∃ m, k = offset + m := ⟨k - offset, by omega⟩
    exact hnone m (by omega) ((hPQ m (by omega)).1 hQ)
  cases p with
  | none =>
    intro k hk
    rcases Nat.lt_or_ge k offset with hlt | hge
    · exact h k hlt
    · exact hlate k hge hk
  | some j =>
    obtain ⟨hj, hQ, hafter⟩ := h
    refine ⟨by omega, hQ, fun k hjk hki => ?_⟩
    rcases Nat.lt_or_ge k offset with hlt | hge
    · exact hafter k hjk hlt
    · exact hlate k hge hki

section

variable {all items : List Entry} {offset i : Nat}

/-- Whether the items of a list follow `offset` others in another list, up to the one at `i`. -/
def Follows (all items : List Entry) (offset i : Nat) : Prop :=
  ∀ k ≤ i, all[offset + k]? = items[k]?

theorem encloses_moved (h : Follows all items offset i) (k : Nat) (hk : k < i) :
    Encloses all (offset + i) (offset + k) ↔ Encloses items i k := by
  unfold Encloses
  rw [h k (by omega)]
  constructor
  · rintro ⟨indent, marker, text, below, hitem, hdeep⟩
    refine ⟨indent, marker, text, below, hitem, fun m hkm hmi => ?_⟩
    have := hdeep (offset + m) (by omega) (by omega)
    rwa [h m hmi] at this
  · rintro ⟨indent, marker, text, below, hitem, hdeep⟩
    refine ⟨indent, marker, text, below, hitem, fun m hkm hmi => ?_⟩
    obtain ⟨n, rfl⟩ : ∃ n, m = offset + n := ⟨m - offset, by omega⟩
    rw [h n (by omega)]
    exact hdeep n (by omega) (by omega)

theorem isHeading_moved (h : Follows all items offset i) (k : Nat) (hk : k < i) :
    IsHeading all (offset + k) ↔ IsHeading items k := by
  unfold IsHeading
  rw [h k (by omega)]

theorem isHigher_moved (h : Follows all items offset i) (level k : Nat) (hk : k < i) :
    IsHigher all level (offset + k) ↔ IsHigher items level k := by
  unfold IsHigher
  rw [h k (by omega)]

/-- An item with a parent keeps it when its list follows others. -/
theorem isParent_moved (h : Follows all items offset i) {j : Nat}
    (hj : IsParent items i (some j)) : IsParent all (offset + i) (some (offset + j)) := by
  unfold IsParent ParentBefore at hj ⊢
  rw [h i le_rfl]
  cases hi : items[i]? with
  | none =>
    rw [hi] at hj
    exact hj.elim
  | some e =>
    rw [hi] at hj
    cases e with
    | heading level text => exact nearest_moved (isHigher_moved h level) hj
    | block indent node =>
      rcases hj with ⟨-, hj⟩ | ⟨hnone, hj⟩
      · exact .inl ⟨by simp, nearest_moved (encloses_moved h) hj⟩
      · refine .inr ⟨nearest_before (encloses_moved h) hnone fun k hk hencl => ?_,
          nearest_moved (isHeading_moved h) hj⟩
        -- nothing before the heading encloses what follows it
        obtain ⟨_, _, _, _, -, hdeep⟩ := hencl
        obtain ⟨level, text, hheading⟩ := (isHeading_moved h j hj.1).2 hj.2.1
        have hj' := hj.1
        obtain ⟨_, _, hblock, -⟩ := hdeep (offset + j) (by omega) (by omega)
        rw [hheading] at hblock
        cases hblock

/-- An item without a parent gets the one that it has among the items before its list. -/
theorem isParent_before (h : Follows all items offset i) {parent : Option Nat}
    (hnone : IsParent items i none) (hbefore : ParentBefore all offset (offset + i) parent) :
    IsParent all (offset + i) parent := by
  unfold IsParent ParentBefore at *
  rw [h i le_rfl] at *
  cases hi : items[i]? with
  | none =>
    rw [hi] at hnone
    exact hnone.elim
  | some e =>
    rw [hi] at hnone hbefore
    cases e with
    | heading level text => exact nearest_before (isHigher_moved h level) hnone hbefore
    | block indent node =>
      have hencl : Nearest (Encloses items i) i none := by
        rcases hnone with ⟨hne, -⟩ | ⟨hencl, -⟩
        · exact absurd rfl hne
        · exact hencl
      have hheading : Nearest (IsHeading items) i none := by
        rcases hnone with ⟨hne, -⟩ | ⟨-, hheading⟩
        · exact absurd rfl hne
        · exact hheading
      rcases hbefore with ⟨hne, hbefore⟩ | ⟨hnone', hbefore⟩
      · exact .inl ⟨hne, nearest_before (encloses_moved h) hencl hbefore⟩
      · exact .inr ⟨nearest_before (encloses_moved h) hencl hnone',
          nearest_before (isHeading_moved h) hheading hbefore⟩

end

/-! ## Items under an entry and after it -/

/-- What an entry holds is under it when it has no other parent. -/
theorem parentBefore_of_held {e : Entry} {es tail : List Entry} (hheld : ∀ a ∈ es, e.holds a = true)
    {i : Nat} (hi : i < es.length) :
    ParentBefore (e :: es ++ tail) 1 (1 + i) (some 0) := by
  have hget : ∀ k, 0 < k → k ≤ 1 + i → ∃ a ∈ es, (e :: es ++ tail)[k]? = some a := fun k hk hki => by
    obtain ⟨m, rfl⟩ : ∃ m, k = m + 1 := ⟨k - 1, by omega⟩
    have hm : m < es.length := by omega
    refine ⟨es[m], List.getElem_mem hm, ?_⟩
    rw [List.cons_append, List.getElem?_cons_succ, List.getElem?_append_left hm,
      List.getElem?_eq_getElem hm]
  obtain ⟨a, ha, hia⟩ := hget (1 + i) (by omega) le_rfl
  have hholds := hheld a ha
  unfold ParentBefore
  rw [hia]
  cases e with
  | heading level text =>
    have hencl : Nearest (Encloses (.heading level text :: es ++ tail) (1 + i)) 1 none := by
      rintro k hk ⟨_, _, _, _, hitem, -⟩
      obtain rfl : k = 0 := by omega
      cases hitem
    have hheading : Nearest (IsHeading (.heading level text :: es ++ tail)) 1 (some 0) :=
      ⟨Nat.one_pos, ⟨level, text, rfl⟩, fun k _ _ => by omega⟩
    cases a with
    | heading other text' =>
      have hlt : level < other := by simpa [Entry.holds] using hholds
      exact ⟨Nat.one_pos, ⟨level, text, rfl, hlt⟩, fun k _ _ => by omega⟩
    | block => exact .inr ⟨hencl, hheading⟩
  | block indent node =>
    cases node with
    | item marker text below =>
      cases a with
      | heading => simp [Entry.holds] at hholds
      | block =>
        refine .inl ⟨by simp, Nat.one_pos, ⟨indent, marker, text, below, rfl, fun k hk hki => ?_⟩,
          fun k _ _ => by omega⟩
        obtain ⟨b, hb, hkb⟩ := hget k hk hki
        have := hheld b hb
        cases b with
        | heading => simp [Entry.holds] at this
        | block deeper node => exact ⟨deeper, node, hkb, by simpa [Entry.holds] using this⟩
    | _ => simp [Entry.holds] at hholds

/-- The entry itself or one that it holds. -/
def Entry.Leads (e a : Entry) : Prop := a = e ∨ e.holds a = true

/-- Only a heading leads headings, none of them with fewer signs. -/
theorem leads_heading {e : Entry} {other : Nat} {text : String} (h : e.Leads (.heading other text)) :
    ∃ outer outerText, e = .heading outer outerText ∧ outer ≤ other := by
  cases e with
  | heading outer outerText =>
    rcases h with h | h
    · cases h
      exact ⟨other, text, rfl, le_rfl⟩
    · exact ⟨outer, outerText, rfl, Nat.le_of_lt (by simpa [Entry.holds] using h)⟩
  | block own node =>
    rcases h with h | h
    · cases h
    · cases node <;> simp [Entry.holds] at h

/-- Of the blocks only a list item leads other ones, none of them with less indentation. -/
theorem leads_item {own outer : Nat} {node : Node} {marker : Marker} {text : String} {below : List Node}
    (h : (Entry.block own node).Leads (.block outer (.item marker text below))) :
    own ≤ outer ∧ ∃ marker text below, node = .item marker text below := by
  rcases h with h | h
  · cases h
    exact ⟨le_rfl, marker, text, below, rfl⟩
  · cases node with
    | item marker text below =>
      exact ⟨Nat.le_of_lt (by simpa [Entry.holds] using h), marker, text, below, rfl⟩
    | _ => simp [Entry.holds] at h

section

variable {e next : Entry} {es tail : List Entry}

theorem leads_of_lt (hheld : ∀ a ∈ es, e.holds a = true) {k : Nat} (hk : k < 1 + es.length) {a : Entry}
    (ha : (e :: es ++ next :: tail)[k]? = some a) : e.Leads a := by
  cases k with
  | zero =>
    cases ha
    exact .inl rfl
  | succ m =>
    have hm : m < es.length := by omega
    rw [List.cons_append, List.getElem?_cons_succ, List.getElem?_append_left hm,
      List.getElem?_eq_getElem hm] at ha
    cases ha
    exact .inr (hheld _ (List.getElem_mem hm))

theorem getElem?_after (k : Nat) :
    (e :: es ++ next :: tail)[1 + es.length + k]? = (next :: tail)[k]? := by
  rw [List.cons_append, show 1 + es.length + k = es.length + k + 1 by omega,
    List.getElem?_cons_succ, List.getElem?_append_right (by omega), Nat.add_sub_cancel_left]

/-- Where a heading among the entries has fewer signs than `level`, the next is such a heading. -/
theorem next_of_isHigher (hheld : ∀ a ∈ es, e.holds a = true) (hnext : e.holds next = false)
    {level k : Nat} (hk : k < 1 + es.length) (h : IsHigher (e :: es ++ next :: tail) level k) :
    ∃ first text, next = .heading first text ∧ first < level := by
  obtain ⟨other, text, hkey, hlt⟩ := h
  obtain ⟨outer, outerText, rfl, houter⟩ := leads_heading (leads_of_lt hheld hk hkey)
  cases next with
  | block => simp [Entry.holds] at hnext
  | heading first text =>
    have hfirst : first ≤ outer := by simpa [Entry.holds] using hnext
    exact ⟨first, text, rfl, by omega⟩

theorem next_of_isHeading (hheld : ∀ a ∈ es, e.holds a = true) (hnext : e.holds next = false)
    {k : Nat} (hk : k < 1 + es.length) (h : IsHeading (e :: es ++ next :: tail) k) :
    ∃ first text, next = .heading first text := by
  obtain ⟨level, text, hkey⟩ := h
  obtain ⟨first, text', hfirst, -⟩ :=
    next_of_isHigher hheld hnext hk ⟨level, text, hkey, Nat.lt_succ_self level⟩
  exact ⟨first, text', hfirst⟩

/-- No list item among the entries encloses what comes after them. -/
theorem not_encloses_after (hheld : ∀ a ∈ es, e.holds a = true) (hnext : e.holds next = false)
    {i k : Nat} (hk : k < 1 + es.length) :
    ¬ Encloses (e :: es ++ next :: tail) (1 + es.length + i) k := by
  rintro ⟨outer, marker, text, below, hkey, hdeep⟩
  obtain ⟨deeper, inner, hfirst, hlt⟩ := hdeep (1 + es.length) hk (Nat.le_add_right _ _)
  have hafter : (e :: es ++ next :: tail)[1 + es.length]? = some next := getElem?_after 0
  rw [hafter] at hfirst
  cases hfirst
  have hleads := leads_of_lt hheld hk hkey
  cases e with
  | heading => simp [Entry.holds] at hnext
  | block own node =>
    obtain ⟨hown, _, _, _, rfl⟩ := leads_item hleads
    have hle : deeper ≤ own := by simpa [Entry.holds] using hnext
    omega

/-- What follows the entries that another holds is not under any of them. -/
theorem parentBefore_of_not_held (hheld : ∀ a ∈ es, e.holds a = true) (hnext : e.holds next = false)
    {i : Nat} (hi : IsParent (next :: tail) i none) :
    ParentBefore (e :: es ++ next :: tail) (1 + es.length) (1 + es.length + i) none := by
  unfold IsParent ParentBefore at hi
  unfold ParentBefore
  rw [getElem?_after i]
  cases hitem : (next :: tail)[i]? with
  | none =>
    rw [hitem] at hi
    exact hi.elim
  | some a =>
    rw [hitem] at hi
    cases a with
    | heading level text =>
      intro k hk hhigher
      obtain ⟨first, text', rfl, hlt⟩ := next_of_isHigher hheld hnext hk hhigher
      cases i with
      | zero =>
        cases hitem
        exact absurd hlt (lt_irrefl _)
      | succ i => exact hi 0 (Nat.succ_pos i) ⟨first, text', rfl, hlt⟩
    | block indent node =>
      obtain ⟨-, hheading⟩ : Nearest (Encloses (next :: tail) i) i none ∧
          Nearest (IsHeading (next :: tail)) i none := hi.resolve_left fun h => h.1 rfl
      refine .inr ⟨fun k hk => not_encloses_after hheld hnext hk, fun k hk hkey => ?_⟩
      -- a heading is never the first to follow, as it would be the parent
      obtain ⟨first, text, rfl⟩ := next_of_isHeading hheld hnext hk hkey
      cases i with
      | zero => cases hitem
      | succ i => exact hheading 0 (Nat.succ_pos i) ⟨first, text, rfl⟩

end

/-! ## Walks over nested entries -/

/-- The node of an entry. -/
def Entry.node : Entry → Node
  | .heading level text => .heading level text []
  | .block _ node => node

/-- Whether the node of an entry has no nodes under it and is a heading only if the entry is. -/
def Entry.Bare : Entry → Prop
  | .heading .. => True
  | .block _ node => node.isHeading = false ∧ node.children = []

/-- A walk over an entry with nodes under it begins with the entry and goes on with them. -/
theorem walk_over {e : Entry} {below : List Node} (hbare : e.Bare)
    (hbelow : below ≠ [] → ∃ a, e.holds a = true) :
    (e.over below).preorder = e.over below :: Node.preorderAll below ∧
      (∀ parent position, (e.over below).parents parent position =
        parent :: Node.parentsAll (some position) (position + 1) below) ∧
      (e.over below).withChildren [] = e.node := by
  cases e with
  | heading level text => exact ⟨rfl, fun _ _ => rfl, rfl⟩
  | block indent node =>
    obtain ⟨hheading, hchildren⟩ := hbare
    cases node with
    | heading => simp [Node.isHeading] at hheading
    | item marker text children =>
      obtain rfl : children = [] := hchildren
      exact ⟨rfl, fun _ _ => rfl, rfl⟩
    | _ =>
      -- a leaf holds nothing
      obtain rfl : below = [] := by
        by_contra hne
        obtain ⟨a, ha⟩ := hbelow hne
        simp [Entry.holds] at ha
      exact ⟨rfl, fun _ _ => rfl, rfl⟩

theorem exists_holds_of_nest (e : Entry) (es : List Entry)
    (h : nest (es.takeWhile e.holds) ≠ []) : ∃ a, e.holds a = true := by
  cases hes : es.takeWhile e.holds with
  | nil =>
    rw [hes] at h
    exact absurd rfl h
  | cons a _ =>
    refine ⟨a, List.mem_takeWhile_imp (l := es) ?_⟩
    rw [hes]
    exact List.mem_cons_self

/-- A walk over nested entries meets them in their order. -/
theorem preorderAll_nest (es : List Entry) (hbare : ∀ e ∈ es, e.Bare) :
    (Node.preorderAll (nest es)).map (Node.withChildren []) = es.map Entry.node := by
  induction es using nest_induction with
  | nil => rfl
  | cons e es ihheld ihrest =>
    obtain ⟨hwalk, -, hnode⟩ := walk_over (hbare e List.mem_cons_self) (exists_holds_of_nest e es)
    have hes : ∀ a ∈ es, a.Bare := fun a ha => hbare a (List.mem_cons_of_mem _ ha)
    rw [nest_cons, Node.preorderAll, hwalk]
    simp only [List.cons_append, List.map_cons, List.map_append, hnode]
    rw [ihheld fun a ha => hes a ((List.takeWhile_sublist _).mem ha),
      ihrest fun a ha => hes a ((List.dropWhile_sublist _).mem ha), ← List.map_append,
      List.takeWhile_append_dropWhile]

theorem length_preorderAll_nest {es : List Entry} (hbare : ∀ e ∈ es, e.Bare) :
    (Node.preorderAll (nest es)).length = es.length := by
  simpa using congrArg List.length (preorderAll_nest es hbare)

/-- Nothing comes before the first entry. -/
theorem isParent_first (e : Entry) (es : List Entry) : IsParent (e :: es) 0 none := by
  have hnone : ∀ P, Nearest P 0 none := fun P k hk => absurd hk (Nat.not_lt_zero k)
  unfold IsParent ParentBefore
  cases e with
  | heading => exact hnone _
  | block => exact .inr ⟨hnone _, hnone _⟩

section

variable {e : Entry} {held rest : List Entry} (hheld : ∀ a ∈ held, e.holds a = true)

include hheld

/-- What an entry holds has its own parent there or is under the entry. -/
theorem isParent_held {m : Nat} (hm : m < held.length) {parent : Option Nat}
    (h : IsParent held m parent) :
    IsParent (e :: (held ++ rest)) (1 + m) (Node.placeAfter 1 (some 0) parent) := by
  have hfollows : Follows (e :: (held ++ rest)) held 1 m := fun k hk => by
    rw [Nat.add_comm, List.getElem?_cons_succ, List.getElem?_append_left (by omega)]
  cases parent with
  | some j => exact isParent_moved hfollows h
  | none => exact isParent_before hfollows h (parentBefore_of_held hheld hm)

/-- What comes after has its own parent there or none. -/
theorem isParent_rest (hnext : ∀ a ∈ rest.head?, e.holds a = false) {n : Nat} (hn : n < rest.length)
    {parent : Option Nat} (h : IsParent rest n parent) :
    IsParent (e :: (held ++ rest)) (1 + held.length + n)
      (Node.placeAfter (1 + held.length) none parent) := by
  have hfollows : Follows (e :: (held ++ rest)) rest (1 + held.length) n := fun k _ => by
    rw [show 1 + held.length + k = held.length + k + 1 by omega, List.getElem?_cons_succ,
      List.getElem?_append_right (by omega), Nat.add_sub_cancel_left]
  cases parent with
  | some j => exact isParent_moved hfollows h
  | none =>
    cases rest with
    | nil => exact absurd hn (Nat.not_lt_zero n)
    | cons next tail =>
      exact isParent_before hfollows h (parentBefore_of_not_held hheld (hnext next rfl) h)

end

/-- The parents in a nested entry: those of what it holds, then those of what comes after. -/
theorem parentsAll_over {e : Entry} {held rest : List Entry} (hbare : e.Bare)
    (hbareHeld : ∀ a ∈ held, a.Bare) (hsome : nest held ≠ [] → ∃ a, e.holds a = true) :
    Node.parentsAll none 0 (e.over (nest held) :: nest rest) =
      none :: ((Node.parentsAll none 0 (nest held)).map (Node.placeAfter 1 (some 0)) ++
        (Node.parentsAll none 0 (nest rest)).map (Node.placeAfter (1 + held.length) none)) := by
  obtain ⟨hwalk, hparents, -⟩ := walk_over hbare hsome
  rw [Node.parentsAll, hparents, hwalk, List.length_cons, length_preorderAll_nest hbareHeld,
    Node.parentsAll_eq_map (some 0), Node.parentsAll_eq_map none (0 + _)]
  simp [Nat.add_comm]

/-- The parent of every node of nested entries is the one that the entries before it give. -/
theorem parentsAll_nest (es : List Entry) (hbare : ∀ e ∈ es, e.Bare) :
    ∀ i < es.length, ∃ parent, (Node.parentsAll none 0 (nest es))[i]? = some parent ∧
      IsParent es i parent := by
  induction es using nest_induction with
  | nil => simp
  | cons e es ihheld ihrest =>
    have hes : ∀ a ∈ es, a.Bare := fun a ha => hbare a (List.mem_cons_of_mem _ ha)
    have hsome := exists_holds_of_nest e es
    have hsplit := List.takeWhile_append_dropWhile (p := e.holds) (l := es)
    have hheld : ∀ a ∈ es.takeWhile e.holds, e.holds a = true := fun a ha =>
      List.mem_takeWhile_imp ha
    have hnext : ∀ a ∈ (es.dropWhile e.holds).head?, e.holds a = false := fun a ha => by
      simpa [Option.mem_def.1 ha] using List.head?_dropWhile_not e.holds es
    rw [nest_cons]
    generalize es.takeWhile e.holds = held at *
    generalize es.dropWhile e.holds = rest at *
    subst hsplit
    have hbareHeld : ∀ a ∈ held, a.Bare := fun a ha => hes a (List.mem_append_left _ ha)
    have hbareRest : ∀ a ∈ rest, a.Bare := fun a ha => hes a (List.mem_append_right _ ha)
    have hlen : (Node.parentsAll none 0 (nest held)).length = held.length := by
      rw [Node.length_parentsAll, length_preorderAll_nest hbareHeld]
    rw [parentsAll_over (hbare e List.mem_cons_self) hbareHeld hsome]
    intro i hi
    rw [List.length_cons, List.length_append] at hi
    rcases Nat.eq_zero_or_pos i with rfl | hpos
    · exact ⟨none, rfl, isParent_first e _⟩
    · obtain ⟨m, rfl⟩ : ∃ m, i = m + 1 := ⟨i - 1, by omega⟩
      rw [List.getElem?_cons_succ, Nat.add_comm m 1]
      rcases Nat.lt_or_ge m held.length with hm | hm
      · obtain ⟨parent, hget, hparent⟩ := ihheld hbareHeld m hm
        rw [List.getElem?_append_left (by simpa [hlen] using hm), List.getElem?_map, hget]
        exact ⟨_, rfl, isParent_held hheld hm hparent⟩
      · obtain ⟨n, rfl⟩ : ∃ n, m = held.length + n := ⟨m - held.length, by omega⟩
        obtain ⟨parent, hget, hparent⟩ := ihrest hbareRest n (by omega)
        rw [List.getElem?_append_right (by simp [hlen]), List.length_map, hlen,
          Nat.add_sub_cancel_left, List.getElem?_map, hget, ← Nat.add_assoc]
        exact ⟨_, rfl, isParent_rest hheld hnext (by omega) hparent⟩

/-! ## Documents -/

theorem bare_lineNode (content : List Char) :
    (lineNode content).isHeading = false ∧ (lineNode content).children = [] := by
  unfold lineNode
  repeat' split
  all_goals exact ⟨rfl, rfl⟩

theorem bare_of_items {lines : List (List Char)} {items : List Entry} (h : Items lines items) :
    ∀ e ∈ items, e.Bare := by
  induction h with
  | nil => simp
  | heading _ _ ih => simpa [Entry.Bare] using ih
  | line _ _ _ ih => simpa [Entry.Bare, bare_lineNode] using ih
  | @block _ _ _ inner _ block _ _ _ _ _ _ _ ih =>
    have hbare : (block.extend inner).entry.Bare := by
      unfold OpenBlock.entry OpenBlock.node
      cases (block.extend inner).kind <;> exact ⟨rfl, rfl⟩
    simpa [hbare] using ih

theorem isHeading_withChildren (new : List Node) (node : Node) :
    (node.withChildren new).isHeading = node.isHeading := by
  cases node <;> rfl

/-- What a list item holds are no headings. -/
theorem isHeading_nest {held : List Entry} (hbare : ∀ e ∈ held, e.Bare)
    (hblock : ∀ e ∈ held, ∃ indent node, e = .block indent node) :
    ∀ node ∈ Node.preorderAll (nest held), node.isHeading = false := by
  intro node hnode
  have hmem : node.withChildren [] ∈ held.map Entry.node := by
    rw [← preorderAll_nest held hbare]
    exact List.mem_map_of_mem hnode
  obtain ⟨e, he, heq⟩ := List.mem_map.1 hmem
  obtain ⟨indent, inner, rfl⟩ := hblock e he
  have hinner : inner.isHeading = false := (hbare _ he).1
  rwa [← isHeading_withChildren [] node, ← heq]

/-- Below a list item there are no headings. -/
theorem isHeading_below_item (es : List Entry) (hbare : ∀ e ∈ es, e.Bare) :
    ∀ marker text below, .item marker text below ∈ Node.preorderAll (nest es) →
      ∀ node ∈ Node.preorderAll below, node.isHeading = false := by
  induction es using nest_induction with
  | nil =>
    intro marker text below hitem
    simp [nest_eq, Section.nodes, Node.preorderAll] at hitem
  | cons e es ihheld ihrest =>
    intro marker text below hitem
    obtain ⟨hwalk, -, -⟩ := walk_over (hbare e List.mem_cons_self) (exists_holds_of_nest e es)
    have hes : ∀ a ∈ es, a.Bare := fun a ha => hbare a (List.mem_cons_of_mem _ ha)
    have hheld : ∀ a ∈ es.takeWhile e.holds, a.Bare := fun a ha =>
      hes a ((List.takeWhile_sublist _).mem ha)
    rw [nest_cons, Node.preorderAll, hwalk, List.cons_append, List.mem_cons, List.mem_append] at hitem
    rcases hitem with hitem | hitem | hitem
    · -- the item is the entry itself, which holds only what has more indentation
      refine (?_ : ∀ node ∈ Node.preorderAll below, node.isHeading = false)
      cases e with
      | heading => cases hitem
      | block indent node =>
        cases node with
        | item =>
          cases hitem
          refine isHeading_nest hheld fun a ha => ?_
          have := List.mem_takeWhile_imp ha
          cases a with
          | heading => simp [Entry.holds] at this
          | block other inner => exact ⟨other, inner, rfl⟩
        | _ => cases hitem
    · exact ihheld hheld marker text below hitem
    · exact ihrest (fun a ha => hes a ((List.dropWhile_sublist _).mem ha)) marker text below hitem

/-- A forest that has the items of a document, in order, each under its parent. -/
structure NestedAs (items : List Entry) (nodes : List Node) : Prop where
  /-- A walk meets exactly the items. -/
  walk : (Node.preorderAll nodes).map (Node.withChildren []) = items.map Entry.node
  parent : ∀ i < items.length, ∀ parent,
    (Node.parentsAll none 0 nodes)[i]? = some parent ↔ IsParent items i parent
  holder : ∀ node ∈ Node.preorderAll nodes, node.children ≠ [] →
    node.isHeading = true ∨ ∃ marker text below, node = .item marker text below
  noHeading : ∀ marker text below, .item marker text below ∈ Node.preorderAll nodes →
    ∀ node ∈ Node.preorderAll below, node.isHeading = false

/-- A forest that is built from lines has exactly the headings, list items, paragraphs and blocks of
the lines, in their order, each under the parent that the items before it give. -/
theorem buildTree_nestedAs {lines : List String} {nodes : List Node}
    (h : buildTree lines = .ok nodes) :
    ∃ items, (∀ other, Items (lines.map String.toList) other ↔ other = items) ∧
      NestedAs items nodes := by
  obtain ⟨items, hentries, hnest⟩ := bind_eq_ok.1 h
  cases hnest
  have hbare := bare_of_items (entries_eq_ok_iff.1 hentries)
  refine ⟨items, fun other => ?_, preorderAll_nest items hbare, fun i hi parent => ?_,
    fun node _ hchildren => ?_, isHeading_below_item items hbare⟩
  · rw [← entries_eq_ok_iff, hentries, Except.ok.injEq, eq_comm]
  · obtain ⟨found, hget, hparent⟩ := parentsAll_nest items hbare i hi
    rw [hget, Option.some.injEq]
    constructor
    · rintro rfl
      exact hparent
    · intro hother
      exact isParent_unique hparent hother
  · cases node with
    | heading => exact .inl rfl
    | item marker text below => exact .inr ⟨marker, text, below, rfl⟩
    | _ => exact absurd rfl hchildren

/-- Less indented lines close list items, and headings close all of them. -/
theorem buildTree_nestedAs_mixed :
    let lines := ["# A", "- a", "    - b", "  c", "  ```js", "  x", "  ```", "- d", "### B", "## C", " e"]
    let nodes : List Node :=
      [.heading 1 "A" [.item .dash "a" [.item .dash "b" [], .paragraph "c", .code "js" ["x"]],
        .item .dash "d" [], .heading 3 "B" [], .heading 2 "C" [.paragraph "e"]]]
    buildTree lines = .ok nodes ∧
      ∃ items, (∀ other, Items (lines.map String.toList) other ↔ other = items) ∧
        NestedAs items nodes := by
  intro lines nodes
  have h : buildTree lines = .ok nodes := by rfl
  exact ⟨h, buildTree_nestedAs h⟩

end RefPages.Markup
