/-
How entries nest. An entry holds the entries that follow it up to the first that it does not
hold: `nest_cons` says so, and every other fact about nesting is an induction over that equation.
-/
import RefPages.Markup.Forest
import Mathlib.Data.List.TakeWhile
import Mathlib.Tactic

namespace RefPages.Markup

/-! ## What an entry holds -/

/-- Whether an entry goes under another that it follows, when all between them do. -/
def Entry.holds : Entry → Entry → Bool
  | .heading level _, .heading other _ => level < other
  | .heading .., .block .. => true
  | .block indent (.item ..), .block other _ => indent < other
  | .block .., _ => false

/-- The node of an entry with other nodes under it. -/
def Entry.over : Entry → List Node → Node
  | .heading level text, below => .heading level text below
  | .block _ (.item marker text _), below => .item marker text below
  | .block _ node, _ => node

theorem Entry.holds_trans {a b c : Entry} (hab : a.holds b = true) (hbc : b.holds c = true) :
    a.holds c = true := by
  cases a with
  | heading level text =>
    cases b <;> cases c <;> simp_all [holds]
    omega
  | block indent node =>
    cases node with
    | item marker text below =>
      cases b with
      | heading => simp [holds] at hab
      | block other inner =>
        cases inner <;> cases c <;> simp_all [holds]
        omega
    | _ => simp [holds] at hab

/-! ## Sections -/

/-- The section of a list of entries. -/
def sectionOf (entries : List Entry) : Section := entries.foldr Entry.attach ⟨[], []⟩

@[simp] theorem sectionOf_nil : sectionOf [] = ⟨[], []⟩ := rfl

@[simp] theorem sectionOf_cons (e : Entry) (es : List Entry) :
    sectionOf (e :: es) = e.attach (sectionOf es) := rfl

theorem nest_eq (entries : List Entry) : nest entries = (sectionOf entries).nodes := rfl

/-- Two sections one after the other. -/
def Section.append (first second : Section) : Section :=
  ⟨first.blocks ++ second.blocks, first.headings ++ second.headings⟩

/-- Whether nothing in a section goes under an entry. -/
def Entry.Clears (e : Entry) (tail : Section) : Prop :=
  match e with
  | .heading level _ => tail.blocks = [] ∧ ∀ placed ∈ tail.headings.head?, placed.1 ≤ level
  | .block indent (.item ..) => ∀ placed ∈ tail.blocks.head?, placed.1 ≤ indent
  | .block .. => True

theorem splitDeeper_eq (depth : Nat) (placed : List Placed) :
    splitDeeper depth placed =
      (placed.takeWhile (depth < ·.1), placed.dropWhile (depth < ·.1)) := by
  rw [splitDeeper, List.span_eq_takeWhile_dropWhile]

/-- The depths of the outermost nodes are those of entries. -/
theorem depth_sectionOf (es : List Entry) :
    (∀ placed ∈ (sectionOf es).blocks, ∃ node, .block placed.1 node ∈ es) ∧
      ∀ placed ∈ (sectionOf es).headings, ∃ text, .heading placed.1 text ∈ es := by
  induction es with
  | nil => simp
  | cons e es ih =>
    obtain ⟨hblocks, hheadings⟩ := ih
    have hb : ∀ placed ∈ (sectionOf es).blocks, ∃ node, .block placed.1 node ∈ e :: es :=
      fun placed hp => (hblocks placed hp).imp fun _ => List.mem_cons_of_mem e
    have hh : ∀ placed ∈ (sectionOf es).headings, ∃ text, .heading placed.1 text ∈ e :: es :=
      fun placed hp => (hheadings placed hp).imp fun _ => List.mem_cons_of_mem e
    rw [sectionOf_cons]
    cases e with
    | heading level text =>
      refine ⟨by simp [Entry.attach], fun placed hp => ?_⟩
      simp only [Entry.attach, splitDeeper_eq, List.mem_cons] at hp
      rcases hp with rfl | hp
      · exact ⟨text, List.mem_cons_self⟩
      · exact hh placed ((List.dropWhile_sublist _).mem hp)
    | block indent node =>
      cases node with
      | item marker text below =>
        refine ⟨fun placed hp => ?_, hh⟩
        simp only [Entry.attach, splitDeeper_eq, List.mem_cons] at hp
        rcases hp with rfl | hp
        · exact ⟨_, List.mem_cons_self⟩
        · exact hb placed ((List.dropWhile_sublist _).mem hp)
      | _ =>
        refine ⟨fun placed hp => ?_, hh⟩
        rcases List.mem_cons.1 hp with rfl | hp
        · exact ⟨_, List.mem_cons_self⟩
        · exact hb placed hp

/-- Nodes after the first that is not deeper are not taken. -/
theorem splitDeeper_append {depth : Nat} {first second : List Placed}
    (h : ∀ placed ∈ second.head?, placed.1 ≤ depth) :
    splitDeeper depth (first ++ second) =
      ((splitDeeper depth first).1, (splitDeeper depth first).2 ++ second) := by
  simp only [splitDeeper_eq]
  induction first with
  | nil =>
    cases second with
    | nil => rfl
    | cons placed second =>
      have hp : ¬ depth < placed.1 := Nat.not_lt.2 (h placed rfl)
      simp [hp]
  | cons placed first ih =>
    by_cases hp : depth < placed.1
    · simpa [hp] using ih
    · simp [hp]

/-- An entry before two sections takes from the first only, when it clears the second. -/
theorem attach_append {e : Entry} {first second : Section} (h : e.Clears second) :
    e.attach (first.append second) = (e.attach first).append second := by
  cases e with
  | heading level text =>
    obtain ⟨hblocks, hheadings⟩ := h
    simp [Entry.attach, Section.append, Section.nodes, splitDeeper_append hheadings, hblocks]
  | block indent node =>
    cases node with
    | item marker text below =>
      simp [Entry.attach, Section.append, splitDeeper_append h]
    | _ => rfl

theorem sectionOf_append {es : List Entry} {tail : List Entry}
    (h : ∀ e ∈ es, e.Clears (sectionOf tail)) :
    sectionOf (es ++ tail) = (sectionOf es).append (sectionOf tail) := by
  induction es with
  | nil => simp [Section.append]
  | cons e es ih =>
    rw [List.cons_append, sectionOf_cons, ih fun e he => h e (List.mem_cons_of_mem _ he),
      attach_append (h e List.mem_cons_self), sectionOf_cons]

/-- An entry clears what begins with an entry that it does not hold. -/
theorem clears_of_not_holds {e next : Entry} {es : List Entry} (h : e.holds next = false) :
    e.Clears (sectionOf (next :: es)) := by
  cases e with
  | heading level text =>
    cases next with
    | heading other _ => simpa [Entry.Clears, Entry.attach, Entry.holds] using h
    | block => simp [Entry.holds] at h
  | block indent node =>
    cases node with
    | item marker text below =>
      cases next with
      | heading => simp [Entry.Clears, Entry.attach]
      | block other inner =>
        have : other ≤ indent := by simpa [Entry.holds] using h
        cases inner <;> simpa [Entry.Clears, Entry.attach] using this
    | _ => trivial

/-! ## The equation of nesting -/

/-- When all is deeper, all is taken. -/
theorem splitDeeper_of_all {depth : Nat} {placed : List Placed}
    (h : ∀ p ∈ placed, depth < p.1) : splitDeeper depth placed = (placed, []) := by
  have hall : ∀ p ∈ placed, decide (depth < p.1) = true := fun p hp => decide_eq_true (h p hp)
  rw [splitDeeper_eq, List.takeWhile_eq_self_iff.2 hall, List.dropWhile_eq_nil_iff.2 hall]

/-- An entry that holds all of its section and clears what follows is one node before it. -/
theorem nodes_attach_append {e : Entry} {es : List Entry} {tail : Section}
    (h : ∀ a ∈ es, e.holds a = true) (htail : e.Clears tail) :
    ((e.attach (sectionOf es)).append tail).nodes = e.over (nest es) :: tail.nodes := by
  obtain ⟨hblocks, hheadings⟩ := depth_sectionOf es
  rw [nest_eq]
  cases e with
  | heading level text =>
    have hdeep : ∀ p ∈ (sectionOf es).headings, level < p.1 := fun p hp => by
      obtain ⟨other, ho⟩ := hheadings p hp
      simpa [Entry.holds] using h _ ho
    simp [Entry.attach, Section.append, Section.nodes, Entry.over, splitDeeper_of_all hdeep,
      htail.1]
  | block indent node =>
    cases node with
    | item marker text below =>
      have hdeep : ∀ p ∈ (sectionOf es).blocks, indent < p.1 := fun p hp => by
        obtain ⟨other, ho⟩ := hblocks p hp
        simpa [Entry.holds] using h _ ho
      have hnone : (sectionOf es).headings = [] := List.eq_nil_iff_forall_not_mem.2 fun p hp => by
        obtain ⟨text, ho⟩ := hheadings p hp
        simpa [Entry.holds] using h _ ho
      simp [Entry.attach, Section.append, Section.nodes, Entry.over, splitDeeper_of_all hdeep, hnone]
    | _ =>
      -- a leaf holds nothing, so there is nothing in its section
      obtain rfl : es = [] := List.eq_nil_iff_forall_not_mem.2 fun a ha => by
        simpa [Entry.holds] using h a ha
      rfl

/-- An entry is a node over the entries that follow up to the first that it does not hold. -/
theorem nest_cons (e : Entry) (es : List Entry) :
    nest (e :: es) = e.over (nest (es.takeWhile e.holds)) :: nest (es.dropWhile e.holds) := by
  have hheld : ∀ a ∈ es.takeWhile e.holds, e.holds a = true := fun a ha => List.mem_takeWhile_imp ha
  -- whatever does not go under `e` goes under nothing that does
  have hclears : e.Clears (sectionOf (es.dropWhile e.holds)) ∧
      ∀ a ∈ es.takeWhile e.holds, a.Clears (sectionOf (es.dropWhile e.holds)) := by
    cases hrest : es.dropWhile e.holds with
    | nil =>
      have : ∀ a : Entry, a.Clears (sectionOf []) := fun a => by
        cases a with
        | heading => simp [Entry.Clears]
        | block indent node => cases node <;> simp [Entry.Clears]
      exact ⟨this e, fun a _ => this a⟩
    | cons next rest =>
      have hnext : e.holds next = false := by
        have := List.head?_dropWhile_not e.holds es
        simpa [hrest] using this
      refine ⟨clears_of_not_holds hnext, fun a ha => clears_of_not_holds ?_⟩
      refine Bool.eq_false_of_not_eq_true fun hcon => ?_
      rw [Entry.holds_trans (hheld a ha) hcon] at hnext
      cases hnext
  rw [nest_eq, sectionOf_cons, nest_eq (es.dropWhile e.holds),
    ← nodes_attach_append hheld hclears.1, ← attach_append hclears.1, ← sectionOf_append hclears.2,
    List.takeWhile_append_dropWhile]

/-- Induction along the nesting: for an entry with others after it, what it holds and what
follows. -/
theorem nest_induction {motive : List Entry → Prop} (nil : motive [])
    (cons : ∀ e es, motive (es.takeWhile e.holds) → motive (es.dropWhile e.holds) →
      motive (e :: es)) :
    ∀ es, motive es := by
  intro es
  induction h : es.length using Nat.strong_induction_on generalizing es with
  | _ n ih =>
    cases es with
    | nil => exact nil
    | cons e es =>
      have hlt : es.length < n := by rw [← h]; exact Nat.lt_succ_self _
      refine cons e es (ih _ ?_ _ rfl) (ih _ ?_ _ rfl)
      · exact lt_of_le_of_lt (List.takeWhile_sublist _).length_le hlt
      · exact lt_of_le_of_lt (List.dropWhile_sublist _).length_le hlt

end RefPages.Markup
