/-
What holds of every running text in a forest: it still does when nodes are dropped, and it holds
after a walk if the walk makes it hold.
-/
import RefPages.Markup.ForLang
import RefPages.Markup.Walk
import RefPages.Proofs.Fallible

namespace RefPages.Markup

section

variable (P : String → Prop)

mutual

/-- Something holds of every running text of a node and of the nodes below it. -/
def Node.AllTexts : Node → Prop
  | .heading _ text children => P text ∧ AllTexts children
  | .item _ text children => P text ∧ AllTexts children
  | .note _ text => P text
  | .paragraph text => P text
  | .code .. => True
  | .properties _ => True

/-- Something holds of every running text of a forest. -/
def AllTexts : List Node → Prop
  | [] => True
  | node :: nodes => node.AllTexts ∧ AllTexts nodes

end

end

section

variable {P Q : String → Prop}

theorem allTexts_append {nodes nodes' : List Node} :
    AllTexts P (nodes ++ nodes') ↔ AllTexts P nodes ∧ AllTexts P nodes' := by
  induction nodes with
  | nil => simp [AllTexts]
  | cons node nodes ih => rw [List.cons_append, AllTexts, AllTexts, ih, and_assoc]

theorem allTexts_toList {node? : Option Node} : AllTexts P node?.toList ↔ ∀ node ∈ node?, node.AllTexts P := by
  cases node? <;> simp [AllTexts]

/-! ## Dropping nodes -/

section

variable {lang : Lang}

mutual

theorem Node.AllTexts.forLang? : ∀ {node kept : Node}, node.AllTexts P → kept ∈ Markup.forLang? lang node →
    kept.AllTexts P
  | .heading _ _ children, kept, h, hkept => by
    rw [Node.AllTexts] at h
    rw [Markup.forLang?] at hkept
    split at hkept
    · cases hkept
    · cases hkept
      exact ⟨h.1, AllTexts.forLangUnder h.2⟩
  | .item _ _ children, kept, h, hkept => by
    rw [Node.AllTexts] at h
    rw [Markup.forLang?] at hkept
    split at hkept
    · cases hkept
    · cases hkept
      exact ⟨h.1, AllTexts.forLangUnder h.2⟩
  | .code .., _, h, hkept => by cases hkept; exact h
  | .note .., _, h, hkept => by cases hkept; exact h
  | .properties _, _, h, hkept => by cases hkept; exact h
  | .paragraph _, _, h, hkept => by cases hkept; exact h

theorem AllTexts.forLangUnder : ∀ {nodes : List Node}, AllTexts P nodes → AllTexts P (Markup.forLangUnder lang nodes)
  | [], _ => trivial
  | node :: nodes, h => by
    rw [AllTexts] at h
    rw [Markup.forLangUnder]
    split
    · exact AllTexts.forLang h.2
    · rw [allTexts_append, allTexts_toList]
      exact ⟨fun kept hkept => Node.AllTexts.forLang? h.1 hkept, AllTexts.forLangUnder h.2⟩

theorem AllTexts.forLang : ∀ {nodes : List Node}, AllTexts P nodes → AllTexts P (Markup.forLang lang nodes)
  | [], _ => trivial
  | node :: nodes, h => by
    rw [AllTexts] at h
    rw [Markup.forLang, allTexts_append, allTexts_toList]
    exact ⟨fun kept hkept => Node.AllTexts.forLang? h.1 hkept, AllTexts.forLang h.2⟩

end

mutual

theorem Node.AllTexts.withOwnCode? : ∀ {node kept : Node}, node.AllTexts P → kept ∈ Markup.withOwnCode? lang node →
    kept.AllTexts P
  | .heading .., kept, h, hkept => by
    cases hkept
    exact ⟨h.1, AllTexts.withOwnCode h.2⟩
  | .item .., kept, h, hkept => by
    cases hkept
    exact ⟨h.1, AllTexts.withOwnCode h.2⟩
  | .code .., kept, h, hkept => by
    rw [Markup.withOwnCode?] at hkept
    split at hkept
    · cases hkept
    · cases hkept
      exact h
  | .note .., _, h, hkept => by cases hkept; exact h
  | .properties _, _, h, hkept => by cases hkept; exact h
  | .paragraph _, _, h, hkept => by cases hkept; exact h

theorem AllTexts.withOwnCode : ∀ {nodes : List Node}, AllTexts P nodes → AllTexts P (Markup.withOwnCode lang nodes)
  | [], _ => trivial
  | node :: nodes, h => by
    rw [AllTexts] at h
    rw [Markup.withOwnCode, allTexts_append, allTexts_toList]
    exact ⟨fun kept hkept => Node.AllTexts.withOwnCode? h.1 hkept, AllTexts.withOwnCode h.2⟩

end

end

/-! ## Changing texts -/

section

variable {change : String → String}

mutual

theorem Node.AllTexts.mapTexts (hchange : ∀ text, P text → Q (change text)) : ∀ {node : Node},
    node.AllTexts P → (Markup.mapTexts change node).AllTexts Q
  | .heading .., h => ⟨hchange _ h.1, AllTexts.mapAllTexts hchange h.2⟩
  | .item .., h => ⟨hchange _ h.1, AllTexts.mapAllTexts hchange h.2⟩
  | .code .., _ => trivial
  | .note .., h => hchange _ h
  | .properties _, _ => trivial
  | .paragraph _, h => hchange _ h

theorem AllTexts.mapAllTexts (hchange : ∀ text, P text → Q (change text)) : ∀ {nodes : List Node},
    AllTexts P nodes → AllTexts Q (Markup.mapAllTexts change nodes)
  | [], _ => trivial
  | _ :: _, h => ⟨Node.AllTexts.mapTexts hchange h.1, AllTexts.mapAllTexts hchange h.2⟩

end

end

section

variable {ε : Type} {change : String → Except ε String}

mutual

theorem Node.allTexts_tryMapTexts (hchange : ∀ text text', change text = .ok text' → P text') :
    ∀ {node node' : Node}, tryMapTexts change node = .ok node' → node'.AllTexts P
  | .heading .., _, h => by
    obtain ⟨text', htext, h⟩ := bind_eq_ok.1 h
    obtain ⟨children', hchildren, h⟩ := bind_eq_ok.1 h
    cases h
    exact ⟨hchange _ _ htext, allTexts_tryMapAllTexts hchange hchildren⟩
  | .item .., _, h => by
    obtain ⟨text', htext, h⟩ := bind_eq_ok.1 h
    obtain ⟨children', hchildren, h⟩ := bind_eq_ok.1 h
    cases h
    exact ⟨hchange _ _ htext, allTexts_tryMapAllTexts hchange hchildren⟩
  | .code .., _, h => by
    cases h
    trivial
  | .note .., _, h => by
    obtain ⟨text', htext, h⟩ := bind_eq_ok.1 h
    cases h
    exact hchange _ _ htext
  | .properties _, _, h => by
    cases h
    trivial
  | .paragraph _, _, h => by
    obtain ⟨text', htext, h⟩ := bind_eq_ok.1 h
    cases h
    exact hchange _ _ htext

/-- A walk that makes something hold of every text makes it hold of all texts in a forest. -/
theorem allTexts_tryMapAllTexts (hchange : ∀ text text', change text = .ok text' → P text') :
    ∀ {nodes nodes' : List Node}, tryMapAllTexts change nodes = .ok nodes' → AllTexts P nodes'
  | [], _, h => by
    cases h
    trivial
  | _ :: _, _, h => by
    obtain ⟨node', hnode, h⟩ := bind_eq_ok.1 h
    obtain ⟨nodes', hnodes, h⟩ := bind_eq_ok.1 h
    cases h
    exact ⟨Node.allTexts_tryMapTexts hchange hnode, allTexts_tryMapAllTexts hchange hnodes⟩

end

end

end

end RefPages.Markup
