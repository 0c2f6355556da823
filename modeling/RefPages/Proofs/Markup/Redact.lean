/-
Comments with the parts that a language drops blacked out. What is left of such a comment for the
language is what is left of the comment itself, and this stays so when running texts change, as
long as lists of languages do not.
-/
import RefPages.Markup.ForLang
import RefPages.Markup.Walk
import RefPages.Proofs.Fallible

namespace RefPages.Markup

open Text

/-! ## Blacking out -/

/-- A node that no language keeps. -/
def blackedOut : Node := .item .dash "" [.item .star "langs:" []]

/-- Whether the list of languages among the nodes under one node leaves the language out. A list
with a bracket in it might hold a reference, so that it is not final yet. -/
def gatesOut (lang : Lang) (children : List Node) : Bool :=
  match children.findSome? langsOf? with
  | some names => !lists lang names && !names.contains '['
  | none => false

mutual

/-- The node with everything blacked out that is not for a language. Lists of languages stay. -/
def redact (lang : Lang) : Node → Node
  | .heading level text children =>
    if gatesOut lang children then blackedOut else .heading level text (redactAll lang children)
  | .item marker text children =>
    if gatesOut lang children && (langsOf? (.item marker text children)).isNone then blackedOut
    else .item marker text (redactAll lang children)
  | .code info lines => .code info lines
  | .note kind text => .note kind text
  | .properties lines => .properties lines
  | .paragraph text => .paragraph text

/-- The forest with everything blacked out that is not for a language. -/
def redactAll (lang : Lang) : List Node → List Node
  | [] => []
  | node :: nodes => redact lang node :: redactAll lang nodes

end

theorem redactAll_eq_map (lang : Lang) (nodes : List Node) : redactAll lang nodes = nodes.map (redact lang) := by
  induction nodes with
  | nil => rfl
  | cons node nodes ih => rw [redactAll, ih, List.map_cons]

section

variable {lang : Lang}

@[simp] theorem forLang?_blackedOut (lang : Lang) : forLang? lang blackedOut = none := by
  cases lang <;> rfl

theorem excludes_of_gatesOut {children : List Node} (h : gatesOut lang children = true) :
    excludes lang children = true := by
  unfold gatesOut at h
  unfold excludes
  cases hnames : children.findSome? langsOf? with
  | none =>
    rw [hnames] at h
    cases h
  | some names =>
    rw [hnames] at h
    exact (Bool.and_eq_true_iff.1 h).1

/-- Blacking out neither makes nor removes lists of languages. -/
@[simp] theorem langsOf?_redact (node : Node) : langsOf? (redact lang node) = langsOf? node := by
  cases node with
  | heading level text children =>
    rw [redact]
    split <;> rfl
  | item marker text children =>
    rw [redact]
    split
    · rename_i h
      rw [Option.isNone_iff_eq_none.1 (Bool.and_eq_true_iff.1 h).2]
      rfl
    · cases marker <;> rfl
  | _ => rfl

theorem findSome?_redactAll (nodes : List Node) :
    (redactAll lang nodes).findSome? langsOf? = nodes.findSome? langsOf? := by
  rw [redactAll_eq_map, List.findSome?_map]
  exact congrArg (List.findSome? · nodes) (funext langsOf?_redact)

@[simp] theorem excludes_redactAll (nodes : List Node) :
    excludes lang (redactAll lang nodes) = excludes lang nodes := by
  rw [excludes, findSome?_redactAll, excludes]

/-! ## What is left for the language -/

mutual

theorem forLang?_redact : ∀ node : Node, forLang? lang (redact lang node) = forLang? lang node
  | .heading level text children => by
    rw [redact, forLang?]
    split
    · rw [forLang?_blackedOut, if_pos (excludes_of_gatesOut ‹_›)]
    · rw [forLang?, excludes_redactAll, forLangUnder_redactAll children]
  | .item marker text children => by
    rw [redact, forLang?]
    split
    · rename_i h
      rw [forLang?_blackedOut, if_pos (excludes_of_gatesOut (Bool.and_eq_true_iff.1 h).1)]
    · rw [forLang?, excludes_redactAll, forLangUnder_redactAll children]
  | .code .. => rfl
  | .note .. => rfl
  | .properties _ => rfl
  | .paragraph _ => rfl

theorem forLangUnder_redactAll : ∀ nodes : List Node,
    forLangUnder lang (redactAll lang nodes) = forLangUnder lang nodes
  | [] => rfl
  | node :: nodes => by
    rw [redactAll, forLangUnder, forLangUnder, langsOf?_redact, forLang_redactAll nodes,
      forLang?_redact node, forLangUnder_redactAll nodes]

/-- A language is left with the same of a comment whether or not the rest is blacked out. -/
theorem forLang_redactAll : ∀ nodes : List Node, forLang lang (redactAll lang nodes) = forLang lang nodes
  | [] => rfl
  | node :: nodes => by
    rw [redactAll, forLang, forLang, forLang?_redact node, forLang_redactAll nodes]

end

/-! ## Blacking out again -/

theorem gatesOut_redactAll (nodes : List Node) : gatesOut lang (redactAll lang nodes) = gatesOut lang nodes := by
  rw [gatesOut, findSome?_redactAll, gatesOut]

@[simp] theorem redact_blackedOut (lang : Lang) : redact lang blackedOut = blackedOut := by
  cases lang <;> rfl

mutual

theorem redact_redact : ∀ node : Node, redact lang (redact lang node) = redact lang node
  | .heading level text children => by
    rw [redact]
    split
    · exact redact_blackedOut lang
    · rename_i h
      rw [redact, gatesOut_redactAll, if_neg h, redactAll_redactAll children]
  | .item marker text children => by
    rw [redact]
    split
    · exact redact_blackedOut lang
    · rename_i h
      have hsame : langsOf? (.item marker text (redactAll lang children)) = langsOf? (.item marker text children) := by
        cases marker <;> rfl
      rw [redact, gatesOut_redactAll, hsame, if_neg h, redactAll_redactAll children]
  | .code .. => rfl
  | .note .. => rfl
  | .properties _ => rfl
  | .paragraph _ => rfl

theorem redactAll_redactAll : ∀ nodes : List Node, redactAll lang (redactAll lang nodes) = redactAll lang nodes
  | [] => rfl
  | node :: nodes => by
    rw [redactAll, redactAll, redact_redact node, redactAll_redactAll nodes]

end

end

/-! ## Changing texts -/

/-- A change of running texts that leaves texts without brackets alone and makes no lists of
languages. -/
structure Settled {ε : Type} (change : String → Except ε String) : Prop where
  plain : ∀ text : String, '[' ∉ text.toList → change text = .ok text
  langs : ∀ text text' : String, change text = .ok text' → startsWith "langs:".toList text'.toList = true →
    startsWith "langs:".toList text.toList = true

section

variable {ε : Type} {change : String → Except ε String} {lang : Lang}

theorem langsOf?_item (text : String) (children : List Node) :
    langsOf? (.item .star text children) = after? "langs:".toList text.toList := rfl

/-- A node that is no list of languages does not become one. -/
theorem Settled.langsOf?_eq_none (h : Settled change) {node node' : Node}
    (hnode : tryMapTexts change node = .ok node') (hnone : langsOf? node = none) : langsOf? node' = none := by
  cases node with
  | heading level text children =>
    obtain ⟨text', -, hnode⟩ := bind_eq_ok.1 hnode
    obtain ⟨children', -, hnode⟩ := bind_eq_ok.1 hnode
    cases hnode
    rfl
  | item marker text children =>
    obtain ⟨text', htext, hnode⟩ := bind_eq_ok.1 hnode
    obtain ⟨children', -, hnode⟩ := bind_eq_ok.1 hnode
    cases hnode
    cases marker with
    | star =>
      rw [langsOf?_item] at hnone ⊢
      have hstart := h.langs text text' htext
      rw [startsWith, startsWith, hnone, Option.isSome_none, Option.isSome_iff_ne_none] at hstart
      by_contra hsome
      exact Bool.false_ne_true (hstart hsome)
    | dash => rfl
    | number => rfl
  | note kind text =>
    obtain ⟨text', -, hnode⟩ := bind_eq_ok.1 hnode
    cases hnode
    rfl
  | paragraph text =>
    obtain ⟨text', -, hnode⟩ := bind_eq_ok.1 hnode
    cases hnode
    rfl
  | code info lines =>
    cases hnode
    rfl
  | properties lines =>
    cases hnode
    rfl

/-- A list of languages without brackets stays as it is. -/
theorem Settled.langsOf?_eq_some (h : Settled change) {node node' : Node} {names : List Char}
    (hnode : tryMapTexts change node = .ok node') (hsome : langsOf? node = some names) (hnames : '[' ∉ names) :
    langsOf? node' = some names := by
  cases node with
  | item marker text children =>
    cases marker with
    | star =>
      obtain ⟨text', htext, hnode⟩ := bind_eq_ok.1 hnode
      obtain ⟨children', -, hnode⟩ := bind_eq_ok.1 hnode
      cases hnode
      rw [langsOf?_item] at hsome ⊢
      have hplain : '[' ∉ text.toList := by
        rw [after?_eq_some_iff.1 hsome, List.mem_append, not_or]
        exact ⟨by decide, hnames⟩
      cases htext.symm.trans (h.plain text hplain)
      exact hsome
    | dash => cases hsome
    | number => cases hsome
  | _ => cases hsome

theorem Settled.gatesOut_eq_true (h : Settled change) {nodes nodes' : List Node}
    (hnodes : tryMapAllTexts change nodes = .ok nodes') (hgates : gatesOut lang nodes = true) :
    gatesOut lang nodes' = true := by
  have hfind : ∀ (nodes nodes' : List Node) (names : List Char), tryMapAllTexts change nodes = .ok nodes' →
      nodes.findSome? langsOf? = some names → '[' ∉ names → nodes'.findSome? langsOf? = some names := by
    intro nodes
    induction nodes with
    | nil =>
      intro _ _ _ hsome
      cases hsome
    | cons node nodes ih =>
      intro _ names hall hsome hnames
      obtain ⟨node', hnode, hall⟩ := bind_eq_ok.1 hall
      obtain ⟨nodes', hnodes, hall⟩ := bind_eq_ok.1 hall
      cases hall
      rw [List.findSome?_cons] at hsome ⊢
      cases hfirst : langsOf? node with
      | some first =>
        rw [hfirst] at hsome
        cases hsome
        rw [h.langsOf?_eq_some hnode hfirst hnames]
      | none =>
        rw [hfirst] at hsome
        rw [h.langsOf?_eq_none hnode hfirst]
        exact ih nodes' names hnodes hsome hnames
  unfold gatesOut at hgates ⊢
  split at hgates
  · rename_i names hnames
    obtain ⟨hlists, hbracket⟩ := Bool.and_eq_true_iff.1 hgates
    have hplain : '[' ∉ names := by simpa using hbracket
    rw [hfind nodes nodes' names hnodes hnames hplain]
    exact hgates
  · cases hgates

theorem Settled.tryMapTexts_blackedOut (h : Settled change) : tryMapTexts change blackedOut = .ok blackedOut := by
  have hempty : change "" = .ok "" := h.plain "" (by decide)
  have hlangs : change "langs:" = .ok "langs:" := h.plain "langs:" (by decide)
  simp only [blackedOut, tryMapTexts, tryMapAllTexts, hempty, hlangs]
  rfl

theorem gatesOut_of_redactAll_eq {nodes nodes' : List Node} (h : redactAll lang nodes = redactAll lang nodes') :
    gatesOut lang nodes = gatesOut lang nodes' := by
  rw [← gatesOut_redactAll nodes, h, gatesOut_redactAll]

mutual

theorem Settled.tryMapTexts_redact (h : Settled change) : ∀ {node node' : Node},
    tryMapTexts change node = .ok node' →
      ∃ kept, tryMapTexts change (redact lang node) = .ok kept ∧ redact lang kept = redact lang node'
  | .heading level text children, node', hnode => by
    obtain ⟨text', htext, hnode⟩ := bind_eq_ok.1 hnode
    obtain ⟨children', hchildren, hnode⟩ := bind_eq_ok.1 hnode
    cases hnode
    by_cases hgates : gatesOut lang children = true
    · refine ⟨blackedOut, ?_, ?_⟩
      · rw [redact, if_pos hgates]
        exact h.tryMapTexts_blackedOut
      · rw [redact_blackedOut, redact, if_pos (h.gatesOut_eq_true hchildren hgates)]
    · obtain ⟨kept, hkept, hsame⟩ := h.tryMapAllTexts_redactAll hchildren
      refine ⟨.heading level text' kept, ?_, ?_⟩
      · rw [redact, if_neg hgates, tryMapTexts, htext, hkept]
        rfl
      · rw [redact, redact, gatesOut_of_redactAll_eq hsame, hsame]
  | .item marker text children, node', hnode => by
    obtain ⟨text', htext, hnode'⟩ := bind_eq_ok.1 hnode
    obtain ⟨children', hchildren, hnode'⟩ := bind_eq_ok.1 hnode'
    cases hnode'
    by_cases hgates : gatesOut lang children = true ∧ langsOf? (.item marker text children) = none
    · refine ⟨blackedOut, ?_, ?_⟩
      · rw [redact, if_pos (by simpa using hgates)]
        exact h.tryMapTexts_blackedOut
      · have hnone := h.langsOf?_eq_none hnode hgates.2
        rw [redact_blackedOut, redact, if_pos (by simp [hnone, h.gatesOut_eq_true hchildren hgates.1])]
    · obtain ⟨kept, hkept, hsame⟩ := h.tryMapAllTexts_redactAll hchildren
      have hlangs : langsOf? (.item marker text' kept) = langsOf? (.item marker text' children') := by
        cases marker <;> rfl
      refine ⟨.item marker text' kept, ?_, ?_⟩
      · rw [redact, if_neg (by simpa using hgates), tryMapTexts, htext, hkept]
        rfl
      · rw [redact, redact, gatesOut_of_redactAll_eq hsame, hsame, hlangs]
  | .code .., node', hnode => ⟨node', hnode, rfl⟩
  | .note .., node', hnode => ⟨node', hnode, rfl⟩
  | .properties _, node', hnode => ⟨node', hnode, rfl⟩
  | .paragraph _, node', hnode => ⟨node', hnode, rfl⟩

/-- When all texts of a comment can be changed, those of the blacked out comment can, with the same
outcome up to blacking out. -/
theorem Settled.tryMapAllTexts_redactAll (h : Settled change) : ∀ {nodes nodes' : List Node},
    tryMapAllTexts change nodes = .ok nodes' →
      ∃ kept, tryMapAllTexts change (redactAll lang nodes) = .ok kept ∧ redactAll lang kept = redactAll lang nodes'
  | [], nodes', hnodes => ⟨nodes', hnodes, rfl⟩
  | node :: nodes, nodes', hnodes => by
    obtain ⟨node', hnode, hnodes⟩ := bind_eq_ok.1 hnodes
    obtain ⟨rest, hrest, hnodes⟩ := bind_eq_ok.1 hnodes
    cases hnodes
    obtain ⟨first, hfirst, hsame⟩ := h.tryMapTexts_redact hnode
    obtain ⟨kept, hkept, hsameRest⟩ := h.tryMapAllTexts_redactAll hrest
    refine ⟨first :: kept, ?_, ?_⟩
    · rw [redactAll, tryMapAllTexts, hfirst, hkept]
      rfl
    · rw [redactAll, redactAll, hsame, hsameRest]

end

end

end RefPages.Markup
