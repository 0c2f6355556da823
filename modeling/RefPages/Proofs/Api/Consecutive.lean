/-
Documents that follow one another in one text. When no block is left open at the end of the first
and the second begins with a heading, nothing of the second goes to a heading of the first, although
headings of the second may come under headings of the first: what a text declares depends only on
the order of its headings and on the blocks that stand after each.
-/
import RefPages.Api.Equality
import RefPages.Proofs.Api.Sections
import RefPages.Proofs.Markup.Legible

namespace RefPages.Markup

open RefPages.Text

/-! ## Lines -/

/-- Whether the first line that is not blank begins with a sign. -/
def LeadsWithHeading (lines : List (List Char)) : Prop :=
  ∀ line, lines.find? (fun line => !(trim line).isEmpty) = some line → line.head? = some '#'

theorem leadsWithHeading_cons {line : List Char} {lines : List (List Char)} (h : LeadsWithHeading (line :: lines)) :
    trim line = [] ∧ LeadsWithHeading lines ∨ line.head? = some '#' := by
  by_cases hblank : trim line = []
  · refine .inl ⟨hblank, fun first hfirst => h first ?_⟩
    rwa [List.find?_cons_of_neg (by simp [hblank])]
  · exact .inr (h line (List.find?_cons_of_pos (by simp [hblank])))

/-- A heading ends every paragraph, also after blank lines. -/
theorem LeadsWithHeading.endsParagraph {lines : List (List Char)} (h : LeadsWithHeading lines)
    (paragraph : List (List Char)) :
    logicalFrom false paragraph lines = joinParagraph paragraph ++ logicalFrom false [] lines := by
  cases lines with
  | nil => simp [logicalFrom, joinParagraph]
  | cons line lines =>
    rcases leadsWithHeading_cons h with ⟨hblank, -⟩ | hsign
    · rw [logicalFrom_blank paragraph lines hblank, logicalFrom_blank [] lines hblank]
      rfl
    · rw [logicalFrom_sign paragraph lines hsign, logicalFrom_sign [] lines hsign]
      rfl

/-- The first logical line is that heading. -/
theorem LeadsWithHeading.head?_logicalFrom {lines : List (List Char)} (h : LeadsWithHeading lines) :
    ∀ line ∈ (logicalFrom false [] lines).head?, line.head? = some '#' := by
  induction lines with
  | nil => simp [logicalFrom, joinParagraph]
  | cons line lines ih =>
    rcases leadsWithHeading_cons h with ⟨hblank, hlines⟩ | hsign
    · rw [logicalFrom_blank [] lines hblank]
      exact ih hlines
    · rw [logicalFrom_sign [] lines hsign]
      simpa [joinParagraph] using hsign

/-- An even number of block markers leaves the reader where it was, inside a block or not. -/
theorem blockAfter_eq (inBlock : Bool) (lines : List (List Char)) :
    blockAfter inBlock lines = (inBlock == decide (Even (lines.countP fun line => isBlockMarker (trim line)))) := by
  induction lines generalizing inBlock with
  | nil => simp [blockAfter]
  | cons line lines ih =>
    have hstep : blockAfter inBlock (line :: lines) = blockAfter (inBlock != isBlockMarker (trim line)) lines := rfl
    rw [hstep, ih, List.countP_cons]
    cases inBlock <;> cases isBlockMarker (trim line) <;> simp [Nat.even_add_one, -Nat.not_even_iff_odd]

theorem unifyLineEnds_of_not_mem {cs : List Char} (h : '\r' ∉ cs) : unifyLineEnds cs = cs := by
  induction cs with
  | nil => rfl
  | cons c cs ih =>
    obtain ⟨hc, hcs⟩ := not_or.1 (List.mem_cons.not.1 h)
    rw [unifyLineEnds.eq_2 _ _ fun _ heq => absurd heq.symm hc, ih hcs]

/-- The logical lines of two texts with a line end between them, when the first leaves no block
open and the second begins with a heading. -/
theorem logicalLines_append {first second : List Char} (hfirst : '\r' ∉ first) (hsecond : '\r' ∉ second)
    (hclosed : blockAfter false (first.splitOn '\n') = false) (hheading : LeadsWithHeading (second.splitOn '\n')) :
    logicalLines (first ++ '\n' :: second) = logicalLines first ++ logicalLines second := by
  have hwhole : '\r' ∉ first ++ '\n' :: second := by simp [hfirst, hsecond]
  rw [logicalLines, logicalLines, logicalLines, unifyLineEnds_of_not_mem hwhole, unifyLineEnds_of_not_mem hfirst,
    unifyLineEnds_of_not_mem hsecond, List.splitOn_append_cons_self,
    logicalFrom_append_of_closed hheading.endsParagraph hclosed]

/-! ## Entries -/

/-- Whether entries begin with a heading, when there are any. -/
def HeadingFirst (entries : List Entry) : Prop := ∀ e ∈ entries.head?, ∃ level text, e = .heading level text

theorem headingFirst_of_items {lines : List (List Char)} {items : List Entry} (h : Items lines items)
    (hlines : ∀ line ∈ lines.head?, line.head? = some '#') : HeadingFirst items := by
  cases lines with
  | nil =>
    cases h
    simp [HeadingFirst]
  | cons line lines =>
    have hsign : line.head? = some '#' := hlines line rfl
    rcases items_of_cons h with ⟨-, others, -, rfl⟩ | ⟨hnone, -⟩ | ⟨hnone, -⟩
    · rintro e ⟨⟩
      exact ⟨_, _, rfl⟩
    · exact absurd hsign hnone
    · exact absurd hsign hnone

/-- Two texts with a line end between them have the entries of both, and those of the second begin
with a heading. -/
theorem parse_append {first second : String} {nodes nodes' : List Node} (hfirst : parse first = .ok nodes)
    (hsecond : parse second = .ok nodes') (hreturn : '\r' ∉ first.toList) (hreturn' : '\r' ∉ second.toList)
    (hclosed : blockAfter false (first.toList.splitOn '\n') = false)
    (hheading : LeadsWithHeading (second.toList.splitOn '\n')) :
    ∃ es es', nodes = nest es ∧ nodes' = nest es' ∧ parse (first ++ "\n" ++ second) = .ok (nest (es ++ es')) ∧
      (∀ e ∈ es ++ es', e.Bare) ∧ HeadingFirst es' := by
  obtain ⟨es, hes, hnodes⟩ := bind_eq_ok.1 hfirst
  cases hnodes
  obtain ⟨es', hes', hnodes'⟩ := bind_eq_ok.1 hsecond
  cases hnodes'
  rw [entries_eq_ok_iff] at hes hes'
  have hlines : logicalLines (first ++ "\n" ++ second).toList =
      logicalLines first.toList ++ logicalLines second.toList := by
    rw [String.toList_append, String.toList_append, List.append_assoc]
    exact logicalLines_append hreturn hreturn' hclosed hheading
  have hwhole : Items (logicalLines (first ++ "\n" ++ second).toList) (es ++ es') := hlines ▸ hes.append hes'
  have hlead := hheading.head?_logicalFrom
  rw [← unifyLineEnds_of_not_mem hreturn'] at hlead
  exact ⟨es, es', rfl, rfl, bind_eq_ok.2 ⟨_, entries_eq_ok_iff.2 hwhole, rfl⟩, bare_of_items hwhole,
    headingFirst_of_items hes' hlead⟩

end RefPages.Markup

namespace RefPages

open Markup Text

/-! ## Declarations -/

/-- Whether an entry is no heading. -/
def Markup.Entry.isBlock : Markup.Entry → Bool
  | .heading .. => false
  | .block .. => true

/-- What the headings among entries declare, each with the blocks up to the next heading. -/
def declared : List Markup.Entry → List Declaration
  | [] => []
  | .heading level text :: es => ⟨level, text, nest (es.takeWhile (·.isBlock))⟩ :: declared es
  | .block .. :: es => declared es

/-- Blocks declare nothing. -/
theorem declared_append_of_blocks {es : List Markup.Entry} (h : ∀ e ∈ es, e.isBlock = true)
    (rest : List Markup.Entry) :
    declared (es ++ rest) = declared rest := by
  induction es with
  | nil => rfl
  | cons e es ih =>
    obtain ⟨he, hes⟩ := List.forall_mem_cons.1 h
    cases e with
    | heading => cases he
    | block => exact ih hes

theorem takeWhile_isBlock_of_headingFirst {es : List Markup.Entry} (h : HeadingFirst es) :
    es.takeWhile (·.isBlock) = [] := by
  cases es with
  | nil => rfl
  | cons e es =>
    obtain ⟨level, text, rfl⟩ := h e rfl
    rfl

/-- Before a heading the declarations of the entries are complete. -/
theorem declared_append {es rest : List Markup.Entry} (hrest : HeadingFirst rest) :
    declared (es ++ rest) = declared es ++ declared rest := by
  induction es with
  | nil => rfl
  | cons e es ih =>
    cases e with
    | heading level text =>
      have hblocks : (es ++ rest).takeWhile (·.isBlock) = es.takeWhile (·.isBlock) := by
        rw [List.takeWhile_append, takeWhile_isBlock_of_headingFirst hrest]
        split
        · rename_i hall
          rw [List.append_nil, (List.takeWhile_prefix _).eq_of_length hall]
        · rfl
      rw [List.cons_append, declared, declared, hblocks, ih, List.cons_append]
    | block => exact ih

theorem isBlock_of_holds {indent : Nat} {node : Node} {e : Markup.Entry}
    (h : (Markup.Entry.block indent node).holds e = true) :
    e.isBlock = true := by
  cases e with
  | heading => cases node <;> cases h
  | block => rfl

theorem holds_of_isBlock {e : Markup.Entry} (h : e.isBlock = true) (level : Nat) (text : String) :
    (Markup.Entry.heading level text).holds e = true := by
  cases e with
  | heading => cases h
  | block => rfl

/-- What a heading does not hold begins with a heading. -/
theorem headingFirst_dropWhile (level : Nat) (text : String) (es : List Markup.Entry) :
    HeadingFirst (es.dropWhile (Markup.Entry.heading level text).holds) := by
  intro e he
  have hnot := List.head?_dropWhile_not (Markup.Entry.heading level text).holds es
  rw [Option.mem_def.1 he] at hnot
  cases e with
  | heading other text' => exact ⟨other, text', rfl⟩
  | block => cases hnot

theorem dropWhile_takeWhile {α : Type} {p q : α → Bool} (h : ∀ a, p a = true → q a = true) (as : List α) :
    (as.takeWhile q).dropWhile p = (as.dropWhile p).takeWhile q := by
  induction as with
  | nil => rfl
  | cons a as ih =>
    by_cases hp : p a = true
    · simpa [hp, h a hp] using ih
    · by_cases hq : q a = true <;> simp [hp, hq]

/-- The nodes that are no headings are those of the entries before the first heading. -/
theorem filter_nest (es : List Markup.Entry) (hbare : ∀ e ∈ es, e.Bare) :
    (nest es).filter (!·.isHeading) = nest (es.takeWhile (·.isBlock)) := by
  induction es using nest_induction with
  | nil => rfl
  | cons e es _ ihrest =>
    obtain ⟨he, hes⟩ := List.forall_mem_cons.1 hbare
    have hrest := ihrest fun a ha => hes a ((List.dropWhile_sublist _).mem ha)
    rw [nest_cons]
    cases e with
    | heading level text =>
      have hfirst := takeWhile_isBlock_of_headingFirst (headingFirst_dropWhile level text es)
      rw [List.filter_cons_of_neg (by simp [Markup.Entry.over, Node.isHeading]), hrest, hfirst]
      rfl
    | block indent node =>
      have htakeWhile : (es.takeWhile (·.isBlock)).takeWhile (Markup.Entry.block indent node).holds =
          es.takeWhile (Markup.Entry.block indent node).holds := by
        rw [List.takeWhile_takeWhile]
        congr 1
        funext a
        simpa using isBlock_of_holds
      rw [List.filter_cons_of_pos (by simp [isHeading_over he.1]), hrest, List.takeWhile_cons_of_pos rfl, nest_cons,
        htakeWhile, dropWhile_takeWhile fun a => isBlock_of_holds]

/-- What nested entries declare does not depend on how they nest. -/
theorem declarations_nest (es : List Markup.Entry) (hbare : ∀ e ∈ es, e.Bare) :
    declarations (nest es) = declared es := by
  induction es using nest_induction with
  | nil => rfl
  | cons e es ihheld ihrest =>
    obtain ⟨he, hes⟩ := List.forall_mem_cons.1 hbare
    have hbareHeld : ∀ a ∈ es.takeWhile e.holds, a.Bare := fun a ha => hes a ((List.takeWhile_sublist _).mem ha)
    have hrest := ihrest fun a ha => hes a ((List.dropWhile_sublist _).mem ha)
    rw [nest_cons, declarations, hrest]
    cases e with
    | heading level text =>
      have hblocks : (es.takeWhile (Markup.Entry.heading level text).holds).takeWhile (·.isBlock) =
          es.takeWhile (·.isBlock) := by
        rw [List.takeWhile_takeWhile]
        congr 1
        funext a
        simpa using fun h => holds_of_isBlock h level text
      rw [Markup.Entry.over, declarationsOf, filter_nest _ hbareHeld, hblocks, ihheld hbareHeld, List.cons_append,
        ← declared_append (headingFirst_dropWhile level text es), List.takeWhile_append_dropWhile, declared]
    | block indent node =>
      -- a block holds only blocks
      have hheld : ∀ a ∈ es.takeWhile (Markup.Entry.block indent node).holds, a.isBlock = true := fun a ha =>
        isBlock_of_holds (List.mem_takeWhile_imp ha)
      have hover : declarationsOf ((Markup.Entry.block indent node).over
          (nest (es.takeWhile (Markup.Entry.block indent node).holds))) = [] := by
        cases node with
        | heading => cases he.1
        | _ => rfl
      rw [hover, List.nil_append, declared, ← declared_append_of_blocks hheld, List.takeWhile_append_dropWhile]

/-! ## Documents -/

/-- A text and another after it that begins with a heading declare the same as one text and as two
documents, whichever documents are read before and after them. -/
theorem Model.ofDocuments_consecutive {first second : String} {nodes nodes' : List Node}
    (hfirst : Markup.parse first = .ok nodes) (hsecond : Markup.parse second = .ok nodes')
    (hreturn : '\r' ∉ first.toList) (hreturn' : '\r' ∉ second.toList)
    (hmarkers : Even ((first.toList.splitOn '\n').countP fun line => isBlockMarker (trim line)))
    (hheading : ∀ line, (second.toList.splitOn '\n').find? (fun line => !(trim line).isEmpty) = some line →
      line.head? = some '#') (before after : List (List Node)) :
    ∃ whole, Markup.parse (first ++ "\n" ++ second) = .ok whole ∧
      Model.ofDocuments (before ++ nodes :: nodes' :: after) = Model.ofDocuments (before ++ whole :: after) := by
  have hclosed : blockAfter false (first.toList.splitOn '\n') = false := by
    simpa [blockAfter_eq] using hmarkers
  obtain ⟨es, es', rfl, rfl, hwhole, hbare, hlead⟩ :=
    parse_append hfirst hsecond hreturn hreturn' hclosed hheading
  have hdeclared : declarations (nest (es ++ es')) = declarations (nest es) ++ declarations (nest es') := by
    rw [declarations_nest _ hbare, declarations_nest _ fun e he => hbare e (List.mem_append_left _ he),
      declarations_nest _ fun e he => hbare e (List.mem_append_right _ he), declared_append hlead]
  refine ⟨_, hwhole, ?_⟩
  simp only [Model.ofDocuments, Drafts.foldlM_feed, List.flatMap_append, List.flatMap_cons, hdeclared,
    List.append_assoc]

/-- The headings of a second document may come under those of the first. The members that they declare are
those of the same class. -/
theorem ofDocuments_consecutive_nested :
    let code : Node := .code "js" ["# x"]
    let nodes : List Node := [.heading 1 "class: A" [code]]
    let nodes' : List Node := [.heading 2 "method: A.a" [], .heading 1 "class: B" []]
    let whole : List Node := [.heading 1 "class: A" [code, .heading 2 "method: A.a" []], .heading 1 "class: B" []]
    let method : Member := Member.ofName .method "a" (some (ApiType.plain "void"))
    Markup.parse "# class: A\n```js\n# x\n```" = .ok nodes ∧
      Markup.parse "\n## method: A.a\n# class: B" = .ok nodes' ∧
      Markup.parse "# class: A\n```js\n# x\n```\n\n## method: A.a\n# class: B" = .ok whole ∧
      Model.ofDocuments [nodes, nodes'] = Model.ofDocuments [whole] ∧
      Model.ofDocuments [whole] = .ok
        ⟨[{ ApiClass.ofMembers "A" none [method] with docs := [code] }, ApiClass.ofMembers "B" none []]⟩ := by
  intro code nodes nodes' whole method
  have hfirst : Markup.parse "# class: A\n```js\n# x\n```" = .ok nodes :=
    (Markup.parse_of_toList String.toList_ofList).trans rfl
  have hsecond : Markup.parse "\n## method: A.a\n# class: B" = .ok nodes' :=
    (Markup.parse_of_toList String.toList_ofList).trans rfl
  have hwhole : Markup.parse "# class: A\n```js\n# x\n```\n\n## method: A.a\n# class: B" = .ok whole :=
    (Markup.parse_of_toList String.toList_ofList).trans rfl
  obtain ⟨parsed, hparsed, hsame⟩ := Model.ofDocuments_consecutive hfirst hsecond (by decide) (by decide) (by decide)
    (fun line hline => by cases hline; rfl) [] []
  obtain rfl : parsed = whole := Except.ok.inj (hparsed.symm.trans hwhole)
  exact ⟨hfirst, hsecond, hwhole, hsame, by decide +kernel⟩

end RefPages
