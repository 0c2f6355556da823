/-
Rendering at a width. What is read where a forest was rendered at some width is the forest again when
each entry is found where it is written and no paragraph that stands tight after another one goes on with
it. Both show in the entries one by one, and only the second depends on the width.
-/
import RefPages.Proofs.Markup.Found
import RefPages.Proofs.Markup.Reparse

namespace RefPages.Markup

open RefPages.Text

/-! ## Tight paragraphs -/

/-- Whether two entries are link target definitions without indentation. Right after one another they are
written without an empty line between them. -/
def bothDefine : Entry → Entry → Bool
  | .block 0 (.paragraph before), .block 0 (.paragraph text) =>
    isLinkDefinition before.toList && isLinkDefinition text.toList
  | _, _ => false

/-- An entry does not go on with the one before it: of two link target definitions the first line of the
second, on which its label may be broken off, still ends the paragraph. -/
def Stands (width : Nat) (last e : Entry) : Prop :=
  bothDefine last e = true → ∀ line ∈ ((e.line width).splitOn '\n').head?, endsParagraph line = true

instance (width : Nat) (last e : Entry) : Decidable (Stands width last e) :=
  inferInstanceAs (Decidable (_ → ∀ line ∈ _, _))

theorem bothDefine_eq_true {last e : Entry} (h : bothDefine last e = true) :
    ∃ before text, last = .block 0 (.paragraph before) ∧ e = .block 0 (.paragraph text) ∧
      isLinkDefinition before.toList = true ∧ isLinkDefinition text.toList = true := by
  unfold bothDefine at h
  split at h
  · obtain ⟨hbefore, htext⟩ := Bool.and_eq_true_iff.1 h
    exact ⟨_, _, rfl, rfl, hbefore, htext⟩
  · cases h

theorem stands_of_not_goesOn {width : Nat} {last e : Entry} (h : e.goesOn = false) :
    Stands width last e := fun hboth => by
  obtain ⟨before, text, -, rfl, -⟩ := bothDefine_eq_true hboth
  cases h

/-- The entry whose line other lines may go on with, if the last one is such. -/
def pending (last? : Option Entry) : List Entry := last?.toList.filter Entry.goesOn

theorem pending_of_not_goesOn {e : Entry} (h : e.goesOn = false) : pending (some e) = [] := by
  simp [pending, h]

theorem pending_of_goesOn {e : Entry} (h : e.goesOn = true) : pending (some e) = [e] := by
  simp [pending, h]

theorem startsAfresh_item {n : Nat} {marker : Marker} {text : String} (h : IsWords text) :
    startsAfresh (trim ((Entry.block n (.item marker text [])).line 0)) = true := by
  have hline :
      (Entry.block n (.item marker text [])).line 0 = spaces n ++ marker.symbol.toList ++ ' ' :: text.toList := by
    rw [Entry.line, wrapChars_zero h.oneLine.1]
    simp
  have hsolid : Solid marker.symbol.toList := by
    cases marker
    · exact ⟨⟨'-', [], rfl, by decide⟩, ⟨[], '-', rfl, by decide⟩⟩
    · exact ⟨⟨'*', [], rfl, by decide⟩, ⟨[], '*', rfl, by decide⟩⟩
    · exact ⟨⟨'1', ['.'], rfl, by decide⟩, ⟨['1'], '.', rfl, by decide⟩⟩
  rw [hline]
  refine List.any_eq_true.2 ⟨_, ?_, startsWith_trim hsolid isBlank_of_mem_spaces _⟩
  cases marker <;> simp [Marker.symbol]

section

variable {width : Nat} {e : Entry} {last? : Option Entry} {paragraph : List (List Char)}
  {first : List Char} {n : Nat} {rest : List (List (List Char))}

/-- An entry that is a line comes after an empty line, ends the paragraph or finds none, unless it is the
second of two link target definitions. -/
theorem gap_or_ends (hfit : e.Fit) (hgoes : e.goesOn = true)
    (hlaid : Laid (asRead (e.written width)) (e.line 0) first n rest)
    (hparagraph : joinParagraph paragraph = (pending last?).map (Entry.line 0)) :
    gapBefore last? e = [[]] ∨ gapBefore last? e = [] ∧ (endsParagraph first = true ∨ paragraph = [] ∨
      ∃ last ∈ last?, bothDefine last e = true) := by
  have hworded := hfit.worded
  have hafresh : startsAfresh (trim (e.line 0)) = true → endsParagraph first = true := fun h => by
    rw [← hlaid.startsAfresh_eq] at h
    simp [endsParagraph, h]
  cases e with
  | heading => cases hgoes
  | block m node =>
    cases node with
    | item marker text children =>
      obtain rfl : children = [] := hfit.bare.2
      exact .inr ⟨rfl, .inl (hafresh (startsAfresh_item hworded))⟩
    | paragraph text =>
      by_cases htight : tightAfter m text last? = true
      · refine .inr ⟨if_pos htight, ?_⟩
        unfold tightAfter at htight
        split at htight
        · rename_i before
          obtain ⟨hzero, htight⟩ := Bool.and_eq_true_iff.1 htight
          obtain rfl : m = 0 := of_decide_eq_true hzero
          rcases startsAfresh_of_isTight (n := 0) htight with h | ⟨htext, other, heq, hbefore⟩
          · refine .inl (hafresh ?_)
            rwa [Entry.line, wrapChars_zero (show IsWords text from hworded).oneLine.1]
          · cases heq
            exact .inr (.inr ⟨_, rfl, Bool.and_eq_true_iff.2 ⟨hbefore, htext⟩⟩)
        · cases htight
      · have hgap : gapBefore last? (.block m (.paragraph text)) = gap (blankAfter last?) := if_neg htight
        cases hblank : blankAfter last? with
        | false => exact .inl (by rw [hgap, hblank]; rfl)
        | true =>
          -- nothing has been written, or a block and an empty line
          have hpending : pending last? = [] := by
            cases last? with
            | none => rfl
            | some last =>
              obtain ⟨opened, hopened⟩ := Option.isSome_iff_exists.1 hblank
              exact pending_of_not_goesOn (goesOn_of_opened? hopened)
          rw [hpending] at hparagraph
          exact .inr ⟨by rw [hgap, hblank]; rfl, .inr (.inl (joinParagraph_eq_nil hparagraph))⟩
    | _ => cases hgoes

end

/-- The second of two link target definitions is read from its lines as they are written. -/
theorem asRead_written_of_bothDefine {last e : Entry} (hfit : e.Fit) (h : bothDefine last e = true) (width : Nat) :
    asRead (e.written width) = (e.line width).splitOn '\n' := by
  obtain ⟨before, text, -, rfl, -⟩ := bothDefine_eq_true h
  exact (asRead_written rfl width).trans (map_dropReturn_wrappedLines width 0 hfit.worded)

/-- What is read where an entry that is a line is written, when it does not go on with the one before it. -/
theorem exists_leaves {width : Nat} {e : Entry} {last? : Option Entry} {paragraph : List (List Char)} (hfit : e.Fit)
    (hgoes : e.goesOn = true) (hsign : (e.line 0).head? ≠ some '#')
    (hparagraph : joinParagraph paragraph = (pending last?).map (Entry.line 0))
    (hstands : ∀ last ∈ last?, Stands width last e) (more : List (List Char)) :
    ∃ after, joinParagraph after = [e.line 0] ∧
      logicalFrom false paragraph (gapBefore last? e ++ asRead (e.written width) ++ more) =
        joinParagraph paragraph ++ logicalFrom false after more := by
  have hlined := hfit.lined hgoes
  obtain ⟨first, n, rest, hlaid⟩ := hlined.laid width
  rcases gap_or_ends hfit hgoes hlaid hparagraph with hgap | ⟨hgap, hends⟩
  · obtain ⟨after, hafter, heq⟩ := hlaid.logicalFrom_eq hsign hlined.marker (.inr (Eq.refl [])) more
    refine ⟨after, hafter, ?_⟩
    rw [hgap, List.append_assoc, List.singleton_append, logicalFrom_nil_line, heq]
    rfl
  · have hends : endsParagraph first = true ∨ paragraph = [] := by
      rcases hends with h | h | ⟨last, hlast, hboth⟩
      · exact .inl h
      · exact .inr h
      · have hlines := asRead_written_of_bothDefine hfit hboth width
        exact .inl (hstands last hlast hboth first (by rw [← hlines, hlaid.cut]; rfl))
    rw [hgap, List.nil_append]
    exact hlaid.logicalFrom_eq hsign hlined.marker hends more

/-- A link target definition that does not stand goes on with the one before it. -/
theorem exists_sunk {width : Nat} {last e : Entry} {paragraph : List (List Char)} (hfit : e.Fit)
    (hparagraph : joinParagraph paragraph = (pending (some last)).map (Entry.line 0)) (h : ¬ Stands width last e)
    (more : List (List Char)) :
    (∃ before, last = .block 0 (.paragraph before)) ∧
      ∃ tail others, logicalFrom false paragraph (gapBefore (some last) e ++ asRead (e.written width) ++ more) =
        (last.line 0 ++ ' ' :: tail) :: others := by
  unfold Stands at h
  push Not at h
  obtain ⟨hboth, line, hline, hends⟩ := h
  have hlines := asRead_written_of_bothDefine hfit hboth width
  obtain ⟨rest, hrest⟩ := List.head?_eq_some_iff.1 hline
  obtain ⟨before, text, rfl, rfl, hbefore, htext⟩ := bothDefine_eq_true hboth
  refine ⟨⟨before, rfl⟩, ?_⟩
  have hgap : gapBefore (some (.block 0 (.paragraph before))) (.block 0 (.paragraph text)) = [] := by
    simp [gapBefore, tightAfter, isTight, hbefore, htext]
  have hjoined : joinParagraph paragraph = [(Entry.block 0 (.paragraph before)).line 0] := hparagraph
  have hne : paragraph ≠ [] := by
    rintro rfl
    cases hjoined
  rw [joinParagraph, if_neg hne, List.cons.injEq] at hjoined
  obtain ⟨tail, others, hlonger⟩ := exists_longer (rest ++ more) (paragraph ++ [trim line]) (by simp)
  refine ⟨trim line ++ tail, others, ?_⟩
  rw [hgap, hlines, hrest, List.nil_append, List.cons_append,
    logicalFrom_next _ _ (Bool.eq_false_of_not_eq_true hends) hne, hlonger, intercalate_append_singleton hne, hjoined.1]
  simp

/-! ## Reading all entries -/

theorem node_entry_ne (block : OpenBlock) (text : String) : block.entry.node ≠ .paragraph text := by
  show block.node ≠ _
  unfold OpenBlock.node
  split <;> simp

/-- A line that goes on is not read as the paragraph it begins with. -/
theorem head?_items_ne {before : String} {tail : List Char} {lines : List (List Char)} {items : List Entry}
    (hsolid : Solid before.toList) (h : Items ((before.toList ++ ' ' :: tail) :: lines) items) :
    (items.map Entry.node).head? ≠ some (.paragraph before) := by
  have hcontent : contentOf (before.toList ++ ' ' :: tail) = before.toList ++ ' ' :: tail := by
    obtain ⟨c, rest, hfirst, hc⟩ := hsolid.first
    have hspace : c ≠ ' ' := by
      rintro rfl
      rw [isBlank_space] at hc
      cases hc
    simp [contentOf, hfirst, hspace]
  rcases items_of_cons h with ⟨-, others, -, rfl⟩ | ⟨-, -, others, -, rfl⟩ | ⟨-, block, -, hcloses⟩
  · rintro ⟨⟩
  · intro hnode
    have hnode : lineNode (contentOf (before.toList ++ ' ' :: tail)) = .paragraph before := by
      simpa [Entry.node] using hnode
    have hlength := congrArg (fun text => text.toList.length) (eq_of_lineNode hnode)
    simp [hcontent] at hlength
  · obtain ⟨body, inner, closing, rest, others, -, -, -, -, -, rfl⟩ := hcloses
    intro hnode
    exact node_entry_ne _ _ (Option.some.inj hnode)

theorem isChain_toList_append {α : Type} {R : α → α → Prop} {a? : Option α} {b : α} {bs : List α} :
    (a?.toList ++ b :: bs).IsChain R ↔ (∀ a ∈ a?, R a b) ∧ (b :: bs).IsChain R := by
  cases a? <;> simp

/-- What is read where some entries are written after the entry `last?`, when each is found and stands. -/
theorem logicalFrom_linesFrom {width : Nat} : ∀ {es : List Entry} {last? : Option Entry} {paragraph : List (List Char)},
    (∀ e ∈ es, e.Fit ∧ e.Found width) → (last?.toList ++ es).IsChain (Stands width) →
    joinParagraph paragraph = (pending last?).map (Entry.line 0) →
    logicalFrom false paragraph (linesFrom width last? es) = joinParagraph paragraph ++ es.flatMap (Entry.logical width)
  | [], last?, paragraph, _, _, _ => by
    rw [linesFrom]
    cases blankAfter last? with
    | true => simp [gap, logicalFrom]
    | false => exact logicalFrom_nil_line paragraph []
  | e :: es, last?, paragraph, hes, hchain, hparagraph => by
    obtain ⟨⟨hfit, hfound⟩, hes⟩ := List.forall_mem_cons.1 hes
    obtain ⟨hstands, hchain⟩ := isChain_toList_append.1 hchain
    have hrest : ∀ {after}, joinParagraph after = (pending (some e)).map (Entry.line 0) →
        logicalFrom false after (linesFrom width (some e) es) = _ := logicalFrom_linesFrom hes hchain
    rw [linesFrom, List.flatMap_cons]
    rcases hfit.bare.cases with ⟨level, text, rfl⟩ | hgoes | ⟨opened, hopened⟩
    · rw [logicalFrom_heading _ _ _ hfit.drawn.1 hfit.drawn.2, hrest rfl]
      rfl
    · have hlogical := logical_of_goesOn (hfit.lined hgoes) hgoes width
      have hsign := sign_ne_of_items hgoes (hlogical ▸ hfound.items) rfl
      obtain ⟨after, hafter, heq⟩ := exists_leaves hfit hgoes hsign hparagraph hstands (linesFrom width (some e) es)
      rw [heq, hrest (by rw [hafter, pending_of_goesOn hgoes]; rfl), hafter, hlogical]
    · obtain ⟨n, hopens⟩ := hfit.opens hopened
      have hnone : pending (some e) = [] := pending_of_not_goesOn (goesOn_of_opened? hopened)
      rw [logicalFrom_opened _ _ _ hopens hopened, hfound.paired, Bool.not_true, logicalFrom_nil_line,
        hrest (by rw [hnone]; rfl)]
      rfl

theorem items_flatMap_logical {width : Nat} : ∀ {es : List Entry}, (∀ e ∈ es, e.Found width) →
    Items (es.flatMap (Entry.logical width)) es
  | [], _ => .nil
  | e :: es, h => by
    obtain ⟨he, hes⟩ := List.forall_mem_cons.1 h
    exact he.items.append (items_flatMap_logical hes)

/-- The pending line is read as the entry it is of. -/
theorem found_of_pending (width : Nat) {last? : Option Entry} (hfit : ∀ e ∈ pending last?, e.Fit)
    {lines : List (List Char)} {items es : List Entry}
    (h : Items ((pending last?).map (Entry.line 0) ++ lines) items)
    (hnodes : items.map Entry.node = (pending last? ++ es).map Entry.node) :
    (∀ e ∈ pending last?, e.Found width) ∧
      ∃ others, Items lines others ∧ others.map Entry.node = es.map Entry.node := by
  cases hpending : pending last? with
  | nil =>
    rw [hpending] at h hnodes
    exact ⟨by simp, items, h, hnodes⟩
  | cons e others =>
    have hmem : ∀ a ∈ pending last?, a.goesOn = true := fun a ha => by simpa using (List.mem_filter.1 ha).2
    obtain rfl : others = [] := by
      have hlength : (pending last?).length ≤ 1 := (List.length_filter_le _ _).trans (by cases last? <;> simp)
      rw [hpending] at hlength
      simpa using hlength
    rw [hpending] at h hnodes hfit hmem
    rw [List.forall_mem_singleton] at hfit hmem ⊢
    have hlogical := logical_of_goesOn (hfit.lined hmem) hmem width
    have hline : Items (e.logical width ++ lines) items := by
      rw [hlogical]
      exact h
    obtain ⟨hfound, hothers⟩ := found_of_items hfit hline hnodes
    exact ⟨⟨paired_of_goesOn hmem width, hfound⟩, hothers⟩

/-- After a block that is left open the empty line would be read as a paragraph. -/
theorem paired_of_items {es items : List Entry} (hes : ∀ e ∈ es, e.Fit) {paired : Bool} {more : List (List Char)}
    (h : Items (logicalFrom (!paired) [] ([] :: more)) items) (hnodes : items.map Entry.node = es.map Entry.node) :
    paired = true := by
  by_contra hopen
  obtain rfl : paired = false := by simpa using hopen
  rw [Bool.not_false, logicalFrom_inside] at h
  rcases items_of_cons h with ⟨hsign, -⟩ | ⟨-, -, others, -, rfl⟩ | ⟨-, block, hblock, -⟩
  · cases hsign
  · cases es with
    | nil => cases hnodes
    | cons e es =>
      have hnode : Node.paragraph "" = e.node := (List.cons.inj hnodes).1
      have hwords := (hes e List.mem_cons_self).worded
      rw [← hnode] at hwords
      exact hwords.solid.ne_nil rfl
  · cases hblock

section

variable {width : Nat} {e : Entry} {last? : Option Entry} {es items : List Entry} {paragraph more : List (List Char)}

/-- A line that begins with a sign would be read as a heading. -/
theorem sign_ne_of_linesFrom (hfit : ∀ a ∈ pending last?, a.Fit) (he : e.Fit) (hgoes : e.goesOn = true)
    (hparagraph : joinParagraph paragraph = (pending last?).map (Entry.line 0))
    (h : Items (logicalFrom false paragraph (gapBefore last? e ++ asRead (e.written width) ++ more)) items)
    (hnodes : items.map Entry.node = (pending last? ++ e :: es).map Entry.node) : (e.line 0).head? ≠ some '#' := by
  obtain ⟨first, n, rest, hlaid⟩ := (he.lined hgoes).laid width
  rw [← hlaid.head?_eq]
  intro hsign
  rw [List.append_assoc, hlaid.cut, List.cons_append,
    logicalFrom_gapBefore (fun paragraph => logicalFrom_sign paragraph _ hsign), hparagraph] at h
  obtain ⟨-, others, hothers, hnodes⟩ := found_of_pending width hfit h hnodes
  exact sign_ne_of_items hgoes hothers hnodes hsign

/-- A line that goes on with the one before it would be read as one paragraph with it. -/
theorem stands_of_linesFrom (hfit : ∀ a ∈ pending last?, a.Fit) (he : e.Fit)
    (hparagraph : joinParagraph paragraph = (pending last?).map (Entry.line 0))
    (h : Items (logicalFrom false paragraph (gapBefore last? e ++ asRead (e.written width) ++ more)) items)
    (hnodes : items.map Entry.node = (pending last? ++ e :: es).map Entry.node) :
    ∀ last ∈ last?, Stands width last e := by
  rintro last rfl
  by_contra hsinks
  obtain ⟨⟨before, rfl⟩, tail, others, hlines⟩ := exists_sunk he hparagraph hsinks more
  have hpending : pending (some (.block 0 (.paragraph before))) = [.block 0 (.paragraph before)] := rfl
  rw [hpending] at hfit hnodes
  have hwords : IsWords before := (hfit _ List.mem_cons_self).worded
  have hline : (Entry.block 0 (.paragraph before)).line 0 = before.toList := wrapChars_zero hwords.oneLine.1
  rw [hlines, hline] at h
  refine head?_items_ne hwords.solid h ?_
  rw [hnodes]
  rfl

end

/-- When reading gives nodes of the entries that were written, each entry is found and stands. -/
theorem found_of_linesFrom {width : Nat} : ∀ {es : List Entry} {last? : Option Entry} {paragraph : List (List Char)}
    {items : List Entry}, (∀ e ∈ pending last? ++ es, e.Fit) →
    joinParagraph paragraph = (pending last?).map (Entry.line 0) →
    Items (logicalFrom false paragraph (linesFrom width last? es)) items →
    items.map Entry.node = (pending last? ++ es).map Entry.node →
    (∀ e ∈ pending last? ++ es, e.Found width) ∧ (last?.toList ++ es).IsChain (Stands width)
  | [], last?, paragraph, items, hfit, hparagraph, h, hnodes => by
    have hlines :
        logicalFrom false paragraph (linesFrom width last? []) = (pending last?).map (Entry.line 0) ++ [] := by
      rw [List.append_nil, ← hparagraph, linesFrom]
      cases blankAfter last? with
      | true => rfl
      | false => rw [gap, if_neg Bool.false_ne_true, logicalFrom_nil_line, logicalFrom]; simp [joinParagraph]
    rw [List.append_nil] at hfit ⊢
    rw [hlines] at h
    exact ⟨(found_of_pending width hfit h hnodes).1, by cases last? <;> simp⟩
  | e :: es, last?, paragraph, items, hfit, hparagraph, h, hnodes => by
    rw [List.forall_mem_append, List.forall_mem_cons] at hfit ⊢
    obtain ⟨hpending, he, hes⟩ := hfit
    rw [isChain_toList_append]
    rw [linesFrom] at h
    -- after a heading or a block nothing is pending
    have hrest : ∀ {others}, e.goesOn = false → Items (logicalFrom false [] (linesFrom width (some e) es)) others →
        others.map Entry.node = es.map Entry.node →
        (∀ a ∈ es, a.Found width) ∧ (e :: es).IsChain (Stands width) := fun hgoes hothers hnodes => by
      have hnone := pending_of_not_goesOn hgoes
      have := found_of_linesFrom (by rwa [hnone]) (by rw [hnone]; rfl) hothers (by rw [hnone]; exact hnodes)
      rwa [hnone] at this
    rcases he.bare.cases with ⟨level, text, rfl⟩ | hgoes | ⟨opened, hopened⟩
    · rw [logicalFrom_heading _ _ _ he.drawn.1 he.drawn.2, hparagraph] at h
      obtain ⟨hbefore, others, hothers, hnodes⟩ := found_of_pending width hpending h hnodes
      obtain ⟨hfound, others, hothers, hnodes⟩ := found_of_items he hothers hnodes
      obtain ⟨hesFound, hchain⟩ := hrest rfl hothers hnodes
      exact ⟨⟨hbefore, ⟨rfl, hfound⟩, hesFound⟩, fun _ _ => stands_of_not_goesOn rfl, hchain⟩
    · have hsign := sign_ne_of_linesFrom hpending he hgoes hparagraph h hnodes
      have hstands := stands_of_linesFrom hpending he hparagraph h hnodes
      obtain ⟨after, hafter, heq⟩ := exists_leaves he hgoes hsign hparagraph hstands (linesFrom width (some e) es)
      rw [heq, hparagraph] at h
      obtain ⟨hbefore, others, hothers, hnodes⟩ := found_of_pending width hpending h hnodes
      have hsome := pending_of_goesOn hgoes
      obtain ⟨hfound, hchain⟩ := found_of_linesFrom (by simpa [hsome] using ⟨he, hes⟩) (by rw [hafter, hsome]; rfl)
        hothers (by rw [hnodes, hsome]; rfl)
      rw [hsome, List.singleton_append, List.forall_mem_cons] at hfound
      exact ⟨⟨hbefore, hfound⟩, hstands, hchain⟩
    · obtain ⟨n, hopens⟩ := he.opens hopened
      have hgoes := goesOn_of_opened? hopened
      rw [logicalFrom_opened _ _ _ hopens hopened, hparagraph] at h
      obtain ⟨hbefore, others, hothers, hnodes⟩ := found_of_pending width hpending h hnodes
      obtain ⟨hfound, others, hothers, hnodes⟩ := found_of_items he hothers hnodes
      have hpaired := paired_of_items hes hothers hnodes
      rw [hpaired, Bool.not_true, logicalFrom_nil_line] at hothers
      obtain ⟨hesFound, hchain⟩ := hrest hgoes hothers hnodes
      exact ⟨⟨hbefore, ⟨hpaired, hfound⟩, hesFound⟩, fun _ _ => stands_of_not_goesOn hgoes, hchain⟩

/-! ## Rendered texts -/

theorem exists_items_of_parse {text : String} {nodes : List Node} (h : parse text = .ok nodes) :
    ∃ items, Items (logicalLines text.toList) items ∧ nest items = nodes := by
  obtain ⟨items, hentries, hnest⟩ := bind_eq_ok.1 h
  cases hnest
  exact ⟨items, entries_eq_ok_iff.1 hentries, rfl⟩

/-- Entries that are nested to the same forest have the same nodes. -/
theorem map_node_eq {es es' : List Entry} (h : ∀ e ∈ es, e.Bare) (h' : ∀ e ∈ es', e.Bare) (hnest : nest es = nest es') :
    es.map Entry.node = es'.map Entry.node := by
  rw [← preorderAll_nest es h, ← preorderAll_nest es' h', hnest]

theorem worded_withChildren {new : List Node} {node : Node} : (node.withChildren new).Worded ↔ node.Worded := by
  cases node <;> rfl

/-- The entries of a parsed forest of words. -/
structure Entrywise (nodes : List Node) : Prop where
  ranked : RankedAll 0 nodes
  order : nodes.Pairwise MayPrecede
  fit : ∀ e ∈ entriesOfAll 0 nodes, e.Fit

theorem entrywise_of_parse {text : String} {nodes : List Node} (h : parse text = .ok nodes)
    (hwords : ∀ node ∈ Node.preorderAll nodes, node.Worded) : Entrywise nodes := by
  obtain ⟨items, hitems, rfl⟩ := exists_items_of_parse h
  have hbareItems := bare_of_items hitems
  have hdrawn := drawn_of_logicalLines hitems
  obtain ⟨hranked, horder⟩ := ranked_nest items hbareItems fun level text he => (hdrawn _ he).1
  have hbare := bare_entriesOfAll 0 (nest items)
  have hnest := nest_entriesOfAll 0 _ horder hranked
  refine ⟨hranked, horder, fun e he => ⟨hbare e he, ?_, ?_⟩⟩
  · have hnode := List.mem_map_of_mem he (f := Entry.node)
    rw [map_node_eq hbare hbareItems hnest] at hnode
    obtain ⟨item, hitem, heq⟩ := List.mem_map.1 hnode
    rw [← heq]
    exact hdrawn item hitem
  · have hnode := List.mem_map_of_mem he (f := Entry.node)
    rw [← preorderAll_nest _ hbare, hnest] at hnode
    obtain ⟨node, hmem, heq⟩ := List.mem_map.1 hnode
    rw [← heq, worded_withChildren]
    exact hwords node hmem

section

variable {nodes : List Node} (h : Entrywise nodes) (width : Nat)

include h

/-- What a rendered forest of words is read from. -/
theorem Entrywise.logicalLines_eq : logicalLines (render width nodes).toList =
    logicalFrom false [] (linesFrom width none (entriesOfAll 0 nodes)) := by
  refine logicalLines_render h.ranked h.order fun e he hopened => ?_
  rcases (h.fit e he).bare.cases with ⟨level, text, rfl⟩ | hgoes | ⟨opened, hsome⟩
  · simp [Entry.line]
  · intro hnil
    obtain ⟨first, n, rest, hlaid⟩ := ((h.fit e he).lined hgoes).laid width
    have hcut := hlaid.cut
    rw [asRead_written hgoes, hnil] at hcut
    exact hlaid.running.ne_nil (List.cons.inj hcut).1.symm
  · rw [hopened] at hsome
    cases hsome

/-- A forest of words that is read again at some width has each of its entries found there, and none goes on
with the one before it. -/
theorem Entrywise.found_of_parse (hparse : parse (render width nodes) = .ok nodes) :
    (∀ e ∈ entriesOfAll 0 nodes, e.Found width) ∧ (entriesOfAll 0 nodes).IsChain (Stands width) := by
  obtain ⟨items, hitems, hnest⟩ := exists_items_of_parse hparse
  have hnodes := map_node_eq (bare_of_items hitems) (bare_entriesOfAll 0 nodes)
    (hnest.trans (nest_entriesOfAll 0 nodes h.order h.ranked).symm)
  rw [h.logicalLines_eq] at hitems
  exact found_of_linesFrom h.fit rfl hitems hnodes

theorem Entrywise.parse_of_found (hfound : ∀ e ∈ entriesOfAll 0 nodes, e.Found width)
    (hchain : (entriesOfAll 0 nodes).IsChain (Stands width)) : parse (render width nodes) = .ok nodes := by
  have hlines : logicalFrom false [] (linesFrom width none (entriesOfAll 0 nodes)) = _ :=
    logicalFrom_linesFrom (fun e he => ⟨h.fit e he, hfound e he⟩) hchain rfl
  have hentries : entries (joinParagraph [] ++ (entriesOfAll 0 nodes).flatMap (Entry.logical width)) = .ok _ :=
    entries_eq_ok_iff.2 (items_flatMap_logical hfound)
  rw [parse, forest, h.logicalLines_eq, hlines, hentries]
  exact congrArg Except.ok (nest_entriesOfAll 0 nodes h.order h.ranked)

end

/-- A forest that is rendered without wrapping and parsed again is rendered at any width and parsed again
exactly when every link target definition that is written right after another one still begins a paragraph. -/
theorem parse_render_width_iff {nodes : List Node} (h : parse (render 0 nodes) = .ok nodes)
    (hwords : ∀ node ∈ Node.preorderAll nodes, node.Worded) (width : Nat) :
    parse (render width nodes) = .ok nodes ↔ (entriesOfAll 0 nodes).IsChain (Stands width) := by
  have hentries := entrywise_of_parse h hwords
  refine ⟨fun hwidth => (hentries.found_of_parse width hwidth).2, fun hchain => ?_⟩
  have hfound := (hentries.found_of_parse 0 h).1
  exact hentries.parse_of_found width (fun e he => (hfound e he).of_zero (hentries.fit e he) width) hchain

/-- Two link target definitions, of which the second has a label of several words. -/
def definitions : List Node := [.paragraph "[x]: u", .paragraph "[b c d]: e"]

theorem worded_definitions : ∀ node ∈ Node.preorderAll definitions, node.Worded :=
  List.forall_mem_cons.2 ⟨isWords_of_all (by decide), List.forall_mem_singleton.2 (isWords_of_all (by decide))⟩

/-- In lines of eight bytes the label is kept together. -/
theorem parse_render_width_definitions :
    parse (render 0 definitions) = .ok definitions ∧ (∀ node ∈ Node.preorderAll definitions, node.Worded) ∧
      (entriesOfAll 0 definitions).IsChain (Stands 8) ∧ parse (render 8 definitions) = .ok definitions := by
  have h : parse (render 0 definitions) = .ok definitions := by rfl
  have hchain : (entriesOfAll 0 definitions).IsChain (Stands 8) := by decide
  exact ⟨h, worded_definitions, hchain, (parse_render_width_iff h worded_definitions 8).2 hchain⟩

/-- In shorter lines it is broken, and what is left of it on its first line goes on with the definition above. -/
theorem parse_render_width_broken :
    parse "[x]: u\n[b c d]: e" = .ok definitions ∧ parse (render 0 definitions) = .ok definitions ∧
      (∀ node ∈ Node.preorderAll definitions, node.Worded) ∧
      parse (render 1 definitions) = .ok [.paragraph "[x]: u [b c d]: e"] ∧
      parse (render 1 definitions) ≠ .ok definitions := by
  have hbroken : parse (render 1 definitions) = .ok [.paragraph "[x]: u [b c d]: e"] := by rfl
  refine ⟨by rfl, by rfl, worded_definitions, hbroken, fun hsame => ?_⟩
  rw [hbroken] at hsame
  simp [definitions] at hsame

end RefPages.Markup
