/-
Tables of contents read off the headings of a text in a row. Under a heading of the first level and at
the top of a forest stand the headings of the second level, and under one of these the headings of the
third level up to the next heading of at most two signs, whatever levels are passed over between them.
-/
import RefPages.Markup.Contents
import RefPages.Proofs.Markup.Parent

namespace RefPages.Markup

open RefPages.Text

/-! ## Anchors -/

/-- What an anchor has in place of a character in small letters: a hyphen for a blank, and nothing for a
character that is no letter, no digit, no hyphen and no underscore. -/
def anchorChar? (c : Char) : Option Char :=
  if c = ' ' then some '-'
  else if isAlphanumeric c = true ∨ c = '-' ∨ c = '_' then some c
  else none

/-- The anchor of a heading is spelled from its small letters, one by one. -/
theorem toList_slug (text : String) : (slug text).toList = (lower text.toList).filterMap anchorChar? := by
  rw [slug, String.toList_ofList, ← List.filterMap_eq_filter, List.map_filterMap]
  refine List.filterMap_congr fun c _ => ?_
  by_cases hblank : c = ' '
  · simp [anchorChar?, hblank]
  · simp [anchorChar?, hblank, or_assoc, Option.guard]

/-! ## Headings in a row -/

/-- The level and the text of an entry that is a heading. -/
def Entry.heading? : Entry → Option (Nat × String)
  | .heading level text => some (level, text)
  | .block .. => none

/-- The levels and the texts of the headings among entries, in order. -/
def headingsOf (entries : List Entry) : List (Nat × String) := entries.filterMap Entry.heading?

/-- The texts of the headings of the third level. -/
def thirdLevel (headings : List (Nat × String)) : List String :=
  (headings.filter (·.1 = 3)).map (·.2)

/-- The texts of the headings of the second level among headings in a row, each with those of the third level
that follow it before the next heading of at most two signs. -/
def chapters : List (Nat × String) → List (String × List String)
  | [] => []
  | (level, text) :: rest =>
    if level = 2 then (text, thirdLevel (rest.takeWhile (2 < ·.1))) :: chapters rest
    else chapters rest

/-- A line of a table of contents: the text of a heading in brackets and its anchor after them, with other
lines below. -/
def linkTo (text : String) (below : List Node) : Node :=
  .item .dash ("[" ++ text ++ "](#" ++ slug text ++ ")") below

/-- The line for a heading of the second level, with lines for those of the third level below it when the
table goes deep. -/
def chapterLine (deep : Bool) (chapter : String × List String) : Node :=
  linkTo chapter.1 (if deep then chapter.2.map (linkTo · []) else [])

variable {deep : Bool} {headings more : List (Nat × String)}

theorem takeWhile_eq_nil_of_head (h : ∀ next ∈ more.head?, next.1 ≤ 2) : more.takeWhile (2 < ·.1) = [] := by
  cases more with
  | nil => rfl
  | cons next more => simp [h next rfl]

/-- A heading of at most two signs ends what is under the headings before it. -/
theorem chapters_append (h : ∀ next ∈ more.head?, next.1 ≤ 2) :
    chapters (headings ++ more) = chapters headings ++ chapters more := by
  induction headings with
  | nil => rfl
  | cons heading headings ih =>
    obtain ⟨level, text⟩ := heading
    have htake : (headings ++ more).takeWhile (2 < ·.1) = headings.takeWhile (2 < ·.1) := by
      rw [List.takeWhile_append, takeWhile_eq_nil_of_head h]
      split
      · rename_i hall
        rw [List.append_nil, (List.takeWhile_prefix _).eq_of_length hall]
      · rfl
    rw [List.cons_append, chapters, chapters, htake, ih]
    split
    · rw [List.cons_append]
    · rfl

/-- Deep headings have no lines of their own. -/
theorem chapters_append_of_deep (h : ∀ heading ∈ headings, 2 < heading.1) :
    chapters (headings ++ more) = chapters more := by
  induction headings with
  | nil => rfl
  | cons heading headings ih =>
    obtain ⟨level, text⟩ := heading
    obtain ⟨hlevel, hrest⟩ := List.forall_mem_cons.1 h
    have hne : level ≠ 2 := (Nat.ne_of_lt hlevel).symm
    rw [List.cons_append, chapters, if_neg hne, ih hrest]

/-- A heading of the second level and the deep headings after it make one chapter. -/
theorem chapters_cons_append {text : String} (hdeep : ∀ heading ∈ headings, 2 < heading.1)
    (h : ∀ next ∈ more.head?, next.1 ≤ 2) :
    chapters ((2, text) :: (headings ++ more)) = (text, thirdLevel headings) :: chapters more := by
  rw [chapters, if_pos rfl, List.takeWhile_append_of_pos fun heading hmem => decide_eq_true (hdeep heading hmem),
    takeWhile_eq_nil_of_head h, List.append_nil, chapters_append_of_deep hdeep]

/-! ## Headings that nest -/

variable {es : List Entry} {level : Nat} {text : String}

theorem headingsOf_cons_heading : headingsOf (.heading level text :: es) = (level, text) :: headingsOf es := rfl

theorem headingsOf_split (p : Entry → Bool) (es : List Entry) :
    headingsOf (es.takeWhile p) ++ headingsOf (es.dropWhile p) = headingsOf es := by
  rw [headingsOf, headingsOf, ← List.filterMap_append, List.takeWhile_append_dropWhile, headingsOf]

/-- A heading holds headings with more signs only. -/
theorem lt_of_mem_headingsOf_held {heading : Nat × String}
    (h : heading ∈ headingsOf (es.takeWhile (Entry.heading level text).holds)) : level < heading.1 := by
  obtain ⟨e, he, hheading⟩ := List.mem_filterMap.1 h
  have hholds := List.mem_takeWhile_imp he
  cases e with
  | heading other otherText =>
    cases hheading
    simpa [Entry.holds] using hholds
  | block => cases hheading

/-- The first heading that a heading does not hold has no more signs. -/
theorem le_of_mem_head?_headingsOf {heading : Nat × String}
    (h : heading ∈ (headingsOf (es.dropWhile (Entry.heading level text).holds)).head?) : heading.1 ≤ level := by
  have hnext := List.head?_dropWhile_not (Entry.heading level text).holds es
  cases hrest : es.dropWhile (Entry.heading level text).holds with
  | nil => simp [hrest, headingsOf] at h
  | cons next rest =>
    rw [hrest] at h hnext
    cases next with
    | heading other otherText =>
      cases h
      simpa [Entry.holds] using hnext
    | block => simp [Entry.holds] at hnext

/-- What is no heading holds no headings. -/
theorem headingsOf_held_block {indent : Nat} {node : Node} :
    headingsOf (es.takeWhile (Entry.block indent node).holds) = [] := by
  rw [headingsOf, List.filterMap_eq_nil_iff]
  intro e he
  have hholds := List.mem_takeWhile_imp he
  cases e with
  | heading => cases node <;> cases hholds
  | block => rfl

/-- The headings after a block are all after what it holds. -/
theorem headingsOf_cons_block {indent : Nat} {node : Node} :
    headingsOf (.block indent node :: es) = headingsOf (es.dropWhile (Entry.block indent node).holds) := by
  have hskip : headingsOf (.block indent node :: es) = headingsOf es := rfl
  rw [hskip, ← headingsOf_split (Entry.block indent node).holds es, headingsOf_held_block, List.nil_append]

/-- Under a heading of the second level all headings of the third level stand next to each other. -/
theorem nestedContents_nest (es : List Entry) (hbare : ∀ e ∈ es, e.Bare)
    (hdeep : ∀ heading ∈ headingsOf es, 2 < heading.1) :
    nestedContents (nest es) = (thirdLevel (headingsOf es)).map (linkTo · []) := by
  induction es using nest_induction with
  | nil => rfl
  | cons e es _ ihrest =>
    obtain ⟨he, hes⟩ := List.forall_mem_cons.1 hbare
    have hbareRest : ∀ a ∈ es.dropWhile e.holds, a.Bare := fun a ha => hes a ((List.dropWhile_sublist _).mem ha)
    rw [nest_cons]
    cases e with
    | heading level text =>
      rw [headingsOf_cons_heading, List.forall_mem_cons] at hdeep
      obtain ⟨hlevel, hdeep⟩ := hdeep
      rw [← headingsOf_split (Entry.heading level text).holds es, List.forall_mem_append] at hdeep
      -- what it holds is deeper still
      have hheld : (headingsOf (es.takeWhile (Entry.heading level text).holds)).filter (·.1 = 3) = [] := by
        rw [List.filter_eq_nil_iff]
        intro heading hheading
        have := lt_of_mem_headingsOf_held hheading
        simp only [decide_eq_true_eq]
        omega
      rw [headingsOf_cons_heading, ← headingsOf_split (Entry.heading level text).holds es, thirdLevel,
        List.filter_cons, List.filter_append, hheld, List.nil_append, Entry.over]
      by_cases hthree : level = 3
      · subst hthree
        rw [nestedContents, ihrest hbareRest hdeep.2, decide_eq_true rfl, if_pos rfl, List.map_cons, List.map_cons,
          thirdLevel]
        rfl
      · rw [nestedContents, ihrest hbareRest hdeep.2, decide_eq_false hthree, if_neg Bool.false_ne_true, thirdLevel]
        exact fun _ _ heq => hthree (by cases heq; rfl)
    | block indent node =>
      rw [headingsOf_cons_block] at hdeep ⊢
      rw [← ihrest hbareRest hdeep]
      cases node with
      | heading => cases he.1
      | _ => rfl

/-- The table of contents of nested entries has the lines for their headings in a row. -/
theorem contents_nest (es : List Entry) (hbare : ∀ e ∈ es, e.Bare) :
    contents deep (nest es) = (chapters (headingsOf es)).map (chapterLine deep) := by
  induction es using nest_induction with
  | nil => rfl
  | cons e es ihheld ihrest =>
    obtain ⟨he, hes⟩ := List.forall_mem_cons.1 hbare
    have hbareHeld : ∀ a ∈ es.takeWhile e.holds, a.Bare := fun a ha => hes a ((List.takeWhile_sublist _).mem ha)
    have hrest := ihrest fun a ha => hes a ((List.dropWhile_sublist _).mem ha)
    rw [nest_cons, contents, hrest]
    cases e with
    | heading level text =>
      have hheld : ∀ heading ∈ headingsOf (es.takeWhile (Entry.heading level text).holds), level < heading.1 :=
        fun _ => lt_of_mem_headingsOf_held
      have hnext : ∀ next ∈ (headingsOf (es.dropWhile (Entry.heading level text).holds)).head?, next.1 ≤ level :=
        fun _ => le_of_mem_head?_headingsOf
      rw [headingsOf_cons_heading, ← headingsOf_split (Entry.heading level text).holds es, Entry.over, contentsOf]
      rcases Nat.lt_trichotomy level 2 with hlevel | rfl | hlevel
      · -- what the heading holds is listed in its place
        rw [if_pos hlevel, ihheld hbareHeld, chapters, if_neg hlevel.ne,
          chapters_append fun next h => (hnext next h).trans hlevel.le, List.map_append]
      · rw [if_neg (Nat.lt_irrefl 2), if_pos rfl, nestedContents_nest _ hbareHeld hheld,
          chapters_cons_append hheld hnext, List.map_cons]
        rfl
      · rw [if_neg (Nat.not_lt.2 hlevel.le), if_neg hlevel.ne', chapters, if_neg hlevel.ne',
          chapters_append_of_deep fun heading h => hlevel.trans (hheld heading h), List.nil_append]
    | block indent node =>
      rw [headingsOf_cons_block]
      cases node with
      | heading => cases he.1
      | _ => rfl

/-! ## Documents -/

/-- The table of contents of a text has one line for each heading of the second level in order. The line has the
text of the heading and a link to its anchor, and below it, when the table goes deep, stand the lines for the
headings of the third level that follow before the next heading of at most two signs. -/
theorem contents_of_parse {text : String} {nodes : List Node} (h : parse text = .ok nodes) (deep : Bool) :
    ∃ items, (∀ other, Items (logicalLines text.toList) other ↔ other = items) ∧
      contents deep nodes = (chapters (headingsOf items)).map (chapterLine deep) ∧
      ∀ heading ∈ headingsOf items,
        (slug heading.2).toList = (lower heading.2.toList).filterMap anchorChar? := by
  obtain ⟨items, hentries, hnest⟩ := bind_eq_ok.1 h
  cases hnest
  refine ⟨items, fun other => ?_, contents_nest items (bare_of_items (entries_eq_ok_iff.1 hentries)),
    fun heading _ => toList_slug heading.2⟩
  rw [← entries_eq_ok_iff, hentries, Except.ok.injEq, eq_comm]

/-- Levels may be passed over, in both directions, and code has no headings. -/
theorem contents_of_parse_skipped :
    let text := "### A\n# B\n## Do it, now_\n#### F\n### G-1\n```\n## H\n```\n### I\n# J\n### K\n## L"
    let nodes : List Node :=
      [.heading 3 "A" [],
        .heading 1 "B" [.heading 2 "Do it, now_"
          [.heading 4 "F" [], .heading 3 "G-1" [.code "" ["## H"]], .heading 3 "I" []]],
        .heading 1 "J" [.heading 3 "K" [], .heading 2 "L" []]]
    parse text = .ok nodes ∧
      contents false nodes = [.item .dash "[Do it, now_](#do-it-now_)" [], .item .dash "[L](#l)" []] ∧
      contents true nodes =
        [.item .dash "[Do it, now_](#do-it-now_)" [.item .dash "[G-1](#g-1)" [], .item .dash "[I](#i)" []],
          .item .dash "[L](#l)" []] ∧
      ∃ items, headingsOf items =
          [(3, "A"), (1, "B"), (2, "Do it, now_"), (4, "F"), (3, "G-1"), (3, "I"), (1, "J"), (3, "K"), (2, "L")] ∧
        (∀ other, Items (logicalLines text.toList) other ↔ other = items) ∧
        contents true nodes = (chapters (headingsOf items)).map (chapterLine true) ∧
        ∀ heading ∈ headingsOf items,
          (slug heading.2).toList = (lower heading.2.toList).filterMap anchorChar? := by
  intro text nodes
  have h : parse text = .ok nodes := by decide +kernel
  obtain ⟨items, hitems, hcontents⟩ := contents_of_parse h true
  have hread : entries (logicalLines text.toList) = .ok items := entries_eq_ok_iff.2 ((hitems items).2 rfl)
  have hheadings : (entries (logicalLines text.toList)).map headingsOf =
      .ok [(3, "A"), (1, "B"), (2, "Do it, now_"), (4, "F"), (3, "G-1"), (3, "I"), (1, "J"), (3, "K"), (2, "L")] := by
    decide +kernel
  rw [hread] at hheadings
  exact ⟨h, by decide +kernel, by decide +kernel, items, Except.ok.inj hheadings, hitems, hcontents⟩

end RefPages.Markup
