/-
Code samples and the text after them. A sample ends with the first line that begins with its own
fence, while every block marker, of whatever kind, switches the joining of lines off and on; so the
lines of a sample are kept when the markers among them come in pairs and what stands between the
two of a pair is kept by joining as well.
-/
import RefPages.Proofs.Markup.Legible

namespace RefPages.Markup

open RefPages.Text

/-! ## Code samples -/

/-- The lines of a code sample. -/
def sampleLines (info : String) (body : List String) : List (List Char) :=
  (codeFence ++ info.toList) :: body.map String.toList ++ [codeFence]

/-- A text that begins with a code sample. -/
def sampleText (info : String) (body : List String) (after : String) : String :=
  String.ofList (['\n'].intercalate (sampleLines info body) ++ '\n' :: after.toList)

/-- Markers on the first and the last line of a sample. -/
theorem isBlockMarker_codeFence (info : List Char) : isBlockMarker (trim (codeFence ++ info)) = true := by
  simpa [spaces, OpenBlock.fence] using OpenBlock.isBlockMarker_fence ⟨.code, [], [], 0, []⟩ 0 info

/-! ## Lines between markers -/

/-- Lines outside of blocks none of which is blank, loses white space at its end or goes on with the
paragraph before it. -/
structure Unjoined (lines : List (List Char)) : Prop where
  whole : ∀ line ∈ lines, line.head? = some '#' ∨ trim line ≠ [] ∧ trimEnd line = line
  apart : lines.IsChain fun line next => line.head? = some '#' ∨ endsParagraph next = true

/-- Lines inside a block that are kept: those that are no block markers, and pairs of markers around
lines that are no markers and are not joined. -/
inductive Kept : List (List Char) → Prop
  | nil : Kept []
  | line {line : List Char} {lines : List (List Char)} :
      isBlockMarker (trim line) = false → Kept lines → Kept (line :: lines)
  | pair {first second : List Char} {between lines : List (List Char)} :
      isBlockMarker (trim first) = true → (∀ line ∈ between, isBlockMarker (trim line) = false) →
      Unjoined between → isBlockMarker (trim second) = true → Kept lines →
      Kept (first :: between ++ second :: lines)

theorem Unjoined.nil : Unjoined [] := ⟨by simp, .nil⟩

theorem Unjoined.cons {line : List Char} {lines : List (List Char)} (h : Unjoined lines)
    (hwhole : line.head? = some '#' ∨ trim line ≠ [] ∧ trimEnd line = line)
    (hapart : line.head? = some '#' ∨ ∀ next ∈ lines.head?, endsParagraph next = true) :
    Unjoined (line :: lines) := by
  refine ⟨List.forall_mem_cons.2 ⟨hwhole, h.whole⟩, List.isChain_cons.2 ⟨fun next hnext => ?_, h.apart⟩⟩
  exact hapart.imp_right fun hends => hends next hnext

theorem Unjoined.tail {line : List Char} {lines : List (List Char)} (h : Unjoined (line :: lines)) :
    Unjoined lines := ⟨fun l hl => h.whole l (List.mem_cons_of_mem _ hl), h.apart.tail⟩

/-- The paragraphs among lines that are not joined are single lines. -/
theorem logicalFrom_of_unjoined {lines : List (List Char)} {marker : List Char}
    (hmarker : isBlockMarker (trim marker) = true) (rest : List (List Char)) :
    ∀ {paragraph : List (List Char)}, Unjoined lines → (∀ line ∈ lines, isBlockMarker (trim line) = false) →
      (paragraph = [] ∨ ∀ line ∈ lines.head?, endsParagraph line = true) →
      logicalFrom false paragraph (lines ++ marker :: rest) =
        joinParagraph paragraph ++ lines ++ marker :: logicalFrom true [] rest := by
  induction lines with
  | nil =>
    intro paragraph _ _ _
    rw [List.nil_append, logicalFrom_marker _ _ hmarker, List.append_nil]
  | cons line lines ih =>
    intro paragraph hunjoined hplain hends
    obtain ⟨hline, hlines⟩ := List.forall_mem_cons.1 hplain
    rw [List.cons_append]
    by_cases hsign : line.head? = some '#'
    · rw [logicalFrom_sign _ _ hsign, ih hunjoined.tail hlines (.inl rfl)]
      simp [joinParagraph]
    · obtain ⟨hblank, htrim⟩ := (hunjoined.whole line List.mem_cons_self).resolve_left hsign
      have hnext : ∀ next ∈ lines.head?, endsParagraph next = true := fun next hnext => by
        obtain ⟨others, rfl⟩ := List.head?_eq_some_iff.1 hnext
        exact (List.isChain_cons_cons.1 hunjoined.apart).1.resolve_left hsign
      rw [logicalFrom_first _ _ hsign hline hblank (hends.symm.imp_left fun h => h line rfl), htrim,
        ih hunjoined.tail hlines (.inr hnext), joinParagraph_singleton]
      simp

/-- Inside a block, lines that are kept come before what is made of the rest. -/
theorem Kept.logicalFrom_append {body : List (List Char)} (h : Kept body) (rest : List (List Char)) :
    logicalFrom true [] (body ++ rest) = body ++ logicalFrom true [] rest := by
  induction h with
  | nil => rfl
  | line hline _ ih => rw [List.cons_append, logicalFrom_inside, hline, Bool.not_false, ih, List.cons_append]
  | pair hfirst hbetween hunjoined hsecond _ ih =>
    rw [List.append_assoc, List.cons_append, logicalFrom_inside, hfirst, Bool.not_true, List.cons_append,
      logicalFrom_of_unjoined hsecond _ hunjoined hbetween (.inl rfl), ih]
    simp [joinParagraph]

/-! ## Only such lines are kept -/

/-- Joining never makes lines. -/
theorem length_logicalFrom_le (lines : List (List Char)) : ∀ (inBlock : Bool) (paragraph : List (List Char)),
    (logicalFrom inBlock paragraph lines).length ≤ (joinParagraph paragraph).length + lines.length := by
  have hjoin : ∀ paragraph, (joinParagraph paragraph).length ≤ 1 := fun paragraph => by
    unfold joinParagraph
    split <;> simp
  induction lines with
  | nil => simp [logicalFrom]
  | cons line lines ih =>
    intro inBlock paragraph
    rw [logicalFrom]
    have hrest := ih (inBlock != isBlockMarker (trim line))
    -- the paragraph is either done or goes on
    by_cases hends : endsParagraph line = true
    · have hnone := hrest []
      have hfirst := hrest (extendParagraph [] line)
      have := hjoin (extendParagraph [] line)
      split <;> [skip; split] <;> simp [hends, joinParagraph] at * <;> omega
    · have hsame := hrest paragraph
      have hnext := hrest (extendParagraph paragraph line)
      have := hjoin (extendParagraph paragraph line)
      split <;> [skip; split] <;> simp [hends] at * <;> omega

/-- When no line is lost, the paragraph is a line of its own, so that the first line does not go on
with it. -/
theorem ends_of_length {paragraph : List (List Char)} : ∀ {lines : List (List Char)},
    (∀ line ∈ lines, isBlockMarker (trim line) = false) →
    (logicalFrom false paragraph lines).length = (joinParagraph paragraph).length + lines.length →
    (paragraph = [] ∨ ∀ line ∈ lines.head?, endsParagraph line = true) ∧
      joinParagraph paragraph <+: logicalFrom false paragraph lines
  | [], _, _ => ⟨by simp, List.prefix_refl _⟩
  | line :: lines, hplain, hlength => by
    have hmarker := hplain line List.mem_cons_self
    by_cases hnext : endsParagraph line = true ∨ paragraph = []
    · refine ⟨hnext.symm.imp_right fun h => by simpa using h, ?_⟩
      by_cases hsign : line.head? = some '#'
      · exact ⟨_, (logicalFrom_sign _ _ hsign).symm⟩
      · by_cases hblank : trim line = []
        · exact ⟨_, (logicalFrom_blank _ _ hblank).symm⟩
        · exact ⟨_, (logicalFrom_first _ _ hsign hmarker hblank hnext).symm⟩
    · -- a line that goes on with the paragraph is lost
      obtain ⟨hends, hne⟩ := not_or.1 hnext
      have hle := length_logicalFrom_le lines false (paragraph ++ [trim line])
      rw [logicalFrom_next _ _ (Bool.eq_false_of_not_eq_true hends) hne] at hlength
      rw [joinParagraph, if_neg (by simp)] at hle
      rw [joinParagraph, if_neg hne] at hlength
      simp only [List.length_cons, List.length_nil] at hle hlength
      omega

/-- Lines without markers that are all kept are not joined. -/
theorem unjoined_of_logicalFrom : ∀ {lines paragraph : List (List Char)},
    (∀ line ∈ lines, isBlockMarker (trim line) = false) →
    logicalFrom false paragraph lines = joinParagraph paragraph ++ lines → Unjoined lines
  | [], _, _, _ => .nil
  | line :: lines, paragraph, hplain, heq => by
    obtain ⟨hmarker, hlines⟩ := List.forall_mem_cons.1 hplain
    obtain ⟨hends, -⟩ := ends_of_length hplain (by rw [heq, List.length_append])
    by_cases hsign : line.head? = some '#'
    · rw [logicalFrom_sign _ _ hsign, List.append_cancel_left_eq, List.cons.injEq] at heq
      have hrest := unjoined_of_logicalFrom hlines (show _ = joinParagraph [] ++ lines from heq.2)
      exact hrest.cons (.inl hsign) (.inl hsign)
    · have hblank : trim line ≠ [] := fun hblank => by
        have hle := length_logicalFrom_le lines false []
        rw [logicalFrom_blank _ _ hblank, List.append_cancel_left_eq] at heq
        simp [heq, joinParagraph] at hle
      rw [logicalFrom_first _ _ hsign hmarker hblank (hends.symm.imp_left fun h => h line rfl),
        List.append_cancel_left_eq] at heq
      obtain ⟨hnext, htrim⟩ := ends_of_length hlines (show _ = (joinParagraph [trimEnd line]).length + _ by
        rw [heq, joinParagraph_singleton, List.length_cons, List.length_singleton, Nat.add_comm])
      rw [heq, joinParagraph_singleton, List.cons_prefix_cons] at htrim
      have hrest := unjoined_of_logicalFrom hlines
        (show logicalFrom false [line] lines = joinParagraph [line] ++ lines by
          rw [htrim.1] at heq
          rw [heq, joinParagraph_singleton, List.singleton_append])
      exact hrest.cons (.inr ⟨hblank, htrim.1⟩) (.inr (hnext.resolve_left (by simp)))

/-- Lines after which a block is open have a first marker, the one that opens it or one before. -/
theorem exists_marker {lines : List (List Char)} (h : blockAfter false lines = true) :
    ∃ between marker rest, lines = between ++ marker :: rest ∧
      (∀ line ∈ between, isBlockMarker (trim line) = false) ∧ isBlockMarker (trim marker) = true ∧
      blockAfter true rest = true := by
  induction lines with
  | nil => cases h
  | cons line lines ih =>
    rw [blockAfter, List.foldl_cons, Bool.false_bne] at h
    by_cases hline : isBlockMarker (trim line) = true
    · rw [hline] at h
      exact ⟨[], line, lines, rfl, by simp, hline, h⟩
    · rw [Bool.eq_false_of_not_eq_true hline] at h
      obtain ⟨between, marker, rest, rfl, hbetween, hmarker, hrest⟩ := ih h
      exact ⟨line :: between, marker, rest, rfl,
        List.forall_mem_cons.2 ⟨Bool.eq_false_of_not_eq_true hline, hbetween⟩, hmarker, hrest⟩

/-- Lines inside a block that are all kept, and after which the block goes on, have their markers in
pairs. -/
theorem kept_of_logicalFrom {body : List (List Char)} (hsame : logicalFrom true [] body = body)
    (hafter : blockAfter true body = true) : Kept body := by
  induction hlength : body.length using Nat.strong_induction_on generalizing body with
  | _ n ih =>
  cases body with
  | nil => exact .nil
  | cons first lines =>
    rw [List.length_cons] at hlength
    rw [logicalFrom_inside, List.cons.injEq] at hsame
    have hrest := hsame.2
    rw [blockAfter, List.foldl_cons] at hafter
    by_cases hfirst : isBlockMarker (trim first) = true
    · rw [hfirst] at hrest hafter
      obtain ⟨between, second, rest, rfl, hbetween, hsecond, hafter⟩ := exists_marker hafter
      rw [Bool.not_true, logicalFrom_append_marker hsecond rest between (by simp),
        blockAfter_inner hbetween] at hrest
      -- neither part has more lines than it is made from
      have hle := length_logicalFrom_le between false []
      have hle' := length_logicalFrom_le rest true []
      have hsum := congrArg List.length hrest
      simp only [List.length_append, List.length_cons, joinParagraph, if_true, List.length_nil,
        Bool.not_false] at hle hle' hsum hlength
      obtain ⟨hbetweenSame, hrestSame⟩ := List.append_inj hrest (by omega)
      rw [List.cons.injEq] at hrestSame
      have hunjoined := unjoined_of_logicalFrom hbetween (show _ = joinParagraph [] ++ between from hbetweenSame)
      exact .pair hfirst hbetween hunjoined hsecond (ih rest.length (by omega) hrestSame.2 hafter rfl)
    · rw [Bool.eq_false_of_not_eq_true hfirst] at hrest hafter
      exact .line (Bool.eq_false_of_not_eq_true hfirst) (ih lines.length (by omega) hrest hafter rfl)

/-! ## The text after a sample -/

/-- Whether two readings have the same result, or fail for the same reason at the same line, which is
shown among other lines when there are lines `before` it. -/
inductive Relocated {α : Type} (before after : List (List Char)) : Except Fault α → Except Fault α → Prop
  | ok (result : α) : Relocated before after (.ok result) (.ok result)
  | fault (kind : BlockKind) (position : Nat) :
      Relocated before after (.error (.badBlock kind (snippet after position)))
        (.error (.badBlock kind (snippet (before ++ after) (before.length + position))))

theorem Relocated.map {α β : Type} {before after : List (List Char)} {reading reading' : Except Fault α}
    (h : Relocated before after reading reading') (f : α → β) :
    Relocated before after (reading.map f) (reading'.map f) := by
  cases h with
  | ok result => exact .ok (f result)
  | fault kind position => exact .fault kind position

/-- A block that began so many lines later. -/
def OpenBlock.shift (lines : Nat) (block : OpenBlock) : OpenBlock :=
  { block with start := lines + block.start }

theorem OpenBlock.addLine?_shift (block : OpenBlock) (lines : Nat) (line : List Char) :
    (block.shift lines).addLine? line = (block.addLine? line).map (shift lines) := by
  rw [addLine?_eq, addLine?_eq, Option.map_map]
  rfl

/-- Lines read after others have the same entries, or fail at the same line. -/
theorem relocated_entriesFrom (before after : List (List Char)) :
    ∀ (lines : List (List Char)) (position : Nat) (block? : Option OpenBlock),
      Relocated before after (entriesFrom after position block? lines)
        (entriesFrom (before ++ after) (before.length + position)
          (block?.map (OpenBlock.shift before.length)) lines)
  | [], _, none => .ok []
  | [], _, some block => .fault block.kind block.start
  | line :: lines, position, some block => by
    have hrest := relocated_entriesFrom before after lines (position + 1)
    rw [Option.map_some, entriesFrom, entriesFrom]
    split
    · rename_i hcloses
      rw [if_pos (show startsWith (block.shift before.length).fence (trim line) = true from hcloses)]
      exact (hrest none).map _
    · rename_i hopen
      rw [if_neg (show ¬ startsWith (block.shift before.length).fence (trim line) = true from hopen),
        OpenBlock.addLine?_shift]
      cases block.addLine? line with
      | none => exact .fault block.kind position
      | some extended => exact hrest (some extended)
  | line :: lines, position, none => by
    have hrest := relocated_entriesFrom before after lines (position + 1)
    rw [Option.map_none, entriesFrom, entriesFrom]
    dsimp only
    split
    · exact (hrest none).map _
    · split
      · rename_i kind info _
        exact hrest (some ⟨kind, indentOf line, info, position, []⟩)
      · exact (hrest none).map _

/-! ## Samples before a text -/

/-- The first line of a sample opens a block. -/
theorem entriesFrom_codeFence (all lines : List (List Char)) (position : Nat) (info : List Char) :
    entriesFrom all position none ((codeFence ++ info) :: lines) =
      entriesFrom all (position + 1) (some ⟨.code, [], info, position, []⟩) lines := by
  rw [entriesFrom]
  rfl

/-- Lines that begin with no fence are read as they are between the two fences of a sample. -/
theorem entries_sampleLines {info : String} {body : List String}
    (hopen : ∀ line ∈ body, startsWith codeFence (trim line.toList) = false) (lines : List (List Char)) :
    entries (sampleLines info body ++ lines) = do
      let entries ← entriesFrom (sampleLines info body ++ lines) (sampleLines info body).length none lines
      return .block 0 (.code info body) :: entries := by
  have hbody : ∀ line ∈ body.map String.toList,
      (⟨.code, [], info.toList, 0, []⟩ : OpenBlock).closes line = false := by
    simpa [OpenBlock.closes, OpenBlock.fence] using hopen
  have hinner : (body.map String.toList).mapM (⟨.code, [], info.toList, 0, []⟩ : OpenBlock).strip? =
      some (body.map String.toList) :=
    mapM_map_eq_some fun line _ => OpenBlock.strip?_indent ⟨.code, [], info.toList, 0, []⟩ line.toList
  have hclosing : (⟨.code, [], info.toList, 0, []⟩ : OpenBlock).closes codeFence = true := by rfl
  have hread : ∀ all, entriesFrom all 1 (some ⟨.code, [], info.toList, 0, []⟩)
      (body.map String.toList ++ codeFence :: lines) = _ := fun all =>
    entriesFrom_block hbody hinner hclosing
  have hlength : (sampleLines info body).length = 1 + (body.map String.toList).length + 1 := by
    simp [sampleLines]
    omega
  have hlines : sampleLines info body ++ lines =
      (codeFence ++ info.toList) :: (body.map String.toList ++ codeFence :: lines) := by simp [sampleLines]
  rw [entries, hlength, hlines, entriesFrom_codeFence, hread]
  simp [OpenBlock.entry, OpenBlock.extend, OpenBlock.node, Function.comp_def]

/-- The node of a sample comes before those of the lines after it. -/
theorem forest_sampleLines {info : String} {body : List String}
    (hopen : ∀ line ∈ body, startsWith codeFence (trim line.toList) = false) (lines : List (List Char)) :
    Relocated (sampleLines info body) lines ((forest lines).map (.code info body :: ·))
      (forest (sampleLines info body ++ lines)) := by
  have hrest := relocated_entriesFrom (sampleLines info body) lines lines 0 none
  rw [Option.map_none, Nat.add_zero] at hrest
  rw [forest, forest, entries_sampleLines hopen, entries]
  generalize entriesFrom lines 0 none lines = reading at hrest ⊢
  generalize entriesFrom (sampleLines info body ++ lines) _ none lines = reading' at hrest ⊢
  cases hrest with
  | ok entries => exact .ok (.code info body :: nest entries)
  | fault kind position => exact .fault kind position

theorem lasting_sampleLines {info : String} {body : List String} (hinfo : Lasting info.toList)
    (hbody : ∀ line ∈ body, Lasting line.toList) : ∀ line ∈ sampleLines info body, Lasting line := by
  have hfence : Lasting codeFence := lasting_fence ⟨.code, [], [], 0, []⟩
  rw [sampleLines, List.cons_append, List.forall_mem_cons, List.forall_mem_append, List.forall_mem_map,
    List.forall_mem_singleton]
  exact ⟨hfence.append hinfo, hbody, hfence⟩

/-- The logical lines of a text that begins with a sample. -/
theorem logicalLines_sampleText {info : String} {body : List String} (hinfo : Lasting info.toList)
    (hbody : ∀ line ∈ body, Lasting line.toList) (after : String) :
    logicalLines (sampleText info body after).toList = (codeFence ++ info.toList) ::
      logicalFrom true [] (body.map String.toList ++ codeFence :: textLines after.toList) := by
  have hlasting := lasting_sampleLines hinfo hbody
  rw [logicalLines, ← textLines, sampleText, String.toList_ofList,
    textLines_intercalate (by simp [sampleLines]) fun line hline => (hlasting line hline).unbroken,
    List.map_congr_left fun line hline => dropReturn_eq_self (hlasting line hline).last, List.map_id', sampleLines,
    List.append_assoc, List.cons_append, logicalFrom_marker _ _ (isBlockMarker_codeFence _)]
  rfl

/-- Reading a text that begins with a sample gives the sample with exactly its lines, then what is read
from the text after it; when that cannot be read, neither can the whole text, for the same reason. -/
theorem parse_sampleText {info : String} {body : List String} (hinfo : Lasting info.toList)
    (hbody : ∀ line ∈ body, Lasting line.toList ∧ startsWith codeFence (trim line.toList) = false)
    (hkept : Kept (body.map String.toList)) (after : String) :
    Relocated (sampleLines info body) (logicalLines after.toList)
      ((parse after).map (.code info body :: ·)) (parse (sampleText info body after)) := by
  have hlines : logicalLines (sampleText info body after).toList =
      sampleLines info body ++ logicalLines after.toList := by
    rw [logicalLines_sampleText hinfo fun line hline => (hbody line hline).1, hkept.logicalFrom_append,
      logicalFrom_inside, show isBlockMarker (trim codeFence) = true from rfl]
    simp [sampleLines, logicalLines, textLines]
  rw [parse, parse, hlines]
  exact forest_sampleLines (fun line hline => (hbody line hline).2) _

/-- A front matter that is shown as code, and a line after it. -/
def frontMatter : List String := ["---", "id: a", "---", "", "b "]

theorem parse_sampleText_frontMatter :
    Kept (frontMatter.map String.toList) ∧
      parse (sampleText "md" frontMatter "# A\n") = .ok [.code "md" frontMatter, .heading 1 "A" []] := by
  have hkept : Kept ("---".toList :: ["id: a".toList] ++ "---".toList :: ["".toList, "b ".toList]) :=
    .pair rfl (by decide) ⟨by decide, .singleton _⟩ rfl (.line rfl (.line rfl .nil))
  refine ⟨hkept, ?_⟩
  have hread := parse_sampleText (show Lasting "md".toList by decide)
    (show ∀ line ∈ frontMatter, Lasting line.toList ∧ startsWith codeFence (trim line.toList) = false by decide)
    hkept "# A\n"
  have hafter : parse "# A\n" = .ok [.heading 1 "A" []] := by rfl
  rw [hafter] at hread
  generalize parse (sampleText "md" frontMatter "# A\n") = reading at hread ⊢
  cases hread
  rfl

/-- Two documents of a data file shown as code, the second one with an empty line in it. -/
def dataLines : List String := ["---", "a", "", "b"]

/-- After a marker without another one to make a pair, lines are joined, and the text after the sample is
read as the inside of a block. And the lines that a fault shows reach back into the sample. -/
theorem parse_sampleText_unpaired :
    parse (sampleText "yaml" dataLines "") = .ok [.code "yaml" ["---", "a", "b"], .paragraph ""] ∧
      parse (sampleText "yaml" dataLines "") ≠ (parse "").map (.code "yaml" dataLines :: ·) ∧
      parse (sampleText "" [] ":::") = .error (.badBlock .note "```\n```\n:::") ∧
      parse (sampleText "" [] ":::") ≠ (parse ":::").map (.code "" [] :: ·) := by
  have hdata : parse (sampleText "yaml" dataLines "") = .ok [.code "yaml" ["---", "a", "b"], .paragraph ""] := by
    rfl
  have hfault : parse (sampleText "" [] ":::") = .error (.badBlock .note "```\n```\n:::") := by rfl
  refine ⟨hdata, ?_, hfault, ?_⟩
  · rw [hdata, show parse "" = .ok [] by rfl]
    simp [Except.map, dataLines]
  · rw [hfault, show parse ":::" = .error (.badBlock .note ":::") by rfl]
    simp [Except.map]

/-- Whatever text follows, the lines of a sample have to be kept for it to be read with exactly them
and with nothing after them. -/
theorem kept_of_parse {info : String} {body : List String} (hinfo : Lasting info.toList)
    (hbody : ∀ line ∈ body, Lasting line.toList)
    (h : parse (sampleText info body "") = .ok [.code info body]) : Kept (body.map String.toList) := by
  obtain ⟨items, hentries, hnest⟩ := bind_eq_ok.1 h
  rw [logicalLines_sampleText hinfo hbody, entries_eq_ok_iff] at hentries
  rcases items_of_cons hentries with ⟨hsign, -⟩ | ⟨-, hnone, -⟩ | ⟨-, block, hblock, hcloses⟩
  · cases hsign
  · cases hnone
  obtain ⟨lines, inner, closing, rest, others, hlines, -, hinner, hclosing, hrest, rfl⟩ := hcloses
  cases hblock
  -- the block is the only node, and its lines are those of the sample
  have hnodes : Node.code _ (inner.map String.ofList) :: nest others = [.code info body] := Except.ok.inj hnest
  simp only [List.cons.injEq, Node.code.injEq] at hnodes
  obtain rfl : others = [] := by
    cases others with
    | nil => rfl
    | cons e es =>
      rw [nest_cons] at hnodes
      cases hnodes.2
  cases hrest
  have hwhole : lines.mapM (⟨.code, [], info.toList, 0, []⟩ : OpenBlock).strip? = some lines := by
    simpa using mapM_map_eq_some (h := id) fun line (_ : line ∈ lines) =>
      OpenBlock.strip?_indent ⟨.code, [], info.toList, 0, []⟩ line
  obtain rfl : inner = lines := Option.some.inj (hinner.symm.trans hwhole)
  have hinner : inner = body.map String.toList := by
    rw [← hnodes.1.2]
    simp [Function.comp_def]
  -- so the fence of the sample is the line that closes it
  have hmarker : isBlockMarker (trim codeFence) = true := by rfl
  rw [logicalFrom_append_marker hmarker _ _ (fun _ => rfl), hinner] at hlines
  cases hafter : blockAfter true (body.map String.toList) with
  | true =>
    rw [hafter] at hlines
    exact kept_of_logicalFrom (List.append_inj' hlines rfl).1 hafter
  | false =>
    -- an empty line would be left inside of a block
    rw [hafter, ← List.singleton_append, ← List.append_assoc] at hlines
    cases (List.append_inj' hlines rfl).2
    cases hclosing

end RefPages.Markup
