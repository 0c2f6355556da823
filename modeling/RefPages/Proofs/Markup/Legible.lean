/-
What a text is read as is legible, when each block marker in it opens a block or closes the one that
is open. Then the two readers, the one of logical lines and the one of entries, take the same lines
for the inside of a block, and every line outside of blocks is trimmed before it becomes an entry.
-/
import RefPages.Proofs.Markup.Parent
import RefPages.Proofs.Markup.RoundTrip

namespace RefPages.Markup

open RefPages.Text

/-! ## Orderly texts -/

/-- The lines of a text. -/
def textLines (text : List Char) : List (List Char) := (unifyLineEnds text).splitOn '\n'

/-- The lines of a text that is joined from lines; a carriage return at the end of one is lost. -/
theorem textLines_intercalate {lines : List (List Char)} (hne : lines ≠ []) (h : ∀ line ∈ lines, '\n' ∉ line)
    (rest : List Char) :
    textLines (['\n'].intercalate lines ++ '\n' :: rest) = lines.map dropReturn ++ textLines rest := by
  have hdrop : ∀ {line : List Char}, '\n' ∉ line → '\n' ∉ dropReturn line := fun hline hmem => by
    unfold dropReturn at hmem
    split at hmem
    · exact hline (List.dropLast_subset _ hmem)
    · exact hline hmem
  induction lines with
  | nil => exact absurd rfl hne
  | cons line lines ih =>
    obtain ⟨hline, hlines⟩ := List.forall_mem_cons.1 h
    cases lines with
    | nil =>
      rw [List.intercalate_singleton, textLines, unifyLineEnds_append hline,
        List.splitOn_append_cons_self_of_not_mem (hdrop hline)]
      rfl
    | cons next lines =>
      rw [List.intercalate_cons_of_ne_nil (by simp), List.append_assoc, List.append_assoc, List.singleton_append,
        textLines, unifyLineEnds_append hline, List.splitOn_append_cons_self_of_not_mem (hdrop hline), ← textLines,
        ih (by simp) hlines]
      rfl

/-- Whether each block marker opens a block, after nothing but blanks, or closes the block that is
open, and no block is left open. -/
def fenced : Option OpenBlock → List (List Char) → Bool
  | none, [] => true
  | some _, [] => false
  | none, line :: lines =>
    if isBlockMarker (trim line) then
      match openedBy? line with
      | some block => fenced (some block) lines
      | none => false
    else fenced none lines
  | some block, line :: lines =>
    if isBlockMarker (trim line) then block.closes line && fenced none lines
    else fenced (some block) lines

/-- A text whose lines end with a line feed, alone or after one carriage return, and whose blocks are
opened and closed by markers of their own. -/
structure Orderly (text : String) : Prop where
  ends : ∀ line ∈ textLines text.toList, line.getLast? ≠ some '\r'
  blocks : fenced none (textLines text.toList) = true

theorem Orderly.lasting {text : String} (h : Orderly text) :
    ∀ line ∈ textLines text.toList, Lasting line := fun line hline =>
  ⟨not_mem_splitOn _ line hline, h.ends line hline⟩

/-! ## Block markers in trimmed lines -/

/-- No text begins with a block marker only because of what comes after a blank. -/
theorem startsWith_append_blank {fence : List Char} (h : ' ' ∉ fence) (as bs : List Char) :
    startsWith fence (as ++ ' ' :: bs) = startsWith fence as := by
  induction fence generalizing as with
  | nil => simp
  | cons f fence ih =>
    rw [List.mem_cons, not_or] at h
    cases as with
    | nil => simp [Ne.symm h.1]
    | cons a as => simp [ih h.2 as]

/-- Lines that do not begin with a fence still do not when they are joined. -/
theorem startsWith_joined {fence : List Char} (hsolid : Solid fence) (hspace : ' ' ∉ fence) {as bs : List Char}
    (ha : startsWith fence (trim as) = false) (hb : startsWith fence (trim bs) = false) :
    startsWith fence (trim (as ++ ' ' :: bs)) = false := by
  rw [startsWith_trim_eq hsolid] at ha hb ⊢
  rw [trimStart, List.dropWhile_append]
  split
  · rwa [List.dropWhile_cons_of_pos isBlank_space]
  · rwa [startsWith_append_blank hspace]

theorem OpenBlock.space_not_mem_fence (block : OpenBlock) : ' ' ∉ block.fence := by
  unfold fence
  cases block.kind <;> decide

/-- Lines that are no block markers are none when they are joined. -/
theorem isBlockMarker_joined {as bs : List Char} (ha : isBlockMarker (trim as) = false)
    (hb : isBlockMarker (trim bs) = false) : isBlockMarker (trim (as ++ ' ' :: bs)) = false := by
  have hfence : ∀ block : OpenBlock, startsWith block.fence (trim (as ++ ' ' :: bs)) = false := fun block =>
    startsWith_joined block.solid_fence block.space_not_mem_fence (OpenBlock.closes_of_not_marker ha)
      (OpenBlock.closes_of_not_marker hb)
  have hcode := hfence ⟨.code, [], [], 0, []⟩
  have hnote := hfence ⟨.note, [], [], 0, []⟩
  have hproperties := hfence ⟨.properties, [], [], 0, []⟩
  simp only [OpenBlock.fence] at hcode hnote hproperties
  rw [isBlockMarker, hcode, hnote, hproperties]
  rfl

/-! ## Joined lines -/

section

variable {P : List Char → Prop} (hjoin : ∀ as bs, P as → P bs → P (as ++ ' ' :: bs))

include hjoin

/-- What joining two lines keeps holds of any number of joined lines. -/
theorem forall_joinParagraph {paragraph : List (List Char)} (h : ∀ line ∈ paragraph, P line) :
    ∀ line ∈ joinParagraph paragraph, P line := by
  unfold joinParagraph
  split
  · simp
  · rename_i hne
    rw [List.forall_mem_singleton]
    induction paragraph with
    | nil => exact absurd rfl hne
    | cons line paragraph ih =>
      obtain ⟨hline, hparagraph⟩ := List.forall_mem_cons.1 h
      cases paragraph with
      | nil => rwa [List.intercalate_singleton]
      | cons next paragraph =>
        rw [List.intercalate_cons_of_ne_nil (by simp), List.append_assoc, List.singleton_append]
        exact hjoin _ _ hline (ih hparagraph (by simp))

/-- What trimming and joining keep holds of all logical lines. -/
theorem forall_logicalFrom (htrim : ∀ line, P line → P (trim line) ∧ P (trimEnd line)) :
    ∀ {lines paragraph : List (List Char)} {inBlock : Bool}, (∀ line ∈ lines, P line) →
      (∀ line ∈ paragraph, P line) → ∀ line ∈ logicalFrom inBlock paragraph lines, P line
  | [], _, _, _, hparagraph => forall_joinParagraph hjoin hparagraph
  | line :: lines, paragraph, inBlock, hlines, hparagraph => by
    obtain ⟨hline, hlines⟩ := List.forall_mem_cons.1 hlines
    have hdone : ∀ l ∈ if endsParagraph line then joinParagraph paragraph else [], P l := by
      split
      · exact forall_joinParagraph hjoin hparagraph
      · simp
    have hnext : ∀ l ∈ if endsParagraph line then [] else paragraph, P l := by
      split
      · simp
      · exact hparagraph
    have hextend : ∀ {before}, (∀ l ∈ before, P l) → ∀ l ∈ extendParagraph before line, P l := fun hbefore => by
      unfold extendParagraph
      split
      · simpa using (htrim line hline).2
      · rw [List.forall_mem_append, List.forall_mem_singleton]
        exact ⟨hbefore, (htrim line hline).1⟩
    rw [logicalFrom]
    split <;> [skip; split]
    · rw [List.forall_mem_append, List.forall_mem_cons]
      exact ⟨hdone, hline, forall_logicalFrom htrim hlines hnext⟩
    · rw [List.forall_mem_append]
      exact ⟨hdone, forall_logicalFrom htrim hlines hnext⟩
    · rw [List.forall_mem_append]
      exact ⟨hdone, forall_logicalFrom htrim hlines (hextend hnext)⟩

end

/-! ## Logical lines outside of blocks -/

/-- A logical line outside of blocks that is no heading. -/
structure TextLine (line : List Char) : Prop extends Running line where
  sign : line.head? ≠ some '#'
  marker : isBlockMarker (trim line) = false

/-- A line that is not blank begins a paragraph. -/
theorem TextLine.first {line : List Char} (hfeed : '\n' ∉ line) (hsign : line.head? ≠ some '#')
    (hmarker : isBlockMarker (trim line) = false) (hblank : trim line ≠ []) : TextLine (trimEnd line) := by
  have hfront := isPrefix_trimEnd line
  have hne : trimEnd line ≠ [] := fun hnil => by
    rw [← trim_trimEnd, hnil] at hblank
    exact hblank rfl
  refine ⟨⟨fun hmem => hfeed (hfront.subset hmem), exists_last_trimEnd hne⟩, ?_, ?_⟩
  · obtain ⟨c, rest, hline⟩ := List.exists_cons_of_ne_nil hne
    obtain ⟨blanks, hblanks⟩ := hfront
    rw [← hblanks, hline] at hsign
    rwa [hline]
  · rwa [trim_trimEnd]

/-- A line that is not blank goes on with a paragraph. -/
theorem TextLine.next {text line : List Char} (h : TextLine text) (hfeed : '\n' ∉ line)
    (hmarker : isBlockMarker (trim line) = false) (hblank : trim line ≠ []) :
    TextLine (text ++ ' ' :: trim line) := by
  refine ⟨⟨?_, ?_⟩, ?_, ?_⟩
  · have hline : '\n' ∉ trim line := fun hmem => hfeed (mem_of_mem_trim hmem)
    simp [h.unbroken, hline]
  · obtain ⟨rest, c, hline, hc⟩ := exists_last_trimEnd hblank
    exact ⟨text ++ ' ' :: rest, c, by rw [trim, hline]; simp, hc⟩
  · obtain ⟨c, rest, rfl⟩ := List.exists_cons_of_ne_nil h.ne_nil
    exact h.sign
  · exact isBlockMarker_joined h.marker (by rwa [trim_trim])

/-- Any other line ends the paragraph or not, and begins or goes on with one unless it is blank. -/
theorem exists_logicalFrom {line : List Char} {paragraph : List (List Char)}
    (hparagraph : ∀ text ∈ joinParagraph paragraph, TextLine text) (hfeed : '\n' ∉ line)
    (hsign : line.head? ≠ some '#') (hmarker : isBlockMarker (trim line) = false)
    (lines : List (List Char)) :
    ∃ done next, logicalFrom false paragraph (line :: lines) = done ++ logicalFrom false next lines ∧
      (∀ text ∈ done, TextLine text) ∧ ∀ text ∈ joinParagraph next, TextLine text := by
  by_cases hblank : trim line = []
  · exact ⟨joinParagraph paragraph, [], logicalFrom_blank paragraph lines hblank, hparagraph,
      by simp [joinParagraph]⟩
  · by_cases hends : endsParagraph line = true ∨ paragraph = []
    · refine ⟨joinParagraph paragraph, [trimEnd line],
        logicalFrom_first paragraph lines hsign hmarker hblank hends, hparagraph, ?_⟩
      simpa [joinParagraph_singleton] using TextLine.first hfeed hsign hmarker hblank
    · obtain ⟨hgoes, hne⟩ := not_or.1 hends
      refine ⟨[], paragraph ++ [trim line],
        logicalFrom_next paragraph lines (Bool.eq_false_of_not_eq_true hgoes) hne, by simp, ?_⟩
      rw [joinParagraph, if_neg hne, List.forall_mem_singleton] at hparagraph
      rw [joinParagraph, if_neg (by simp), List.forall_mem_singleton, intercalate_append_singleton hne,
        List.append_assoc, List.singleton_append]
      exact hparagraph.next hfeed hmarker hblank

/-! ## Legible entries -/

/-- An entry whose node is legible. -/
def Entry.Legible (e : Entry) : Prop := e.node.Legible 0

/-- The end of a running text after white space. -/
theorem Running.of_append {as bs : List Char} (h : Running (as ++ bs))
    (hblank : ∀ c ∈ as.getLast?, isBlank c = true) : Running bs := by
  refine ⟨fun hmem => h.unbroken (List.mem_append_right as hmem), ?_⟩
  obtain ⟨rest, c, heq, hc⟩ := h.last
  rcases List.eq_nil_or_concat bs with rfl | ⟨init, d, rfl⟩
  · rw [List.append_nil] at heq
    rw [hblank c (by simp [heq])] at hc
    cases hc
  · rw [List.concat_eq_append, ← List.append_assoc] at heq
    obtain ⟨-, hd⟩ := List.append_inj' heq rfl
    cases hd
    exact ⟨init, c, List.concat_eq_append, hc⟩

theorem legible_lineNode {content : List Char} (hrunning : Running content) (hfirst : content.head? ≠ some ' ')
    (hmarker : isBlockMarker (trim content) = false) (indent : Nat) :
    (Entry.block indent (lineNode content)).Legible := by
  have hitem : ∀ (start : List Char) {rest : List Char} {marker : Marker},
      after? (start ++ [' ']) content = some rest →
      (Node.item marker (String.ofList rest) []).Legible 0 := by
    intro start rest marker h
    rw [after?_eq_some_iff.1 h] at hrunning
    refine ⟨?_, by simp, trivial⟩
    rw [String.toList_ofList]
    exact hrunning.of_append (by simp [isBlank_space])
  unfold lineNode
  split
  · rename_i hdash
    exact hitem ['-'] hdash
  · rename_i hdash
    split
    · rename_i hstar
      exact hitem ['*'] hstar
    · rename_i hstar
      split
      · rename_i hnumber
        exact hitem ['1', '.'] hnumber
      · rename_i hnumber
        have hplain : Plain content := by
          refine ⟨hrunning, hfirst, hmarker, fun marker hm => ?_⟩
          simp only [itemMarkers, List.mem_cons, List.not_mem_nil, or_false] at hm
          rcases hm with rfl | rfl | rfl
          · exact after?_eq_none_iff.1 hdash
          · exact after?_eq_none_iff.1 hstar
          · exact after?_eq_none_iff.1 hnumber
        show Plain (String.ofList content).toList
        rwa [String.toList_ofList]

theorem indentOf_append_contentOf (line : List Char) : indentOf line ++ contentOf line = line :=
  List.takeWhile_append_dropWhile

theorem isBlank_of_mem_indentOf {line : List Char} : ∀ c ∈ indentOf line, isBlank c = true := by
  intro c hc
  have : c = ' ' := by simpa using List.mem_takeWhile_imp hc
  rw [this]
  exact isBlank_space

/-- A logical line outside of blocks is a list item or a paragraph. -/
theorem TextLine.legible {line : List Char} (h : TextLine line) :
    openedBy? line = none ∧ (Entry.block (indentOf line).length (lineNode (contentOf line))).Legible := by
  have hline := indentOf_append_contentOf line
  have hmarker : isBlockMarker (trim (indentOf line ++ contentOf line)) = false := by
    rw [hline]
    exact h.marker
  rw [trim_append isBlank_of_mem_indentOf] at hmarker
  have hrunning : Running (indentOf line ++ contentOf line) := by
    rw [hline]
    exact h.toRunning
  replace hrunning := hrunning.of_append fun c hc => isBlank_of_mem_indentOf c (List.mem_of_getLast? hc)
  have hfirst : (contentOf line).head? ≠ some ' ' := fun hhead => by
    have := List.head?_dropWhile_not (fun c => decide (c = ' ')) line
    rw [contentOf] at hhead
    simp [hhead] at this
  refine ⟨?_, legible_lineNode hrunning hfirst hmarker _⟩
  rw [openedBy?, opener?_eq_none hmarker]
  rfl

/-! ## Legible blocks -/

/-- A block whose lines so far are legible in it. -/
structure OpenBlock.Legible (block : OpenBlock) : Prop where
  indent : ∀ c ∈ block.indent, isBlank c = true
  info : Lasting block.info
  body : ∀ line ∈ block.body, Enclosed line

theorem Lasting.of_append {as bs : List Char} (h : Lasting (as ++ bs)) : Lasting bs := by
  refine ⟨fun hmem => h.unbroken (List.mem_append_right as hmem), fun hlast => h.last ?_⟩
  rw [List.getLast?_append, hlast]
  rfl

theorem lasting_trim {cs : List Char} (h : '\n' ∉ cs) : Lasting (trim cs) := by
  by_cases hnil : trim cs = []
  · rw [hnil]
    exact lasting_nil
  · exact Running.lasting ⟨fun hmem => h (mem_of_mem_trim hmem), exists_last_trimEnd hnil⟩

theorem lasting_headingText {cs : List Char} (h : Lasting cs) : Lasting (headingText cs) := by
  unfold headingText
  split
  · exact lasting_nil
  · rename_i c rest
    split
    · rw [← List.singleton_append] at h
      exact h.of_append
    · exact lasting_nil

theorem legible_headingEntry {line : List Char} (hsign : line.head? = some '#') (hline : Lasting line) :
    (headingEntry line).Legible := by
  have hsplit : Lasting (line.takeWhile (· = '#') ++ line.dropWhile (· = '#')) := by
    rwa [List.takeWhile_append_dropWhile]
  refine ⟨(length_takeWhile_sign_pos line).2 hsign, ?_, .nil, trivial⟩
  rw [String.toList_ofList]
  exact lasting_headingText hsplit.of_append

/-- The lines of a note make one line. -/
theorem enclosed_intercalate {lines : List (List Char)} (h : ∀ line ∈ lines, Enclosed line) :
    Enclosed ([' '].intercalate lines) := by
  by_cases hnil : lines = []
  · rw [hnil]
    exact ⟨lasting_nil, rfl⟩
  · have hjoined : ∀ line ∈ joinParagraph lines, Enclosed line :=
      forall_joinParagraph (fun as bs ha hb => ⟨ha.lasting.append ((lasting_spaces 1).append hb.lasting),
        isBlockMarker_joined ha.inner hb.inner⟩) h
    simpa [joinParagraph, hnil] using hjoined

theorem OpenBlock.Legible.entry {block : OpenBlock} (h : block.Legible) : block.entry.Legible := by
  have hbody : ∀ line ∈ block.body.map String.ofList, Enclosed line.toList := fun line hline => by
    obtain ⟨chars, hchars, rfl⟩ := List.mem_map.1 hline
    rw [String.toList_ofList]
    exact h.body chars hchars
  show block.node.Legible 0
  unfold OpenBlock.node
  split
  · refine ⟨?_, hbody⟩
    rw [String.toList_ofList]
    exact h.info
  · refine ⟨?_, ?_, ?_⟩
    · rw [String.toList_ofList]
      exact lasting_trim h.info.unbroken
    · rw [String.toList_ofList, trim_trim]
    · rw [String.toList_ofList]
      exact enclosed_intercalate (fun line hline => h.body line (List.mem_of_mem_filter hline))
  · exact hbody

/-- The block that a line opens is legible before its first line. -/
theorem legible_of_openedBy? {line : List Char} {block : OpenBlock} (hline : Lasting line)
    (h : openedBy? line = some block) : block.Legible := by
  obtain ⟨⟨kind, info⟩, hopener, rfl⟩ := Option.map_eq_some_iff.1 h
  refine ⟨isBlank_of_mem_indentOf, ?_, by simp⟩
  have hcontent := OpenBlock.fence_of_opener? hopener ⟨kind, [], [], 0, []⟩ rfl
  rw [← indentOf_append_contentOf line, hcontent] at hline
  exact hline.of_append.of_append

/-- One more line that is no block marker keeps a block legible. -/
theorem OpenBlock.Legible.extend {block : OpenBlock} {line stripped : List Char} (h : block.Legible)
    (hline : Enclosed line) (hstrip : block.strip? line = some stripped) :
    (block.extend [stripped]).Legible := by
  have hstripped : Enclosed stripped := by
    unfold OpenBlock.strip? at hstrip
    split at hstrip
    · cases hstrip
      exact ⟨lasting_nil, rfl⟩
    · rw [after?_eq_some_iff.1 hstrip] at hline
      refine ⟨hline.lasting.of_append, ?_⟩
      rw [← trim_append h.indent]
      exact hline.inner
  refine ⟨h.indent, h.info, fun inner hinner => ?_⟩
  rcases List.mem_append.1 hinner with hinner | hinner
  · exact h.body inner hinner
  · rw [List.mem_singleton.1 hinner]
    exact hstripped

/-! ## What an orderly text is read as -/

/-- The lines that a block has already do not say what closes it. -/
theorem fenced_extend (block : OpenBlock) (inner : List (List Char)) :
    ∀ lines, fenced (some (block.extend inner)) lines = fenced (some block) lines
  | [] => rfl
  | line :: lines => by
    rw [fenced, fenced, fenced_extend block inner lines]
    rfl

/-- All that some lines can be read as is legible. -/
def ReadsLegible (lines : List (List Char)) : Prop :=
  ∀ items, Items lines items → ∀ e ∈ items, e.Legible

theorem ReadsLegible.nil : ReadsLegible [] := by
  intro items h
  obtain rfl : items = [] := by
    generalize hlines : ([] : List (List Char)) = all at h
    cases h with
    | nil => rfl
    | block => simp at hlines
    | _ => cases hlines
  simp

/-- A line of text before other lines is an entry before theirs. -/
theorem ReadsLegible.text {line : List Char} {lines : List (List Char)} (hline : TextLine line)
    (h : ReadsLegible lines) : ReadsLegible (line :: lines) := by
  obtain ⟨hopened, hlegible⟩ := hline.legible
  intro items hitems
  rcases items_of_cons hitems with ⟨hsign, -⟩ | ⟨-, -, others, hothers, rfl⟩ | ⟨-, block, hblock, -⟩
  · exact absurd hsign hline.sign
  · rw [List.forall_mem_cons]
    exact ⟨hlegible, h others hothers⟩
  · rw [hopened] at hblock
    cases hblock

theorem ReadsLegible.sign {line : List Char} {lines : List (List Char)} (hsign : line.head? = some '#')
    (hline : Lasting line) (h : ReadsLegible lines) : ReadsLegible (line :: lines) := by
  intro items hitems
  rcases items_of_cons hitems with ⟨-, others, hothers, rfl⟩ | ⟨hnone, -⟩ | ⟨hnone, -⟩
  · rw [List.forall_mem_cons]
    exact ⟨legible_headingEntry hsign hline, h others hothers⟩
  · exact absurd hsign hnone
  · exact absurd hsign hnone

theorem ReadsLegible.append {done lines : List (List Char)} (hdone : ∀ text ∈ done, TextLine text)
    (h : ReadsLegible lines) : ReadsLegible (done ++ lines) := by
  induction done with
  | nil => exact h
  | cons text done ih =>
    obtain ⟨htext, hdone⟩ := List.forall_mem_cons.1 hdone
    exact .text htext (ih hdone)

/-- The opening of a block goes with all lines up to the one that closes the block. -/
theorem ReadsLegible.opening {line : List Char} {lines : List (List Char)} {block : OpenBlock}
    (hsign : line.head? ≠ some '#') (hopened : openedBy? line = some block)
    (h : ∀ items, ClosesWith block lines items → ∀ e ∈ items, e.Legible) : ReadsLegible (line :: lines) := by
  intro items hitems
  rcases items_of_cons hitems with ⟨hhead, -⟩ | ⟨-, hnone, -⟩ | ⟨-, other, hother, hcloses⟩
  · exact absurd hhead hsign
  · rw [hopened] at hnone
    cases hnone
  · rw [hopened] at hother
    cases hother
    exact h items hcloses

/-- The two readers take the same lines for the inside of a block, so that all entries are legible,
whether the lines begin inside a block or not. -/
theorem readsLegible_logicalFrom : ∀ {lines : List (List Char)} {block? : Option OpenBlock},
    fenced block? lines = true → (∀ line ∈ lines, Lasting line) →
    match block? with
    | none => ∀ paragraph, (∀ text ∈ joinParagraph paragraph, TextLine text) →
        ReadsLegible (logicalFrom false paragraph lines)
    | some block => block.Legible → ∀ items, ClosesWith block (logicalFrom true [] lines) items →
        ∀ e ∈ items, e.Legible
  | [], none, _, _ => fun paragraph hparagraph => by
    have := ReadsLegible.nil.append hparagraph
    rwa [List.append_nil] at this
  | [], some block, hfenced, _ => by cases hfenced
  | line :: lines, none, hfenced, hlasting => fun paragraph hparagraph => by
    obtain ⟨hline, hlines⟩ := List.forall_mem_cons.1 hlasting
    rw [fenced] at hfenced
    by_cases hmarker : isBlockMarker (trim line) = true
    · -- the marker ends the paragraph and opens a block
      rw [if_pos hmarker] at hfenced
      split at hfenced
      · rename_i block hopened
        have hsign : line.head? ≠ some '#' := fun h => by
          rw [isBlockMarker_of_sign h] at hmarker
          cases hmarker
        rw [logicalFrom_marker paragraph lines hmarker]
        exact ReadsLegible.append hparagraph (.opening hsign hopened
          (readsLegible_logicalFrom hfenced hlines (legible_of_openedBy? hline hopened)))
      · cases hfenced
    · rw [if_neg hmarker] at hfenced
      by_cases hsign : line.head? = some '#'
      · rw [logicalFrom_sign paragraph lines hsign]
        exact ReadsLegible.append hparagraph
          (.sign hsign hline (readsLegible_logicalFrom hfenced hlines [] (by simp [joinParagraph])))
      · obtain ⟨done, next, heq, hdone, hnext⟩ := exists_logicalFrom hparagraph hline.unbroken hsign
          (Bool.eq_false_of_not_eq_true hmarker) lines
        rw [heq]
        exact ReadsLegible.append hdone (readsLegible_logicalFrom hfenced hlines next hnext)
  | line :: lines, some block, hfenced, hlasting => fun hblock items hitems => by
    obtain ⟨hline, hlines⟩ := List.forall_mem_cons.1 hlasting
    rw [fenced] at hfenced
    rw [logicalFrom_inside] at hitems
    rcases closesWith_of_cons hitems with ⟨hcloses, others, hothers, rfl⟩ | ⟨hopen, stripped, hstrip, hrest⟩
    · -- only a block marker closes a block
      have hmarker : isBlockMarker (trim line) = true := by
        by_contra hnone
        rw [OpenBlock.closes_of_not_marker (Bool.eq_false_of_not_eq_true hnone)] at hcloses
        cases hcloses
      rw [if_pos hmarker, Bool.and_eq_true] at hfenced
      rw [hmarker] at hothers
      rw [List.forall_mem_cons]
      exact ⟨hblock.entry,
        readsLegible_logicalFrom hfenced.2 hlines [] (by simp [joinParagraph]) others hothers⟩
    · have hmarker : isBlockMarker (trim line) = false := by
        by_contra hsome
        rw [if_pos (by simpa using hsome), hopen] at hfenced
        cases hfenced
      rw [hmarker, if_neg Bool.false_ne_true, ← fenced_extend block [stripped]] at hfenced
      rw [hmarker] at hrest
      exact readsLegible_logicalFrom hfenced hlines (hblock.extend ⟨hline, hmarker⟩ hstrip) items hrest

/-! ## Nesting legible entries -/

theorem MayPrecede.trans {a b c : Node} (hab : MayPrecede a b) (hbc : MayPrecede b c) : MayPrecede a c := by
  cases a with
  | heading =>
    cases b with
    | heading =>
      cases c with
      | heading => exact Nat.le_trans hbc hab
      | _ => exact hbc.elim
    | _ => exact hab.elim
  | _ => trivial

theorem isHeading_over {indent : Nat} {node : Node} (h : node.isHeading = false) (below : List Node) :
    ((Entry.block indent node).over below).isHeading = false := by
  cases node with
  | heading => cases h
  | _ => rfl

/-- What does not go under an entry may come after it. -/
theorem mayPrecede_over {e a : Entry} (hbare : e.Bare) (h : e.holds a = false) (below below' : List Node) :
    MayPrecede (e.over below) (a.over below') := by
  cases e with
  | heading level text =>
    cases a with
    | heading other text' =>
      have hle : other ≤ level := by simpa [Entry.holds] using h
      exact hle
    | block => cases h
  | block indent node => exact mayPrecede_of_not_heading (isHeading_over hbare.1 below) _

/-- Blocks alone are nested without headings. -/
theorem isHeading_nest_blocks (es : List Entry) (hbare : ∀ e ∈ es, e.Bare)
    (hblocks : ∀ e ∈ es, ∃ indent node, e = .block indent node) : ∀ node ∈ nest es, node.isHeading = false := by
  induction es using nest_induction with
  | nil => simp [nest_eq, Section.nodes]
  | cons e es _ ihrest =>
    obtain ⟨hfirst, hes⟩ := List.forall_mem_cons.1 hbare
    obtain ⟨⟨indent, node, rfl⟩, hrest⟩ := List.forall_mem_cons.1 hblocks
    rw [nest_cons, List.forall_mem_cons]
    exact ⟨isHeading_over hfirst.1 _,
      ihrest (fun a ha => hes a ((List.dropWhile_sublist _).mem ha))
        fun a ha => hrest a ((List.dropWhile_sublist _).mem ha)⟩

/-- In nested entries the headings come after all else, none with more signs than the one before it. -/
theorem ranked_nest (es : List Entry) : ∀ {outer : Nat}, (∀ e ∈ es, e.Bare) →
    (∀ level text, .heading level text ∈ es → outer < level) →
    RankedAll outer (nest es) ∧ (nest es).Pairwise MayPrecede := by
  induction es using nest_induction with
  | nil => exact fun _ _ => ⟨trivial, .nil⟩
  | cons e es ihheld ihrest =>
    intro outer hbareAll hlevels
    obtain ⟨hbare, hes⟩ := List.forall_mem_cons.1 hbareAll
    have hheld : ∀ a ∈ es.takeWhile e.holds, a ∈ es ∧ e.holds a = true := fun a ha =>
      ⟨(List.takeWhile_sublist _).mem ha, List.mem_takeWhile_imp ha⟩
    have hdrop : ∀ a ∈ es.dropWhile e.holds, a ∈ es := fun a ha => (List.dropWhile_sublist _).mem ha
    obtain ⟨hrest, horder⟩ := ihrest (fun a ha => hes a (hdrop a ha))
      fun level text ha => hlevels level text (List.mem_cons_of_mem e (hdrop _ ha))
    rw [nest_cons]
    refine ⟨⟨?_, hrest⟩, List.pairwise_cons.2 ⟨?_, horder⟩⟩
    · cases e with
      | heading level text =>
        -- what a heading holds are headings with more signs
        obtain ⟨hchildren, hsorted⟩ := ihheld (fun a ha => hes a (hheld a ha).1)
          fun other text' ha => by simpa [Entry.holds] using (hheld _ ha).2
        exact ⟨hlevels level text List.mem_cons_self, hsorted, hchildren⟩
      | block indent node =>
        cases node with
        | heading => cases hbare.1
        | item marker text below =>
          have hblocks : ∀ a ∈ es.takeWhile (Entry.block indent (.item marker text below)).holds,
              ∃ other inner, a = .block other inner := fun a ha => by
            cases a with
            | heading => simpa [Entry.holds] using (hheld _ ha).2
            | block other inner => exact ⟨other, inner, rfl⟩
          obtain ⟨hchildren, -⟩ := ihheld (fun a ha => hes a (hheld a ha).1)
            fun other text' ha => by
              obtain ⟨_, _, heq⟩ := hblocks _ ha
              cases heq
          exact ⟨isHeading_nest_blocks _ (fun a ha => hes a (hheld a ha).1) hblocks, hchildren⟩
        | _ => trivial
    · -- what follows the first of the rest follows the entry as well
      cases hnext : es.dropWhile e.holds with
      | nil => simp [nest_eq, Section.nodes]
      | cons a as =>
        have hnot : e.holds a = false := by
          have := List.head?_dropWhile_not e.holds es
          simpa [hnext] using this
        rw [hnext, nest_cons] at horder
        rw [nest_cons, List.forall_mem_cons]
        have hover := mayPrecede_over hbare hnot (nest (es.takeWhile e.holds)) (nest (as.takeWhile a.holds))
        exact ⟨hover, fun node hnode => hover.trans ((List.pairwise_cons.1 horder).1 node hnode)⟩

mutual

/-- A node is legible when it and all nodes below it are, each on its own. -/
theorem Node.legible_of_ranked {outer : Nat} : ∀ {node : Node}, node.Ranked outer →
    (∀ inner ∈ node.preorder, (inner.withChildren []).Legible 0) → node.Legible outer
  | .heading .., h, hall => by
    rw [Node.preorder, List.forall_mem_cons] at hall
    exact ⟨h.1, hall.1.2.1, h.2.1, legibleAll_of_ranked h.2.2 hall.2⟩
  | .item .., h, hall => by
    rw [Node.preorder, List.forall_mem_cons] at hall
    exact ⟨hall.1.1, h.1, legibleAll_of_ranked h.2 hall.2⟩
  | .code .., _, hall => hall _ List.mem_cons_self
  | .note .., _, hall => hall _ List.mem_cons_self
  | .properties _, _, hall => hall _ List.mem_cons_self
  | .paragraph _, _, hall => hall _ List.mem_cons_self

theorem legibleAll_of_ranked {outer : Nat} : ∀ {nodes : List Node}, RankedAll outer nodes →
    (∀ inner ∈ Node.preorderAll nodes, (inner.withChildren []).Legible 0) → LegibleAll outer nodes
  | [], _, _ => trivial
  | _ :: _, h, hall => by
    rw [Node.preorderAll, List.forall_mem_append] at hall
    exact ⟨Node.legible_of_ranked h.1 hall.1, legibleAll_of_ranked h.2 hall.2⟩

end

/-- What an orderly text is read as is legible. -/
theorem legible_of_parse {text : String} {nodes : List Node} (htext : Orderly text)
    (h : parse text = .ok nodes) : Legible nodes := by
  obtain ⟨items, hentries, hnest⟩ := bind_eq_ok.1 h
  cases hnest
  have hitems := entries_eq_ok_iff.1 hentries
  have hbare := bare_of_items hitems
  have hlegible : ∀ e ∈ items, e.Legible := readsLegible_logicalFrom htext.blocks htext.lasting []
    (by simp [joinParagraph]) items hitems
  obtain ⟨hnodes, horder⟩ := ranked_nest items hbare fun level text' he => (hlegible _ he).1
  refine ⟨horder, legibleAll_of_ranked hnodes fun inner hinner => ?_⟩
  have hmem := List.mem_map_of_mem hinner (f := Node.withChildren [])
  rw [preorderAll_nest items hbare] at hmem
  obtain ⟨e, he, heq⟩ := List.mem_map.1 hmem
  rw [← heq]
  exact hlegible e he

end RefPages.Markup
