/-
What the lines of a document are, without saying how they are read: a line that begins with a sign
is a heading, a line that opens a block begins a block that ends with the first line that closes
it, and every other line is an item or a paragraph. `entries_eq_ok_iff` says that reading succeeds
exactly on documents of that form, with their items as the result.
-/
import RefPages.Markup.Forest
import RefPages.Proofs.Fallible

namespace RefPages.Markup

open RefPages.Text

/-! ## Lines of a block -/

/-- The blanks that a line begins with. -/
def indentOf (line : List Char) : List Char := line.takeWhile (· = ' ')

/-- A line without the blanks it begins with. -/
def contentOf (line : List Char) : List Char := line.dropWhile (· = ' ')

/-- Whether a line closes a block. -/
def OpenBlock.closes (block : OpenBlock) (line : List Char) : Bool := startsWith block.fence (trim line)

/-- A line of a block as the block keeps it: without the indentation of the block, which it must
have unless it is empty and the block is not one of properties. -/
def OpenBlock.strip? (block : OpenBlock) (line : List Char) : Option (List Char) :=
  if line = [] ∧ block.kind ≠ .properties then some [] else after? block.indent line

/-- The block with lines that have lost its indentation. -/
def OpenBlock.extend (block : OpenBlock) (inner : List (List Char)) : OpenBlock :=
  { block with body := block.body ++ inner }

/-- The block that a line opens when it is the first of the block. -/
def openedBy? (line : List Char) : Option OpenBlock :=
  (opener? (contentOf line)).map fun opened => ⟨opened.1, indentOf line, opened.2, 0, []⟩

/-- The entry of a closed block. -/
def OpenBlock.entry (block : OpenBlock) : Entry := .block block.indent.length block.node

/-- The headings, list items, paragraphs and blocks of the lines of a document, in order. -/
inductive Items : List (List Char) → List Entry → Prop
  | nil : Items [] []
  | heading {line : List Char} {lines : List (List Char)} {items : List Entry} :
      line.head? = some '#' → Items lines items →
      Items (line :: lines)
        (.heading (line.takeWhile (· = '#')).length
          (String.ofList (headingText (line.dropWhile (· = '#')))) :: items)
  | line {line : List Char} {lines : List (List Char)} {items : List Entry} :
      line.head? ≠ some '#' → openedBy? line = none → Items lines items →
      Items (line :: lines) (.block (indentOf line).length (lineNode (contentOf line)) :: items)
  | block {opening closing : List Char} {body inner lines : List (List Char)} {block : OpenBlock}
      {items : List Entry} :
      opening.head? ≠ some '#' → openedBy? opening = some block →
      (∀ line ∈ body, block.closes line = false) → body.mapM block.strip? = some inner →
      block.closes closing = true → Items lines items →
      Items (opening :: body ++ closing :: lines) ((block.extend inner).entry :: items)

/-! ## Reading lines one by one -/

namespace OpenBlock

@[simp] theorem strip?_extend (block : OpenBlock) (inner : List (List Char)) :
    (block.extend inner).strip? = block.strip? := rfl

@[simp] theorem extend_extend (block : OpenBlock) (inner more : List (List Char)) :
    (block.extend inner).extend more = block.extend (inner ++ more) := by
  simp [extend]

@[simp] theorem extend_nil (block : OpenBlock) : block.extend [] = block := by simp [extend]

theorem addLine?_eq (block : OpenBlock) (line : List Char) :
    block.addLine? line = (block.strip? line).map fun rest => block.extend [rest] := by
  unfold addLine? strip?
  split <;> rfl

/-- Where a block began does not show in its entry. -/
theorem entry_extend_start (block : OpenBlock) (start : Nat) (inner : List (List Char)) :
    (({ block with start } : OpenBlock).extend inner).entry = (block.extend inner).entry := by
  unfold entry node extend
  cases block.kind <;> rfl

end OpenBlock

theorem opener?_contentOf {line : List Char} {kind : BlockKind} {info : List Char}
    (h : opener? (contentOf line) = some (kind, info)) :
    openedBy? line = some ⟨kind, indentOf line, info, 0, []⟩ := by
  simp [openedBy?, h]

theorem length_takeWhile_sign_pos (line : List Char) :
    0 < (line.takeWhile (· = '#')).length ↔ line.head? = some '#' := by
  cases line with
  | nil => simp
  | cons c cs => by_cases h : c = '#' <;> simp [h]

theorem drop_length_takeWhile {α : Type} (p : α → Bool) (as : List α) :
    as.drop (as.takeWhile p).length = as.dropWhile p := by
  have h : (as.takeWhile p ++ as.dropWhile p).drop (as.takeWhile p).length = as.dropWhile p :=
    List.drop_left
  rwa [List.takeWhile_append_dropWhile] at h

/-- What follows the opening of a block: lines that do not close it and have its indentation, a
line that closes it, and the rest of the document. -/
def ClosesWith (block : OpenBlock) (lines : List (List Char)) (items : List Entry) : Prop :=
  ∃ body inner closing rest others, lines = body ++ closing :: rest ∧
    (∀ line ∈ body, block.closes line = false) ∧ body.mapM block.strip? = some inner ∧
    block.closes closing = true ∧ Items rest others ∧ items = (block.extend inner).entry :: others

theorem closesWith_cons {block : OpenBlock} {line stripped : List Char}
    {lines : List (List Char)} {items : List Entry} (hopen : block.closes line = false)
    (hstrip : block.strip? line = some stripped)
    (h : ClosesWith (block.extend [stripped]) lines items) : ClosesWith block (line :: lines) items := by
  obtain ⟨body, inner, closing, rest, others, rfl, hbody, hinner, hclosing, hrest, rfl⟩ := h
  refine ⟨line :: body, stripped :: inner, closing, rest, others, rfl, ?_, ?_, hclosing, hrest, ?_⟩
  · intro l hl
    rcases List.mem_cons.1 hl with rfl | hl
    · exact hopen
    · exact hbody l hl
  · rw [OpenBlock.strip?_extend] at hinner
    simp [hstrip, hinner]
  · simp

/-- A document that can be read has the items that reading gives, whether or not it begins inside
a block. -/
theorem items_of_entriesFrom {all : List (List Char)} :
    ∀ {lines : List (List Char)} {position : Nat} {block? : Option OpenBlock} {items : List Entry},
      entriesFrom all position block? lines = .ok items →
      match block? with
      | none => Items lines items
      | some block => ClosesWith block lines items
  | [], _, none, items, h => by
    cases h
    exact .nil
  | [], _, some block, items, h => by
    rw [entriesFrom] at h
    cases h
  | line :: lines, position, some block, items, h => by
    rw [entriesFrom] at h
    split at h
    · -- the line closes the block
      rename_i hclose
      obtain ⟨others, hothers, h⟩ := bind_eq_ok.1 h
      cases h
      exact ⟨[], [], line, lines, others, rfl, by simp, rfl, hclose, items_of_entriesFrom hothers,
        by simp [OpenBlock.entry]⟩
    · rename_i hclose
      split at h
      · rename_i extended hadd
        rw [OpenBlock.addLine?_eq] at hadd
        obtain ⟨stripped, hstrip, rfl⟩ := Option.map_eq_some_iff.1 hadd
        exact closesWith_cons (Bool.eq_false_of_not_eq_true hclose) hstrip (items_of_entriesFrom h)
      · cases h
  | line :: lines, position, none, items, h => by
    rw [entriesFrom] at h
    simp only at h
    split at h
    · rename_i hsigns
      obtain ⟨others, hothers, h⟩ := bind_eq_ok.1 h
      cases h
      rw [drop_length_takeWhile]
      exact .heading ((length_takeWhile_sign_pos line).1 hsigns) (items_of_entriesFrom hothers)
    · rename_i hsigns
      have hhead : line.head? ≠ some '#' := fun hh => hsigns ((length_takeWhile_sign_pos line).2 hh)
      split at h
      · -- the line opens a block, which ends where the induction says
        rename_i kind info hopener
        obtain ⟨body, inner, closing, rest, others, rfl, hbody, hinner, hclosing, hrest, rfl⟩ :=
          items_of_entriesFrom h
        have := Items.block hhead (opener?_contentOf hopener) hbody hinner hclosing hrest
        rwa [← OpenBlock.entry_extend_start _ position] at this
      · rename_i hopener
        obtain ⟨others, hothers, h⟩ := bind_eq_ok.1 h
        cases h
        exact .line hhead (by simpa [openedBy?, contentOf] using hopener) (items_of_entriesFrom hothers)

/-! ## Reading succeeds on documents of this form -/

/-- Reading a block that is open gives its entry at the line that closes it, and goes on after that
line. -/
theorem entriesFrom_block {all rest : List (List Char)} {closing : List Char} :
    ∀ {body inner : List (List Char)} {block : OpenBlock} {position : Nat},
      (∀ line ∈ body, block.closes line = false) → body.mapM block.strip? = some inner →
      block.closes closing = true →
      entriesFrom all position (some block) (body ++ closing :: rest) = do
        let entries ← entriesFrom all (position + body.length + 1) none rest
        return (block.extend inner).entry :: entries
  | [], inner, block, position, _, hinner, hclosing => by
    obtain rfl : inner = [] := by simpa using hinner.symm
    have hfence : startsWith block.fence (trim closing) = true := hclosing
    rw [List.nil_append, entriesFrom, if_pos hfence, OpenBlock.extend_nil]
    rfl
  | line :: body, inner, block, position, hbody, hinner, hclosing => by
    rw [List.mapM_cons] at hinner
    obtain ⟨stripped, hstrip, hinner⟩ := Option.bind_eq_some_iff.1 hinner
    obtain ⟨others', hothers, hinner⟩ := Option.bind_eq_some_iff.1 hinner
    cases hinner
    have hopen : ¬ startsWith block.fence (trim line) = true :=
      Bool.not_eq_true _ ▸ hbody line List.mem_cons_self
    have hadd : block.addLine? line = some (block.extend [stripped]) := by
      rw [OpenBlock.addLine?_eq, hstrip]
      rfl
    rw [List.cons_append, entriesFrom, if_neg hopen, hadd]
    have hrec : entriesFrom all (position + 1) (some (block.extend [stripped])) (body ++ closing :: rest) = _ :=
      entriesFrom_block (fun l hl => hbody l (List.mem_cons_of_mem _ hl)) hothers hclosing
    have hposition : position + (body.length + 1) = position + 1 + body.length := by omega
    simpa [hposition] using hrec

/-- A document of the form described has exactly its items as entries. -/
theorem entriesFrom_of_items {all lines : List (List Char)} {items : List Entry}
    (h : Items lines items) : ∀ position, entriesFrom all position none lines = .ok items := by
  induction h with
  | nil =>
    intro position
    rfl
  | @heading line lines items hhead _ ih =>
    intro position
    rw [entriesFrom]
    simp only [gt_iff_lt, (length_takeWhile_sign_pos line).2 hhead, if_true, ih,
      drop_length_takeWhile]
    rfl
  | @line line lines items hhead hopened _ ih =>
    intro position
    have hsigns : ¬ 0 < (line.takeWhile (· = '#')).length := fun hp =>
      hhead ((length_takeWhile_sign_pos line).1 hp)
    have hopener : opener? (line.dropWhile (· = ' ')) = none := by
      simpa [openedBy?, contentOf] using hopened
    rw [entriesFrom]
    simp only [gt_iff_lt, hsigns, if_false, hopener, ih]
    rfl
  | @block opening closing body inner lines block items hhead hopened hbody hinner hclosing _ ih =>
    intro position
    have hsigns : ¬ 0 < (opening.takeWhile (· = '#')).length := fun hp =>
      hhead ((length_takeWhile_sign_pos opening).1 hp)
    obtain ⟨⟨kind, info⟩, hopener, rfl⟩ := Option.map_eq_some_iff.1 hopened
    rw [contentOf] at hopener
    rw [List.cons_append, entriesFrom]
    simp only [gt_iff_lt, hsigns, if_false, hopener]
    rw [← OpenBlock.entry_extend_start _ position]
    have hread : entriesFrom all (position + 1) (some ⟨kind, indentOf opening, info, position, []⟩)
        (body ++ closing :: lines) = _ := entriesFrom_block hbody hinner hclosing
    rw [ih] at hread
    exact hread

/-- Reading succeeds exactly on documents of the form described, and gives their items. -/
theorem entries_eq_ok_iff {lines : List (List Char)} {items : List Entry} :
    entries lines = .ok items ↔ Items lines items :=
  ⟨fun h => items_of_entriesFrom h, fun h => entriesFrom_of_items h 0⟩

theorem Items.append {lines lines' : List (List Char)} {items items' : List Entry}
    (h : Items lines items) (h' : Items lines' items') : Items (lines ++ lines') (items ++ items') := by
  induction h with
  | nil => exact h'
  | heading hhead _ ih => exact .heading hhead ih
  | line hhead hopened _ ih => exact .line hhead hopened ih
  | block hhead hopened hbody hinner hclosing _ ih =>
    rw [List.append_assoc, List.cons_append]
    exact .block hhead hopened hbody hinner hclosing ih

/-! ## The first line of a document -/

/-- The entry of a line that begins with a sign. -/
def headingEntry (line : List Char) : Entry :=
  .heading (line.takeWhile (· = '#')).length (String.ofList (headingText (line.dropWhile (· = '#'))))

/-- The first line of a document is a heading, an item of its own or the opening of a block. -/
theorem items_of_cons {line : List Char} {lines : List (List Char)} {items : List Entry}
    (h : Items (line :: lines) items) :
    (line.head? = some '#' ∧ ∃ others, Items lines others ∧ items = headingEntry line :: others) ∨
      (line.head? ≠ some '#' ∧ openedBy? line = none ∧ ∃ others, Items lines others ∧
        items = .block (indentOf line).length (lineNode (contentOf line)) :: others) ∨
      (line.head? ≠ some '#' ∧ ∃ block, openedBy? line = some block ∧ ClosesWith block lines items) := by
  generalize hlines : line :: lines = all at h
  cases h with
  | nil => cases hlines
  | heading hhead hrest =>
    cases hlines
    exact .inl ⟨hhead, _, hrest, rfl⟩
  | line hhead hopened hrest =>
    cases hlines
    exact .inr (.inl ⟨hhead, hopened, _, hrest, rfl⟩)
  | block hhead hopened hbody hinner hclosing hrest =>
    rw [List.cons_append] at hlines
    cases hlines
    exact .inr (.inr ⟨hhead, _, hopened, _, _, _, _, _, rfl, hbody, hinner, hclosing, hrest, rfl⟩)

/-- The first line after the opening of a block closes the block or is one of its lines. -/
theorem closesWith_of_cons {block : OpenBlock} {line : List Char} {lines : List (List Char)}
    {items : List Entry} (h : ClosesWith block (line :: lines) items) :
    (block.closes line = true ∧ ∃ others, Items lines others ∧ items = block.entry :: others) ∨
      (block.closes line = false ∧ ∃ stripped, block.strip? line = some stripped ∧
        ClosesWith (block.extend [stripped]) lines items) := by
  obtain ⟨body, inner, closing, rest, others, hlines, hbody, hinner, hclosing, hrest, rfl⟩ := h
  cases body with
  | nil =>
    cases hlines
    obtain rfl : inner = [] := by simpa using hinner.symm
    exact .inl ⟨hclosing, others, hrest, by rw [OpenBlock.extend_nil]⟩
  | cons first body =>
    cases hlines
    rw [List.mapM_cons] at hinner
    obtain ⟨stripped, hstrip, hmore⟩ := Option.bind_eq_some_iff.1 hinner
    obtain ⟨more, hbodyMore, heq⟩ := Option.bind_eq_some_iff.1 hmore
    cases heq
    exact .inr ⟨hbody line List.mem_cons_self, stripped, hstrip, body, more, closing, rest, others, rfl,
      fun l hl => hbody l (List.mem_cons_of_mem _ hl), hbodyMore, hclosing, hrest, by simp⟩

/-- A block ends with the first line that closes it. -/
theorem closesWith_append {block : OpenBlock} {closing : List Char} {lines : List (List Char)} {items : List Entry}
    (hclosing : block.closes closing = true) :
    ∀ {body : List (List Char)}, (∀ line ∈ body, block.closes line = false) →
      ClosesWith block (body ++ closing :: lines) items →
      ∃ inner others, body.mapM block.strip? = some inner ∧ Items lines others ∧
        items = (block.extend inner).entry :: others
  | [], _, h => by
    rcases closesWith_of_cons h with ⟨-, others, hothers, rfl⟩ | ⟨hopen, -⟩
    · exact ⟨[], others, rfl, hothers, by rw [OpenBlock.extend_nil]⟩
    · rw [hclosing] at hopen
      cases hopen
  | line :: body, hbody, h => by
    obtain ⟨hline, hbody⟩ := List.forall_mem_cons.1 hbody
    rcases closesWith_of_cons h with ⟨hcloses, -⟩ | ⟨-, stripped, hstrip, hrest⟩
    · rw [hline] at hcloses
      cases hcloses
    · obtain ⟨inner, others, hinner, hothers, rfl⟩ :=
        closesWith_append (show (block.extend [stripped]).closes closing = true from hclosing) hbody hrest
      rw [OpenBlock.strip?_extend] at hinner
      exact ⟨stripped :: inner, others, by simp [hstrip, hinner], hothers, by simp⟩

/-- What a line is read as on its own it is also read as before other lines. -/
theorem items_of_cons_singleton {line : List Char} {e : Entry} {lines : List (List Char)} {items : List Entry}
    (hline : Items [line] [e]) (h : Items (line :: lines) items) :
    ∃ others, Items lines others ∧ items = e :: others := by
  rcases items_of_cons hline with ⟨hsign, others, -, heq⟩ | ⟨hsign, hopened, others, -, heq⟩ | ⟨-, block, -, hcloses⟩
  · cases heq
    rcases items_of_cons h with ⟨-, rest, hrest, rfl⟩ | ⟨hnone, -⟩ | ⟨hnone, -⟩
    · exact ⟨rest, hrest, rfl⟩
    · exact absurd hsign hnone
    · exact absurd hsign hnone
  · cases heq
    rcases items_of_cons h with ⟨hhead, -⟩ | ⟨-, -, rest, hrest, rfl⟩ | ⟨-, block, hblock, -⟩
    · exact absurd hhead hsign
    · exact ⟨rest, hrest, rfl⟩
    · rw [hopened] at hblock
      cases hblock
  · -- nothing closes the block
    obtain ⟨body, inner, closing, rest, others, hlines, -⟩ := hcloses
    simp at hlines

end RefPages.Markup
