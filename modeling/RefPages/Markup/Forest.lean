/-
From logical lines to a forest. First every line, and every block of lines between two markers,
becomes an entry with its depth; then the entries are nested, from the last to the first: an
entry takes the deeper entries that follow it.
-/
import RefPages.Markup.Logical
import RefPages.Markup.Node
import RefPages.Fault

namespace RefPages.Markup

open RefPages.Text

/-! ## Entries -/

/-- A line or a block of lines with its depth: the number of signs of a heading, the indentation
of anything else. The nodes have no children yet. -/
inductive Entry where
  | heading (level : Nat) (text : String)
  | block (indent : Nat) (node : Node)
  deriving DecidableEq, Repr

/-- The lines around `at`, from five before it to four after it, as a fault shows them. -/
def snippet (lines : List (List Char)) (position : Nat) : String :=
  String.ofList (['\n'].intercalate ((lines.drop (position - 5)).take 10))

/-- A block whose closing marker has not been read yet. -/
structure OpenBlock where
  kind : BlockKind
  indent : List Char
  /-- What follows the opening marker on its line. -/
  info : List Char
  /-- The position of the opening line. -/
  start : Nat
  /-- The lines read so far, without the indentation. -/
  body : List (List Char)

namespace OpenBlock

/-- The marker that closes a block. -/
def fence (block : OpenBlock) : List Char :=
  match block.kind with
  | .code => codeFence
  | .note => noteFence
  | .properties => propertiesFence

/-- The node of a closed block. The lines of a note are one text. -/
def node (block : OpenBlock) : Node :=
  match block.kind with
  | .code => .code (String.ofList block.info) (block.body.map String.ofList)
  | .note =>
    .note (String.ofList (trim block.info))
      (String.ofList ([' '].intercalate (block.body.filter (· ≠ []))))
  | .properties => .properties (block.body.map String.ofList)

/-- The block with one more line: the line loses the block's indentation, which it must have
unless it is empty and the block is not one of properties. -/
def addLine? (block : OpenBlock) (line : List Char) : Option OpenBlock :=
  if line = [] ∧ block.kind ≠ .properties then some { block with body := block.body ++ [[]] }
  else (after? block.indent line).map fun rest => { block with body := block.body ++ [rest] }

end OpenBlock

/-- The text of a heading line after its signs: one character, commonly a blank, is passed over;
when that is not an ASCII character no text is left. -/
def headingText : List Char → List Char
  | [] => []
  | c :: cs => if c.utf8Size = 1 then cs else []

/-- The block that a line without its indentation opens. -/
def opener? (content : List Char) : Option (BlockKind × List Char) :=
  match after? codeFence content with
  | some info => some (.code, info)
  | none =>
    match after? noteFence content with
    | some info => some (.note, info)
    | none => (after? propertiesFence content).map fun info => (.properties, info)

/-- The node of a line without its indentation that opens no block. -/
def lineNode (content : List Char) : Node :=
  match after? ['-', ' '] content with
  | some text => .item .dash (String.ofList text) []
  | none =>
    match after? ['*', ' '] content with
    | some text => .item .star (String.ofList text) []
    | none =>
      match after? ['1', '.', ' '] content with
      | some text => .item .number (String.ofList text) []
      | none => .paragraph (String.ofList content)

/-- The entries of the lines from `position` on, of a document whose lines are `all`, after the
opening of a block that is not closed yet, if there is one. -/
def entriesFrom (all : List (List Char)) :
    Nat → Option OpenBlock → List (List Char) → Except Fault (List Entry)
  | _, none, [] => .ok []
  | _, some block, [] => .error (.badBlock block.kind (snippet all block.start))
  | position, some block, line :: lines =>
    if startsWith block.fence (trim line) then do
      let entries ← entriesFrom all (position + 1) none lines
      return .block block.indent.length block.node :: entries
    else
      match block.addLine? line with
      | some block => entriesFrom all (position + 1) (some block) lines
      | none => .error (.badBlock block.kind (snippet all position))
  | position, none, line :: lines =>
    let signs := (line.takeWhile (· = '#')).length
    if signs > 0 then do
      let entries ← entriesFrom all (position + 1) none lines
      return .heading signs (String.ofList (headingText (line.drop signs))) :: entries
    else
      let indent := line.takeWhile (· = ' ')
      let content := line.dropWhile (· = ' ')
      match opener? content with
      | some (kind, info) =>
        entriesFrom all (position + 1) (some ⟨kind, indent, info, position, []⟩) lines
      | none => do
        let entries ← entriesFrom all (position + 1) none lines
        return .block indent.length (lineNode content) :: entries

/-- The entries of a document. -/
def entries (lines : List (List Char)) : Except Fault (List Entry) := entriesFrom lines 0 none lines

/-! ## Nesting -/

/-- A node with its depth. -/
abbrev Placed := Nat × Node

/-- The part of a document from some entry on: the blocks before its first heading, then its
outermost headings. -/
structure Section where
  blocks : List Placed
  headings : List Placed

/-- The nodes of a section in order. -/
def Section.nodes (tail : Section) : List Node :=
  tail.blocks.map (·.2) ++ tail.headings.map (·.2)

/-- The leading nodes that are deeper than `depth`, and the rest. -/
def splitDeeper (depth : Nat) (placed : List Placed) : List Placed × List Placed :=
  placed.span (depth < ·.1)

/-- The section that begins with one more entry. A list item takes the blocks with more
indentation that follow it. A heading takes all blocks up to the next heading, and the deeper
headings after them. -/
def Entry.attach : Entry → Section → Section
  | .block indent (.item marker text _), tail =>
    let (inside, outside) := splitDeeper indent tail.blocks
    { tail with blocks := (indent, .item marker text (inside.map (·.2))) :: outside }
  | .block indent node, tail => { tail with blocks := (indent, node) :: tail.blocks }
  | .heading level text, tail =>
    let (inside, outside) := splitDeeper level tail.headings
    ⟨[], (level, .heading level text (Section.nodes ⟨tail.blocks, inside⟩)) :: outside⟩

/-- The forest of a list of entries. -/
def nest (entries : List Entry) : List Node := (entries.foldr Entry.attach ⟨[], []⟩).nodes

/-- The forest of a list of logical lines. -/
def forest (lines : List (List Char)) : Except Fault (List Node) := do
  return nest (← entries lines)

/-- The forest of a list of logical lines given as texts. -/
def buildTree (lines : List String) : Except Fault (List Node) := forest (lines.map String.toList)

/-- The forest of a text. -/
def parse (text : String) : Except Fault (List Node) := forest (logicalLines text.toList)

/-- Of a text, nothing but its characters matters. -/
theorem parse_of_toList {text : String} {cs : List Char} (h : text.toList = cs) :
    parse text = forest (logicalLines cs) := by
  rw [parse, h]

end RefPages.Markup
