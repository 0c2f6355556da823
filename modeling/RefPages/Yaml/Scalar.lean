/-
YAML scalars, read from their characters: plain ones, ones in quotes, and blocks of lines. Each
reader returns the text of the scalar and the characters after it, and refuses what is wrong.
-/
import RefPages.Text.Quoted

namespace RefPages.Yaml

open Text

/-! ## Blanks and line breaks -/

/-- Whether a character is a blank within a line. -/
def isSpace (c : Char) : Bool := c = ' ' || c = '\t'

/-- Whether a character ends a line. Carriage returns are line feeds by now. -/
def isBreak (c : Char) : Bool := c = '\n' || c = '\u2028' || c = '\u2029'

/-- Whether a text begins with a blank or a line break, or is at its end. -/
def atGap (cs : List Char) : Bool :=
  match cs with
  | [] => true
  | c :: _ => isSpace c || isBreak c

/-- Whether a line begins with the mark before or after a document. -/
def atDocumentMark (cs : List Char) : Bool :=
  match after? ['-', '-', '-'] cs, after? ['.', '.', '.'] cs with
  | some rest, _ => atGap rest
  | none, some rest => atGap rest
  | none, none => false

/-- Whether the next character is one of several. -/
def headIn (characters : List Char) (cs : List Char) : Bool :=
  match cs with
  | [] => false
  | c :: _ => characters.contains c

/-- The column after a character. -/
def columnAfter (column : Nat) (c : Char) : Nat := if isBreak c then 0 else column + 1

/-! ## Folding -/

/-- What stands between two words of a scalar. -/
inductive Gap where
  | spaces (blanks : List Char)
  /-- A first line break, unless it is escaped, and further ones. -/
  | broken (first : Option Char) (more : List Char)

namespace Gap

/-- Words without a gap between them. -/
def none : Gap := .spaces []

/-- Whether the gap goes on to another line. -/
def isBroken : Gap → Bool
  | .spaces _ => false
  | .broken .. => true

/-- The gap after one more blank or line break. Blanks before and after line breaks are lost. -/
def add (gap : Gap) (c : Char) : Gap :=
  match gap with
  | .spaces blanks => if isBreak c then .broken (some c) [] else .spaces (blanks ++ [c])
  | .broken first more => if isBreak c then .broken first (more ++ [c]) else .broken first more

/-- The text that the gap is in the scalar: one line break is a blank, and of several the first is
lost. -/
def text : Gap → List Char
  | .spaces blanks => blanks
  | .broken (some '\n') [] => [' ']
  | .broken (some '\n') more => more
  | .broken first more => first.toList ++ more

end Gap

/-! ## Plain scalars -/

/-- A scalar that has been read, whether it ends on a later line than its last word, and the
characters after it. -/
structure PlainScalar where
  text : List Char
  isBroken : Bool
  rest : List Char

/-- Whether a plain scalar ends before these characters, which follow a gap. -/
def endsPlain (inFlow : Bool) (indent column : Nat) (cs : List Char) : Bool :=
  (!inFlow && column < indent) || (column = 0 && atDocumentMark cs) || cs.head? = some '#'

/-- The plain scalar that begins with a text and a gap and goes on with the given characters.
Outside of brackets its lines are indented by `indent` columns at least. -/
def plainFrom (inFlow : Bool) (indent column : Nat) (text : List Char) (gap : Gap)
    (afterGap : Bool) : List Char → Option PlainScalar
  | [] => some ⟨text, gap.isBroken, []⟩
  | c :: cs =>
    if isSpace c || isBreak c then
      if gap.isBroken && column < indent && c = '\t' then none
      else plainFrom inFlow indent (columnAfter column c) text (gap.add c) true cs
    else if afterGap && endsPlain inFlow indent column (c :: cs) then
      some ⟨text, gap.isBroken, c :: cs⟩
    else if inFlow && c = ':' && headIn [',', '?', '[', ']', '\x7b', '\x7d'] cs then none
    else if (c = ':' && atGap cs) || (inFlow && headIn [',', '[', ']', '\x7b', '\x7d'] [c]) then
      some ⟨text, gap.isBroken, c :: cs⟩
    else plainFrom inFlow indent (column + 1) (text ++ gap.text ++ [c]) .none false cs

/-! ## Scalars in quotes -/

/-- Where in a scalar in quotes a character stands. -/
inductive QuotePosition where
  | inText
  /-- After a backslash. -/
  | escape
  /-- Before the last digits of the number of a character. -/
  | number (missing value : Nat)

/-- The character that a letter after a backslash stands for. -/
def escapedChar? : Char → Option Char
  | '0' => some '\x00'
  | 'a' => some '\x07'
  | 'b' => some '\x08'
  | 't' | '\t' => some '\t'
  | 'n' => some '\n'
  | 'v' => some '\x0b'
  | 'f' => some '\x0c'
  | 'r' => some '\r'
  | 'e' => some '\x1b'
  | ' ' => some ' '
  | '"' => some '"'
  | '/' => some '/'
  | '\\' => some '\\'
  | 'N' => some '\u0085'
  | '_' => some '\u00a0'
  | 'L' => some '\u2028'
  | 'P' => some '\u2029'
  | _ => none

/-- How many digits follow a letter after a backslash. -/
def escapeDigits? : Char → Option Nat
  | 'x' => some 2
  | 'u' => some 4
  | 'U' => some 8
  | _ => none

/-- The scalar between double quotes that begins with a text and a gap. -/
def doubleQuotedFrom (column : Nat) (text : List Char) (gap : Gap) (afterGap : Bool) :
    QuotePosition → List Char → Option (List Char × List Char)
  | _, [] => none
  | .inText, c :: cs =>
    if isSpace c || isBreak c then
      doubleQuotedFrom (columnAfter column c) text (gap.add c) true .inText cs
    else if afterGap && column = 0 && atDocumentMark (c :: cs) then none
    else if c = '"' then some (text ++ gap.text, cs)
    else if c = '\\' then doubleQuotedFrom (column + 1) (text ++ gap.text) .none false .escape cs
    else doubleQuotedFrom (column + 1) (text ++ gap.text ++ [c]) .none false .inText cs
  | .escape, c :: cs =>
    if isBreak c then doubleQuotedFrom 0 text (.broken none []) true .inText cs
    else
      match escapedChar? c, escapeDigits? c with
      | some escaped, _ =>
        doubleQuotedFrom (column + 1) (text ++ [escaped]) .none false .inText cs
      | none, some digits =>
        doubleQuotedFrom (column + 1) text .none false (.number digits 0) cs
      | none, none => none
  | .number missing value, c :: cs =>
    match hexDigit? c with
    | none => none
    | some digit =>
      let value := value * 16 + digit
      if missing ≤ 1 then
        if value.isValidChar then
          doubleQuotedFrom (column + 1) (text ++ [Char.ofNat value]) .none false .inText cs
        else none
      else doubleQuotedFrom (column + 1) text .none false (.number (missing - 1) value) cs

/-- The scalar between single quotes that begins with a text and a gap. Two quotes are one; of two
of them the second is read after the first, `afterQuote`. -/
def singleQuotedFrom (column : Nat) (text : List Char) (gap : Gap) (afterGap afterQuote : Bool) :
    List Char → Option (List Char × List Char)
  | [] => if afterQuote then some (text, []) else none
  | c :: cs =>
    if afterQuote then
      if c = '\'' then singleQuotedFrom (column + 1) (text ++ ['\'']) .none false false cs
      else some (text, c :: cs)
    else if isSpace c || isBreak c then
      singleQuotedFrom (columnAfter column c) text (gap.add c) true false cs
    else if afterGap && column = 0 && atDocumentMark (c :: cs) then none
    else if c = '\'' then singleQuotedFrom (column + 1) (text ++ gap.text) .none false true cs
    else singleQuotedFrom (column + 1) (text ++ gap.text ++ [c]) .none false false cs

/-! ## Blocks -/

/-- What becomes of the line breaks after the last line of a block. -/
inductive Chomping where
  | strip
  | clip
  | keep
  deriving DecidableEq

/-- How a block is read. -/
structure BlockStyle where
  /-- Whether its lines are joined. -/
  folds : Bool
  chomping : Chomping
  /-- The least column for its lines while the column is not known. -/
  least : Nat

/-- A block of which a part is read. -/
structure Block where
  text : List Char
  /-- The column at which its lines begin. -/
  indent : Option Nat
  /-- The furthest column that the lines before the first one with text reach. -/
  widest : Nat
  /-- The break after the last line with text. -/
  lastBreak : Option Char
  /-- The breaks after the lines without text that follow. -/
  moreBreaks : List Char
  /-- Whether the last line with text begins with a blank. -/
  wasIndented : Bool

namespace Block

/-- The block before its first line. -/
def empty (indent : Option Nat) : Block := ⟨[], indent, 0, none, [], false⟩

/-- Whether a column is left of the lines of the block, as far as that is known. -/
def isBefore (block : Block) (column : Nat) : Bool :=
  match block.indent with
  | some indent => column < indent
  | none => true

/-- The block once a line reaches a column. -/
def reach (block : Block) (column : Nat) : Block := { block with widest := max block.widest column }

/-- The column of the lines of the block. -/
def column (style : BlockStyle) (block : Block) : Nat :=
  block.indent.getD (max block.widest style.least)

/-- The block at the beginning of a line with text, whose first character is `c`. -/
def beginLine (style : BlockStyle) (block : Block) (c : Char) : Block :=
  let joined :=
    if style.folds && block.lastBreak = some '\n' && !block.wasIndented && !isSpace c then
      if block.moreBreaks = [] then [' '] else []
    else block.lastBreak.toList
  { text := block.text ++ joined ++ block.moreBreaks ++ [c]
    indent := some (block.column style)
    widest := block.widest
    lastBreak := none
    moreBreaks := []
    wasIndented := isSpace c }

/-- The text of the block when no more lines follow. -/
def finish (style : BlockStyle) (block : Block) : List Char :=
  match style.chomping with
  | .strip => block.text
  | .clip => block.text ++ block.lastBreak.toList
  | .keep => block.text ++ block.lastBreak.toList ++ block.moreBreaks

end Block

/-- The block that begins with some lines and goes on with the given characters: within a line, or
after the blanks before one, as many as `spaces`. -/
def blockFrom (style : BlockStyle) (block : Block) (spaces : Option Nat) :
    List Char → Option (List Char × List Char)
  | [] => some (block.finish style, [])
  | c :: cs =>
    match spaces with
    | none =>
      if isBreak c then blockFrom style { block with lastBreak := some c } (some 0) cs
      else blockFrom style { block with text := block.text ++ [c] } none cs
    | some column =>
      if c = ' ' && block.isBefore column then blockFrom style block (some (column + 1)) cs
      else
        let block := block.reach column
        if c = '\t' && block.isBefore column then none
        else if isBreak c then
          blockFrom style { block with moreBreaks := block.moreBreaks ++ [c] } (some 0) cs
        else if column = block.column style then
          blockFrom style (block.beginLine style c) none cs
        else some (block.finish style, c :: cs)

/-- The digit that gives the indentation of a block. -/
def indentDigit? (c : Char) : Option Nat := if c.isDigit then some (c.toNat - 48) else none

/-- The sign that says what becomes of the last line breaks. -/
def chompingSign? : Char → Option Chomping
  | '-' => some .strip
  | '+' => some .keep
  | _ => none

/-- The marks after the sign that opens a block, in either order, and the characters after
them. -/
def blockMarks (cs : List Char) : Option Chomping × Option Nat × List Char :=
  match cs with
  | [] => (none, none, [])
  | c :: cs =>
    match chompingSign? c, indentDigit? c with
    | some chomping, _ =>
      match cs.head?.bind indentDigit? with
      | some digit => (some chomping, some digit, cs.tail)
      | none => (some chomping, none, cs)
    | none, some digit =>
      match cs.head?.bind chompingSign? with
      | some chomping => (some chomping, some digit, cs.tail)
      | none => (none, some digit, cs)
    | none, none => (none, none, c :: cs)

/-- What follows the blanks and the comment at the end of a line; none when there is something
else. -/
def lineEnd? (cs : List Char) : Option (List Char) :=
  let rest := cs.dropWhile isSpace
  let rest := if rest.head? = some '#' then rest.dropWhile (!isBreak ·) else rest
  match rest with
  | [] => some []
  | c :: rest => if isBreak c then some rest else none

/-- The block after the sign that opens it. Its lines are indented further than `around`, the
column of the collection that it stands in. -/
def readBlock (folds : Bool) (around : Option Nat) (cs : List Char) :
    Option (List Char × List Char) :=
  let (chomping, digit, rest) := blockMarks cs
  if digit = some 0 then none
  else
    match lineEnd? rest with
    | none => none
    | some lines =>
      let style : BlockStyle :=
        ⟨folds, chomping.getD .clip, (around.map (· + 1)).getD 1⟩
      blockFrom style (.empty (digit.map (around.getD 0 + ·))) (some 0) lines

end RefPages.Yaml
