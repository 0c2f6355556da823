/-
The tokens of a YAML text. A scalar is known to be a key only when the colon after it is reached;
until then the place before it is remembered, and the tokens that begin a mapping are put there.
-/
import RefPages.Yaml.Scalar

namespace RefPages.Yaml

open Text

/-- A token of a YAML text. -/
inductive Token where
  /-- The version of YAML that a text is in. -/
  | version (major minor : Nat)
  /-- A short form for tags. -/
  | tagHandle (handle start : List Char)
  | documentStart
  | documentEnd
  | blockSequence
  | blockMapping
  | blockEnd
  | flowSequence
  | flowSequenceEnd
  | flowMapping
  | flowMappingEnd
  | item
  | comma
  | key
  | value
  | aliasTo (name : List Char)
  | anchor (name : List Char)
  | tag (handle suffix : List Char)
  | scalar (text : List Char) (isPlain : Bool)
  deriving DecidableEq, Repr

/-! ## Places -/

/-- A place in a text, with the characters after it. -/
structure Cursor where
  rest : List Char
  index : Nat
  line : Nat
  column : Nat

namespace Cursor

/-- The place after some characters. -/
def skip (cursor : Cursor) : Nat → Cursor
  | 0 => cursor
  | count + 1 =>
    match cursor.rest with
    | [] => cursor
    | c :: rest =>
      skip
        { rest
          index := cursor.index + 1
          line := if isBreak c then cursor.line + 1 else cursor.line
          column := columnAfter cursor.column c }
        count

/-- The place with these characters after it. -/
def skipTo (cursor : Cursor) (rest : List Char) : Cursor :=
  cursor.skip (cursor.rest.length - rest.length)

end Cursor

/-! ## Reading on -/

/-- A place at which a key may begin. -/
structure KeyPlace where
  /-- Whether something must be a key here. -/
  isRequired : Bool
  /-- How many tokens come before it. -/
  count : Nat
  start : Cursor

/-- A text of which a part is read. -/
structure Scan where
  cursor : Cursor
  /-- The tokens so far, the newest first. -/
  tokens : List Token
  /-- The column of the innermost block collection. -/
  indent : Option Nat
  /-- The columns of the collections around it, the innermost first. -/
  outer : List (Option Nat)
  /-- Whether a key may begin here. -/
  keyAllowed : Bool
  /-- The place at which the key of the innermost collection may have begun. -/
  keyPlace : Option KeyPlace
  /-- Those of the collections around it that have brackets, the innermost first. -/
  outerKeys : List (Option KeyPlace)

namespace Scan

/-- The beginning of a text. -/
def start (text : List Char) : Scan := ⟨⟨text, 0, 0, 0⟩, [], none, [], true, none, []⟩

/-- Whether the scan is between brackets. -/
def inFlow (scan : Scan) : Bool := !scan.outerKeys.isEmpty

/-- The scan with one more token. -/
def add (scan : Scan) (token : Token) : Scan := { scan with tokens := token :: scan.tokens }

/-- The scan with a token after the first `count` ones. -/
def insert (scan : Scan) (count : Nat) (token : Token) : Scan :=
  let later := scan.tokens.length - count
  { scan with tokens := scan.tokens.take later ++ token :: scan.tokens.drop later }

/-- The scan after some more characters. -/
def skip (scan : Scan) (count : Nat) : Scan := { scan with cursor := scan.cursor.skip count }

/-- The scan with the given characters left. -/
def skipTo (scan : Scan) (rest : List Char) : Scan :=
  { scan with cursor := scan.cursor.skipTo rest }

/-! ## Blanks -/

/-- What follows blanks and comments, and whether a line ends before it. Between brackets tabs are
blanks, and so they are where no key may begin. -/
def afterBlanks (inFlow keyAllowed inComment atLineStart broken : Bool) :
    List Char → Bool × List Char
  | [] => (broken, [])
  | c :: cs =>
    if isBreak c then afterBlanks inFlow (keyAllowed || !inFlow) false true true cs
    else if inComment then afterBlanks inFlow keyAllowed true false broken cs
    else if c = ' ' || (c = '\t' && (inFlow || !keyAllowed)) then
      afterBlanks inFlow keyAllowed false false broken cs
    else if c = '#' then afterBlanks inFlow keyAllowed true false broken cs
    else if c = '\ufeff' && atLineStart then afterBlanks inFlow keyAllowed false false broken cs
    else (broken, c :: cs)

/-- The scan after blanks and comments. A new line may begin with a key. -/
def skipBlanks (scan : Scan) : Scan :=
  let (broken, rest) :=
    afterBlanks scan.inFlow scan.keyAllowed false (scan.cursor.column = 0) false scan.cursor.rest
  { scan.skipTo rest with keyAllowed := scan.keyAllowed || (broken && !scan.inFlow) }

/-! ## Keys -/

/-- Whether a key that begins at a place can still end here: on the same line, not far away. -/
def isFresh (cursor : Cursor) (place : KeyPlace) : Bool :=
  place.start.line = cursor.line && cursor.index ≤ place.start.index + 1024

/-- The place of a key unless it is too far away; none at all when there must be a key at it. -/
def freshKey? (cursor : Cursor) : Option KeyPlace → Option (Option KeyPlace)
  | none => some none
  | some place =>
    if isFresh cursor place then some (some place)
    else if place.isRequired then none
    else some none

/-- The scan without the places of keys that are too far away. -/
def forgetKeys (scan : Scan) : Option Scan := do
  let keyPlace ← freshKey? scan.cursor scan.keyPlace
  let outerKeys ← scan.outerKeys.mapM (freshKey? scan.cursor)
  return { scan with keyPlace, outerKeys }

/-- The scan without a place for a key; none when there must be one. -/
def dropKey (scan : Scan) : Option Scan :=
  match scan.keyPlace with
  | some place => if place.isRequired then none else some { scan with keyPlace := none }
  | none => some scan

/-- The scan with this place as one at which a key may begin, if keys may. -/
def keepKey (scan : Scan) : Option Scan := do
  if scan.keyAllowed then
    let isRequired := !scan.inFlow && scan.indent = some scan.cursor.column
    let scan ← scan.dropKey
    return { scan with keyPlace := some ⟨isRequired, scan.tokens.length, scan.cursor⟩ }
  else return scan

/-! ## Block collections -/

/-- Whether a column is right of a block collection. -/
def isInside (indent : Option Nat) (column : Nat) : Bool :=
  match indent with
  | some indent => indent < column
  | none => true

/-- The scan inside a block collection at a column, which begins with a token after the first
`count` ones; the innermost collection goes on if it is at this column. -/
def openBlock (scan : Scan) (column count : Nat) (token : Token) : Scan :=
  if !scan.inFlow && isInside scan.indent column then
    { scan with indent := some column, outer := scan.indent :: scan.outer }.insert count token
  else scan

/-- The tokens with the ends of the block collections that a column, if there is one, does not lie
in, and the collections that are left. -/
def closeBlocks (tokens : List Token) (column : Option Nat) (indent : Option Nat) :
    List (Option Nat) → List Token × Option Nat × List (Option Nat)
  | [] => (tokens, indent, [])
  | next :: outer =>
    match indent with
    | none => (tokens, indent, next :: outer)
    | some left =>
      if column.any (left ≤ ·) then (tokens, indent, next :: outer)
      else closeBlocks (.blockEnd :: tokens) column next outer

/-- The scan with the ends of the block collections that a column does not lie in. -/
def leaveBlocks (scan : Scan) (column : Option Nat) : Scan :=
  if scan.inFlow then scan
  else
    let (tokens, indent, outer) := closeBlocks scan.tokens column scan.indent scan.outer
    { scan with tokens, indent, outer }

/-! ## Single tokens -/

/-- The scan after a mark that ends all collections. -/
def mark (scan : Scan) (token : Token) : Option Scan := do
  let scan ← (scan.leaveBlocks none).dropKey
  return { (scan.skip 3).add token with keyAllowed := false }

/-- The scan after a bracket or brace that opens a collection. -/
def openFlow (scan : Scan) (token : Token) : Option Scan := do
  let scan ← scan.keepKey
  return { (scan.skip 1).add token with
    keyAllowed := true, keyPlace := none, outerKeys := scan.keyPlace :: scan.outerKeys }

/-- The scan after a bracket or brace that closes a collection. -/
def closeFlow (scan : Scan) (token : Token) : Option Scan := do
  let scan ← scan.dropKey
  let scan := { (scan.skip 1).add token with keyAllowed := false }
  match scan.outerKeys with
  | [] => return scan
  | keyPlace :: outerKeys => return { scan with keyPlace, outerKeys }

/-- The scan after a comma between brackets. -/
def comma (scan : Scan) : Option Scan := do
  let scan ← scan.dropKey
  return { (scan.skip 1).add .comma with keyAllowed := true }

/-- The scan in the block collection that a sign at this place belongs to; none when no collection
may begin here. -/
def inBlock (scan : Scan) (token : Token) : Option Scan :=
  if scan.inFlow then some scan
  else if scan.keyAllowed then
    some (scan.openBlock scan.cursor.column scan.tokens.length token)
  else none

/-- The scan after the hyphen before an item. -/
def item (scan : Scan) : Option Scan := do
  let scan ← (← scan.inBlock .blockSequence).dropKey
  return { (scan.skip 1).add .item with keyAllowed := true }

/-- The scan after the question mark before a key. -/
def key (scan : Scan) : Option Scan := do
  let scan ← (← scan.inBlock .blockMapping).dropKey
  return { (scan.skip 1).add .key with keyAllowed := !scan.inFlow }

/-- The scan after the colon before a value. What came since the place of a key is the key. -/
def value (scan : Scan) : Option Scan :=
  match scan.keyPlace with
  | some place =>
    let scan := (scan.insert place.count .key).openBlock place.start.column place.count .blockMapping
    some { (scan.skip 1).add .value with keyAllowed := false, keyPlace := none }
  | none => do
    let scan ← scan.inBlock .blockMapping
    return { (scan.skip 1).add .value with keyAllowed := !scan.inFlow }

/-- Whether a character may stand in the name of an anchor or of a handle. -/
def isWordChar (c : Char) : Bool := c.isAlphanum || c = '_' || c = '-'

/-- The name of an anchor or alias and the scan after it. -/
def readName (scan : Scan) (token : List Char → Token) : Option Scan := do
  let scan ← scan.keepKey
  let rest := scan.cursor.rest.drop 1
  let name := rest.takeWhile isWordChar
  let after := rest.drop name.length
  if name.isEmpty || !(atGap after || headIn "?:,]\x7d%@\x60".toList after) then none
  else return { (scan.skipTo after).add (token name) with keyAllowed := false }

/-! ## Tags -/

/-- Whether a character may stand in a tag, unescaped. -/
def isTagChar (inBrackets : Bool) (c : Char) : Bool :=
  isWordChar c || ";/?:@&=+$.!~*'()".toList.contains c || (inBrackets && ",[]".toList.contains c)

/-- The characters of a tag, where a byte may be written as two digits after a percent sign, and
what follows them; `digits` of them are still to come. -/
def tagChars (inBrackets : Bool) : Nat → List Char → Option (List Char × List Char)
  | 0, [] => some ([], [])
  | _ + 1, [] => none
  | 0, c :: cs =>
    if c = '%' then (tagChars inBrackets 2 cs).map fun (text, rest) => (c :: text, rest)
    else if isTagChar inBrackets c then
      (tagChars inBrackets 0 cs).map fun (text, rest) => (c :: text, rest)
    else some ([], c :: cs)
  | digits + 1, c :: cs =>
    if (hexDigit? c).isSome then
      (tagChars inBrackets digits cs).map fun (text, rest) => (c :: text, rest)
    else none

/-- The handle at the beginning of a tag, with both of its exclamation marks, and what follows. -/
def handle? (cs : List Char) : Option (List Char × List Char) :=
  let name := cs.tail.takeWhile isWordChar
  match cs.tail.drop name.length with
  | '!' :: rest => some ('!' :: name ++ ['!'], rest)
  | _ => none

/-- The handle and the suffix of a tag, and what follows them. -/
def tagParts? (cs : List Char) : Option (List Char × List Char × List Char) :=
  match cs with
  | '!' :: '<' :: cs => do
    let (suffix, rest) ← tagChars true 0 cs
    match rest with
    | '>' :: rest => if suffix.isEmpty then none else return ([], suffix, rest)
    | _ => none
  | _ =>
    match handle? cs with
    | some (handle, rest) => do
      let (suffix, rest) ← tagChars false 0 rest
      if suffix.isEmpty then none else return (handle, suffix, rest)
    | none => do
      let (suffix, rest) ← tagChars false 0 cs.tail
      return if suffix.isEmpty then ([], ['!'], rest) else (['!'], suffix, rest)

/-- The scan after a tag. -/
def readTag (scan : Scan) : Option Scan := do
  let scan ← scan.keepKey
  let (handle, suffix, rest) ← tagParts? scan.cursor.rest
  if atGap rest || (scan.inFlow && rest.head? = some ',') then
    return { (scan.skipTo rest).add (.tag handle suffix) with keyAllowed := false }
  else none

/-! ## Directives -/

/-- A number of at most nine digits and what follows it. -/
def versionNumber? (cs : List Char) : Option (Nat × List Char) :=
  let digits := cs.takeWhile Char.isDigit
  if digits.length ≤ 9 then (digitsValue? 10 digits).map (·, cs.drop digits.length) else none

/-- The version that a directive gives, and what follows it. -/
def version? (cs : List Char) : Option (Token × List Char) := do
  let (major, rest) ← versionNumber? (cs.dropWhile isSpace)
  match rest with
  | '.' :: rest =>
    let (minor, rest) ← versionNumber? rest
    return (.version major minor, rest)
  | _ => none

/-- The handle that a directive declares, and what follows it. -/
def tagHandle? (cs : List Char) : Option (Token × List Char) := do
  let cs := cs.dropWhile isSpace
  let (handle, rest) ←
    match cs, handle? cs with
    | '!' :: _, some found => some found
    | '!' :: rest, none => some (['!'], rest)
    | _, _ => none
  if headIn [' ', '\t'] rest then
    let (start, rest) ← tagChars true 0 (rest.dropWhile isSpace)
    if start.isEmpty || !atGap rest then none else return (.tagHandle handle start, rest)
  else none

/-- The scan after a directive. -/
def directive (scan : Scan) : Option Scan := do
  let scan ← (scan.leaveBlocks none).dropKey
  let rest := scan.cursor.rest.drop 1
  let name := rest.takeWhile isWordChar
  let after := rest.drop name.length
  if !atGap after then none
  else
    let (token, after) ←
      if name = "YAML".toList then version? after
      else if name = "TAG".toList then tagHandle? after
      else none
    let after ← lineEnd? after
    return { (scan.skipTo after).add token with keyAllowed := false }

/-! ## Scalars -/

/-- The scan after a block of lines. -/
def readBlockScalar (scan : Scan) (folds : Bool) : Option Scan := do
  let scan ← scan.dropKey
  let (text, rest) ← readBlock folds scan.indent (scan.cursor.rest.drop 1)
  return { (scan.skipTo rest).add (.scalar text false) with keyAllowed := true }

/-- The scan after a scalar in quotes. -/
def readQuoted (scan : Scan) (isDouble : Bool) : Option Scan := do
  let scan ← scan.keepKey
  let inside := scan.cursor.rest.drop 1
  let column := scan.cursor.column + 1
  let (text, rest) ←
    if isDouble then doubleQuotedFrom column [] .none false .inText inside
    else singleQuotedFrom column [] .none false false inside
  return { (scan.skipTo rest).add (.scalar text false) with keyAllowed := false }

/-- The scan after a plain scalar. -/
def readPlain (scan : Scan) : Option Scan := do
  let scan ← scan.keepKey
  let indent := (scan.indent.map (· + 1)).getD 0
  let scalar ← plainFrom scan.inFlow indent scan.cursor.column [] .none false scan.cursor.rest
  return { (scan.skipTo scalar.rest).add (.scalar scalar.text true) with
    keyAllowed := scalar.isBroken }

/-- The characters that mean something before a scalar, so that no plain one begins with them. -/
def indicators : List Char := "-?:,[]\x7b\x7d#&*!|>'\"%@\x60".toList

/-- Whether a plain scalar begins with these characters. -/
def beginsPlain (inFlow : Bool) (cs : List Char) : Bool :=
  match cs with
  | [] => false
  | c :: rest =>
    !(isSpace c || isBreak c || indicators.contains c) || (c = '-' && !headIn [' ', '\t'] rest) ||
      (!inFlow && (c = '?' || c = ':') && !atGap rest)

/-! ## All tokens -/

/-- The scan after the token that begins with `c`, which is followed by `rest`. -/
def readToken (scan : Scan) (c : Char) (rest : List Char) : Option Scan :=
  let atStart := scan.cursor.column = 0
  if atStart && c = '%' then scan.directive
  else if atStart && atDocumentMark (c :: rest) then
    scan.mark (if c = '-' then .documentStart else .documentEnd)
  else if c = '[' then scan.openFlow .flowSequence
  else if c = '\x7b' then scan.openFlow .flowMapping
  else if c = ']' then scan.closeFlow .flowSequenceEnd
  else if c = '\x7d' then scan.closeFlow .flowMappingEnd
  else if c = ',' then scan.comma
  else if c = '-' && atGap rest then scan.item
  else if c = '?' && (scan.inFlow || atGap rest) then scan.key
  else if c = ':' && (scan.inFlow || atGap rest) then scan.value
  else if c = '*' then scan.readName .aliasTo
  else if c = '&' then scan.readName .anchor
  else if c = '!' then scan.readTag
  else if c = '|' && !scan.inFlow then scan.readBlockScalar false
  else if c = '>' && !scan.inFlow then scan.readBlockScalar true
  else if c = '\'' then scan.readQuoted false
  else if c = '"' then scan.readQuoted true
  else if beginsPlain scan.inFlow (c :: rest) then scan.readPlain
  else none

/-- All tokens in order, read in at most as many steps as there are characters. -/
def finish : Nat → Scan → Option (List Token)
  | 0, _ => none
  | steps + 1, scan => do
    let scan ← scan.skipBlanks.forgetKeys
    let scan := scan.leaveBlocks (some scan.cursor.column)
    match scan.cursor.rest with
    | [] => return (← (scan.leaveBlocks none).dropKey).tokens.reverse
    | c :: rest => finish steps (← scan.readToken c rest)

end Scan

/-! ## Texts -/

/-- Whether a character may stand in a YAML text. -/
def isPrintable (c : Char) : Bool :=
  c = '\t' || c = '\n' || c = '\r' || c = '\u0085' || (0x20 ≤ c.val && c.val ≤ 0x7E) ||
    (0xA0 ≤ c.val && c.val ≤ 0xFFFD) || 0x10000 ≤ c.val

/-- A text with line feeds in place of carriage returns and next line characters. -/
def withLineFeeds : List Char → List Char
  | [] => []
  | '\r' :: '\n' :: cs => '\n' :: withLineFeeds cs
  | c :: cs => (if c = '\r' || c = '\u0085' then '\n' else c) :: withLineFeeds cs

/-- The tokens of a YAML text; none when it has none. -/
def tokens? (text : List Char) : Option (List Token) :=
  if text.all isPrintable then
    let cs := withLineFeeds text
    (Scan.start cs).finish (cs.length + 1)
  else none

end RefPages.Yaml
