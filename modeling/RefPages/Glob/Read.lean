/-
Patterns read from their text: stars, question marks, characters in brackets, alternatives in
braces, and backslashes before characters that stand for themselves.
-/
import RefPages.Fault
import RefPages.Glob.Basic

namespace RefPages.Glob

/-! ## Characters in brackets -/

/-- Brackets of which a part is read. -/
structure OpenBracket where
  negated : Bool
  /-- The ranges so far, the newest first. -/
  ranges : List (Char × Char)
  /-- Whether a hyphen waits for the end of its range. -/
  inRange : Bool

/-- The newest range with another end; none when its ends are out of order. -/
def endRange (ranges : List (Char × Char)) (last : Char) : Option (List (Char × Char)) :=
  match ranges with
  | [] => none
  | (first, _) :: ranges => if first ≤ last then some ((first, last) :: ranges) else none

/-- The brackets after one more character that does not close them; none when a range is out of
order. -/
def OpenBracket.add (bracket : OpenBracket) (c : Char) : Option OpenBracket :=
  if bracket.inRange then
    (endRange bracket.ranges c).map fun ranges => { bracket with ranges, inRange := false }
  else if c = '-' ∧ !bracket.ranges.isEmpty then some { bracket with inRange := true }
  else some { bracket with ranges := (c, c) :: bracket.ranges }

/-- What the brackets match. A hyphen that waits for the end of its range stands for itself. -/
def OpenBracket.close (bracket : OpenBracket) : GlobPart :=
  let ranges := if bracket.inRange then ('-', '-') :: bracket.ranges else bracket.ranges
  .oneOf bracket.negated ranges.reverse

/-- Brackets with nothing in them. -/
def OpenBracket.empty (negated : Bool) : OpenBracket := ⟨negated, [], false⟩

/-- What stands in brackets after the mark that negates them, and all that follows. -/
def insideBracket (cs : List Char) : List Char :=
  if cs.head? = some '!' ∨ cs.head? = some '^' then cs.tail else cs

/-- Whether brackets are closed: the first character in them never closes them. -/
def isClosed (cs : List Char) : Bool := (insideBracket cs).tail.contains ']'

/-- Whether brackets that are not closed may stand for themselves: their ranges are in order. -/
def canStayOpen (cs : List Char) : Bool :=
  ((insideBracket cs).foldlM OpenBracket.add (OpenBracket.empty false)).isSome

/-! ## Groups -/

/-- A group that is not closed yet. -/
structure OpenGroup where
  /-- The parts before the group, the newest first. -/
  before : List GlobPart
  /-- The finished branches, the newest first. -/
  branches : List (List GlobPart)

/-- A pattern of which a part is read. -/
structure Reading where
  /-- The parts of the innermost branch, the newest first. -/
  parts : List GlobPart
  /-- The groups around it, the innermost first. -/
  groups : List OpenGroup

namespace Reading

/-- The reading with one more part. -/
def add (reading : Reading) (part : GlobPart) : Reading :=
  { reading with parts := part :: reading.parts }

/-- The reading inside a new group. -/
def openGroup (reading : Reading) : Reading := ⟨[], ⟨reading.parts, []⟩ :: reading.groups⟩

/-- The reading after a comma, which stands for itself outside of groups. -/
def comma (reading : Reading) : Reading :=
  match reading.groups with
  | [] => reading.add (.char ',')
  | ⟨before, branches⟩ :: groups => ⟨[], ⟨before, reading.parts.reverse :: branches⟩ :: groups⟩

/-- The reading after the end of a group; none outside of groups. -/
def closeGroup (reading : Reading) : Option Reading :=
  match reading.groups with
  | [] => none
  | ⟨before, branches⟩ :: groups =>
    some ⟨.group (reading.parts.reverse :: branches).reverse :: before, groups⟩

/-- The pattern that is read; none when a group is open. -/
def finish (reading : Reading) : Option Glob :=
  if reading.groups.isEmpty then some ⟨reading.parts.reverse⟩ else none

/-! ## Two stars -/

/-- Whether two stars after `previous` stand between slashes or at the beginning of a branch. -/
def followsSlash (reading : Reading) (previous : Option Char) : Bool :=
  previous = some '/' ||
    (!reading.groups.isEmpty && (previous = some ',' || previous = some '{'))

/-- The reading with two stars that follow a slash: they take the place of the slash, unless they
follow two stars that did. -/
def addStars (reading : Reading) (part : GlobPart) : Reading :=
  match reading.parts with
  | [] => reading.add part
  | .leading :: _ | .trailing :: _ => reading
  | _ :: parts => { reading with parts := part :: parts }

/-- The reading with two stars that are no more than one. -/
def addPlainStars (reading : Reading) : Reading := (reading.add .many).add .many

/-- The reading with two stars at the end of a branch. -/
def addLastStars (reading : Reading) (previous : Option Char) : Reading :=
  if reading.parts.isEmpty then reading.add .leading
  else if reading.followsSlash previous then reading.addStars .trailing
  else reading.addPlainStars

/-- The reading with two stars before a slash, and the slash if the stars do not take it. -/
def addStarsBeforeSlash (reading : Reading) (previous : Option Char) : Reading :=
  if reading.parts.isEmpty then reading.add .leading
  else if reading.followsSlash previous then reading.addStars .between
  else reading.addPlainStars.add (.char '/')

/-- The reading with two stars before a comma or the end of a group. -/
def addStarsInGroup (reading : Reading) (previous : Option Char) : Reading :=
  if !reading.parts.isEmpty && reading.followsSlash previous then reading.addStars .trailing
  else reading.addPlainStars

end Reading

/-! ## Patterns -/

/-- Where in a pattern a character stands. -/
inductive Position where
  | plain
  /-- Right after a bracket that opens. -/
  | bracketStart
  | inBracket (bracket : OpenBracket)

/-- The pattern that begins with a reading and goes on with the characters after `previous`. When
brackets may stay open, the first that do stand for themselves, as do all after them. -/
def readFrom (mayStayOpen : Bool) (previous : Option Char) (reading : Reading) :
    Position → List Char → Option Glob
  | .plain, [] => reading.finish
  | .bracketStart, [] | .inBracket _, [] => none
  | .bracketStart, c :: cs =>
    if c = '!' ∨ c = '^' then
      readFrom mayStayOpen (some c) reading (.inBracket (.empty true)) cs
    else
      match (OpenBracket.empty false).add c with
      | some bracket => readFrom mayStayOpen (some c) reading (.inBracket bracket) cs
      | none => none
  | .inBracket bracket, c :: cs =>
    if c = ']' ∧ !bracket.ranges.isEmpty then
      readFrom mayStayOpen (some c) (reading.add bracket.close) .plain cs
    else
      match bracket.add c with
      | some bracket => readFrom mayStayOpen (some c) reading (.inBracket bracket) cs
      | none => none
  | .plain, ['*', '*'] => (reading.addLastStars previous).finish
  | .plain, '*' :: '*' :: '/' :: cs =>
    readFrom mayStayOpen (some '/') (reading.addStarsBeforeSlash previous) .plain cs
  | .plain, '*' :: '*' :: ',' :: cs =>
    let reading :=
      if reading.groups.isEmpty then reading.addPlainStars
      else reading.addStarsInGroup previous
    readFrom mayStayOpen (some ',') reading.comma .plain cs
  | .plain, '*' :: '*' :: '}' :: cs =>
    match (reading.addStarsInGroup previous).closeGroup with
    | some reading => readFrom mayStayOpen (some '}') reading .plain cs
    | none => none
  | .plain, '*' :: '*' :: cs => readFrom mayStayOpen (some '*') reading.addPlainStars .plain cs
  | .plain, ['\\'] => none
  | .plain, '\\' :: c :: cs => readFrom mayStayOpen (some c) (reading.add (.char c)) .plain cs
  | .plain, '[' :: cs =>
    if isClosed cs then readFrom mayStayOpen (some '[') reading .bracketStart cs
    else if mayStayOpen && canStayOpen cs then
      readFrom mayStayOpen (some '[') (reading.add (.char '[')) .plain cs
    else none
  | .plain, c :: cs =>
    if c = '}' then
      match reading.closeGroup with
      | some reading => readFrom mayStayOpen (some c) reading .plain cs
      | none => none
    else
      let reading :=
        if c = '?' then reading.add .any
        else if c = '*' then reading.add .many
        else if c = '\x7b' then reading.openGroup
        else if c = ',' then reading.comma
        else reading.add (.char c)
      readFrom mayStayOpen (some c) reading .plain cs

/-- The pattern that a text writes. -/
def read? (mayStayOpen : Bool) (text : List Char) : Option Glob :=
  readFrom mayStayOpen none ⟨[], []⟩ .plain text

/-! ## Several patterns -/

/-- The patterns that texts write, all of which must be right. -/
def readAll (texts : List String) : Except Fault (List Glob) :=
  texts.mapM fun text =>
    match read? false text.toList with
    | some glob => if glob.isOrdered then .ok glob else .error .badConfig
    | none => .error .badConfig

/-- Whether one of several patterns matches a path. A star matches slashes, too. -/
def anyAccepts (globs : List Glob) (path : List Char) : Bool := globs.any (accepts false · path)

end RefPages.Glob
