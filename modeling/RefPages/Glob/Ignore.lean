/-
Lists of files to pass over. Each line is a pattern with marks around it: an exclamation mark
takes files back, a slash before the pattern ties it to the folder of the list, and a slash after
it restricts it to folders. The last line that applies decides.
-/
import RefPages.Glob.Read
import RefPages.Text.Blank

namespace RefPages

open Text

/-- One line of a list of files to pass over. -/
structure IgnoreRule where
  glob : Glob
  /-- Whether what matches is taken back. -/
  takesBack : Bool
  onlyFolders : Bool

namespace IgnoreRule

/-- The rest of a line after the marks before its pattern, whether it takes files back, and whether
it is tied to the folder of the list. -/
def leadingMarks (line : List Char) : Bool × Bool × List Char :=
  match line with
  | '\\' :: '!' :: rest => (false, false, '!' :: rest)
  | '\\' :: '#' :: rest => (false, false, '#' :: rest)
  | _ =>
    let takesBack := line.head? = some '!'
    let rest := if takesBack then line.tail else line
    if rest.head? = some '/' then (takesBack, true, rest.tail) else (takesBack, false, rest)

/-- The pattern without the slash after it, which may be escaped, and whether there was one. -/
def trailingMark (pattern : List Char) : Bool × List Char :=
  match before? ['/'] pattern with
  | some rest => (true, (before? ['\\'] rest).getD rest)
  | none => (false, pattern)

/-- The pattern as it applies to paths: one without slashes may begin in any folder, and one for
all that is in a folder does not match the folder. -/
def wholePattern (isTied : Bool) (pattern : List Char) : List Char :=
  let anywhere := "**/".toList
  let inFolder := "/**".toList
  let whole :=
    if isTied ∨ pattern.contains '/' ∨ pattern = "**".toList then pattern else anywhere ++ pattern
  if endsWith inFolder whole then whole ++ "/*".toList else whole

/-- The rule that a line gives; none for comments, for blank lines and for wrong patterns. -/
def read? (line : List Char) : Option IgnoreRule :=
  let line := if endsWith "\\ ".toList line then line else trimEnd line
  if line = [] ∨ line.head? = some '#' then none
  else
    let (takesBack, isTied, pattern) := leadingMarks line
    let (onlyFolders, pattern) := trailingMark pattern
    (Glob.read? true (wholePattern isTied pattern)).map fun glob =>
      { glob, takesBack, onlyFolders }

/-- Whether the rule applies to a file or a folder. -/
def applies (rule : IgnoreRule) (path : List Char) (isFolder : Bool) : Bool :=
  (!rule.onlyFolders || isFolder) && rule.glob.accepts true path

end IgnoreRule

/-- The rules of a list of files to pass over. One pattern that cannot be matched leaves no
rules. -/
def ignoreRules (lines : List (List Char)) : List IgnoreRule :=
  let rules := lines.filterMap IgnoreRule.read?
  if rules.all (·.glob.isOrdered) then rules else []

/-- Whether a file or a folder is passed over. -/
def passesOver (rules : List IgnoreRule) (path : List Char) (isFolder : Bool) : Bool :=
  match (rules.filter (·.applies path isFolder)).getLast? with
  | some rule => !rule.takesBack
  | none => false

end RefPages
