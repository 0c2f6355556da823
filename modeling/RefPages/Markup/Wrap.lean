/-
Breaking a paragraph into lines of limited width. A line is never broken before a token that
would begin something other than the rest of the paragraph.
-/
import RefPages.Markup.Line

namespace RefPages.Markup

open RefPages.Text

/-- Whether a token would end the paragraph if it began a line. -/
def beginsBlock (token : List Char) : Bool :=
  startsAfresh token || token.head? = some '#' || isBlockMarker token || contains [']', ':'] token

/-- The lines of `tokens` after the unfinished line `line`. A line is broken before a token when
line and token together reach `width` bytes, the token is not empty and may begin a line; each
further line begins with `indent`. While the line is empty, what comes next begins it after
`lead`. -/
def fill (width : Nat) (lead indent : List Char) (line : List Char) :
    List (List Char) → List (List Char)
  | [] => [line]
  | token :: tokens =>
    if line = [] then fill width lead indent (lead ++ token) tokens
    else if byteCount line + byteCount token ≥ width && !token.isEmpty && !beginsBlock token then
      line :: fill width lead indent (indent ++ token) tokens
    else fill width lead indent (line ++ ' ' :: token) tokens

/-- The lines above `line`, the nearest first, with `line` below them: a line that would read as
a link target definition is pulled up to the end of the line above it. -/
def pullUp (line : List Char) : List (List Char) → List (List Char)
  | [] => [line]
  | above :: rest =>
    if isLinkDefinition line then pullUp (above ++ ' ' :: trimStart line) rest
    else line :: above :: rest

/-- The lines with every line but the first that reads as a link target definition pulled up. -/
def settle (lines : List (List Char)) : List (List Char) :=
  (lines.foldl (fun above line => pullUp line above) []).reverse

/-- A text without line breaks in lines of at most `width` bytes where that is possible, the
first after `lead` and the others indented by as many blanks. A width of 0 means no limit, and a
table row is never broken. -/
def wrapLine (width : Nat) (lead text : List Char) : List Char :=
  if width = 0 || startsWith ['|'] (trimStart text) then lead ++ text
  else ['\n'].intercalate (settle (fill width lead (spaces (byteCount lead)) [] (text.splitOn ' ')))

/-- A text wrapped line by line: its first line begins with `lead`, every other with as many
blanks. -/
def wrapChars (width : Nat) (lead text : List Char) : List Char :=
  match text.splitOn '\n' with
  | [] => []
  | first :: rest =>
    ['\n'].intercalate
      (wrapLine width lead first :: rest.map (wrapLine width (spaces (byteCount lead))))

/-- A text wrapped line by line. -/
def wrap (width : Nat) (lead text : String) : String :=
  String.ofList (wrapChars width lead.toList text.toList)

end RefPages.Markup
