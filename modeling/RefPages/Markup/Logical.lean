/-
The logical lines of a text: the lines of a paragraph are joined into one, everything else keeps
its lines. Between two block markers lines are kept as they are, whatever the markers are.
-/
import RefPages.Markup.Line

namespace RefPages.Markup

open RefPages.Text

/-- The text with each carriage return before a line feed left out. -/
def unifyLineEnds : List Char → List Char
  | '\r' :: '\n' :: cs => '\n' :: unifyLineEnds cs
  | c :: cs => c :: unifyLineEnds cs
  | [] => []

/-- Whether a line ends the paragraph before it. -/
def endsParagraph (line : List Char) : Bool :=
  (trim line).isEmpty || startsAfresh (trim line) || isLinkDefinition line ||
    line.head? = some '#' || isBlockMarker (trim line)

/-- A paragraph as one line; no line when it is empty. -/
def joinParagraph (paragraph : List (List Char)) : List (List Char) :=
  if paragraph = [] then [] else [[' '].intercalate paragraph]

/-- A paragraph with one more line: the first line keeps its indentation. -/
def extendParagraph (paragraph : List (List Char)) (line : List Char) : List (List Char) :=
  if paragraph = [] then [trimEnd line] else paragraph ++ [trim line]

/-- The logical lines of `lines`, read inside a block or not, after the lines `paragraph` of a
paragraph that may still go on. -/
def logicalFrom (inBlock : Bool) (paragraph : List (List Char)) :
    List (List Char) → List (List Char)
  | [] => joinParagraph paragraph
  | line :: lines =>
    let marker := isBlockMarker (trim line)
    let inBlock := inBlock != marker
    let done := if endsParagraph line then joinParagraph paragraph else []
    let paragraph := if endsParagraph line then [] else paragraph
    if inBlock || line.head? = some '#' || marker then
      done ++ line :: logicalFrom inBlock paragraph lines
    else if (trim line).isEmpty then done ++ logicalFrom inBlock paragraph lines
    else done ++ logicalFrom inBlock (extendParagraph paragraph line) lines

/-- The logical lines of a text. -/
def logicalLines (text : List Char) : List (List Char) :=
  logicalFrom false [] ((unifyLineEnds text).splitOn '\n')

/-- The logical lines of a text, as texts. -/
def reflow (text : String) : List String := (logicalLines text.toList).map String.ofList

end RefPages.Markup
