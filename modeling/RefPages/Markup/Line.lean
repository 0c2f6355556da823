/-
What the beginning of a line says: block markers, list and table markers, and definitions of
link targets.
-/
import RefPages.Text.Blank

namespace RefPages.Markup

open RefPages.Text

/-- The marker around code. -/
def codeFence : List Char := ['\x60', '\x60', '\x60']

/-- The marker around notes. -/
def noteFence : List Char := [':', ':', ':']

/-- The marker around properties. -/
def propertiesFence : List Char := ['-', '-', '-']

/-- Whether a line without the white space around it opens or closes a block. -/
def isBlockMarker (trimmed : List Char) : Bool :=
  startsWith codeFence trimmed || startsWith propertiesFence trimmed || startsWith noteFence trimmed

/-- Whether a line without the white space around it begins a list item, a quotation, a tag or a
table row, so that it never continues a paragraph. -/
def startsAfresh (trimmed : List Char) : Bool :=
  [['1', '.'], ['<'], ['>'], ['|'], ['-'], ['*']].any (startsWith · trimmed)

/-- Whether the text after an opening bracket closes it after at least one character and goes on
with a colon. -/
def closesDefinition (cs : List Char) : Bool :=
  match cs.span (· ≠ ']') with
  | (label, _ :: rest) => !label.isEmpty && rest.head? = some ':'
  | (_, []) => false

/-- Whether a line holds a link target definition, a label in brackets before a colon. -/
def isLinkDefinition : List Char → Bool
  | [] => false
  | c :: cs => (c = '[' && closesDefinition cs) || isLinkDefinition cs

end RefPages.Markup
