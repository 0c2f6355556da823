/-
From a forest back to text. A node yields lines; what precedes it decides only whether an empty
line separates them.
-/
import RefPages.Markup.Node
import RefPages.Markup.Wrap

namespace RefPages.Markup

open RefPages.Text

/-- Whether the last of the lines written is empty, or there is none; `before` says so for the
lines before `lines`. -/
def endsBlank (before : Bool) (lines : List (List Char)) : Bool :=
  match lines.getLast? with
  | some line => line.isEmpty
  | none => before

/-- An empty line, unless the lines so far end with one or there are none. -/
def gap (blank : Bool) : List (List Char) := if blank then [] else [[]]

/-- Whether a paragraph and the node before it are both paragraphs that begin with `start`. -/
def bothStartWith (start text : List Char) (last : Option Node) : Bool :=
  startsWith start text &&
    match last with
    | some (.paragraph before) => startsWith start before.toList
    | _ => false

/-- Whether a paragraph belongs to the table, the comment, the quotation or the link target
definitions that the node before it is part of, so that no empty line separates them. -/
def isTight (text : List Char) (last : Option Node) : Bool :=
  bothStartWith ['|'] text last || bothStartWith ['<', '!', '-', '-'] text last ||
    bothStartWith ['>'] text last ||
    (isLinkDefinition text &&
      match last with
      | some (.paragraph before) => isLinkDefinition before.toList
      | _ => false)

/-- The lines of a paragraph after the node `last`. -/
def renderParagraph (width : Nat) (indent text : List Char) (last : Option Node)
    (blank : Bool) : List (List Char) :=
  (if !isTight text last && (last.bind Node.inlineText?).isSome then gap blank else []) ++
    [wrapChars width indent text]

/-- A line of code; an empty line gets no indentation. -/
def codeLine (indent line : List Char) : List Char := if line = [] then [] else indent ++ line

/-- The lines of a node without children. -/
def renderLeaf (width : Nat) (indent : List Char) (last : Option Node) (blank : Bool) :
    Node → List (List Char)
  | .paragraph text => renderParagraph width indent text.toList last blank
  | .code info lines =>
    gap blank ++ (indent ++ codeFence ++ info.toList) ::
      (lines.map fun line => codeLine indent line.toList) ++ [indent ++ codeFence, []]
  | .note kind text =>
    gap blank ++
      [indent ++ noteFence ++ kind.toList, wrapChars width indent text.toList,
        indent ++ noteFence, []]
  | .properties lines =>
    (indent ++ propertiesFence) :: (lines.map fun line => indent ++ line.toList) ++
      [indent ++ propertiesFence, []]
  | .heading .. | .item .. => []

mutual

/-- The lines of a node under an indentation, after the node `last`; `blank` says that no
separating line is needed. -/
def renderNode (width : Nat) (indent : List Char) (last : Option Node) (blank : Bool) :
    Node → List (List Char)
  | .heading level text children =>
    let lines := gap blank ++ [List.replicate level '#' ++ ' ' :: text.toList]
    lines ++
      renderSiblings width (some (.heading level text children)) (endsBlank blank lines) children
  | .item marker text children =>
    let lead := indent ++ marker.symbol.toList ++ [' ']
    let lines := [wrapChars width lead text.toList]
    lines ++
      renderUnder width (indent ++ spaces (byteCount marker.symbol.toList + 1))
        (.item marker text children) (endsBlank blank lines) children
  | leaf => renderLeaf width indent last blank leaf

/-- The lines of nodes that follow one another without indentation. -/
def renderSiblings (width : Nat) (last : Option Node) (blank : Bool) :
    List Node → List (List Char)
  | [] => []
  | node :: nodes =>
    let lines := renderNode width [] last blank node
    lines ++ renderSiblings width (some node) (endsBlank blank lines) nodes

/-- The lines of the nodes under a list item, each of which takes the item for the node before
it. -/
def renderUnder (width : Nat) (indent : List Char) (parent : Node) (blank : Bool) :
    List Node → List (List Char)
  | [] => []
  | node :: nodes =>
    let lines := renderNode width indent (some parent) blank node
    lines ++ renderUnder width indent parent (endsBlank blank lines) nodes

end

/-- The lines without the empty ones after them. -/
def dropBlankEnd (lines : List (List Char)) : List (List Char) :=
  (lines.reverse.dropWhile (·.isEmpty)).reverse

/-- The text of a forest in lines of at most `width` bytes where that is possible; 0 means no
limit. -/
def render (width : Nat) (nodes : List Node) : String :=
  String.ofList
    (['\n'].intercalate (dropBlankEnd (renderSiblings width none true nodes)) ++ ['\n'])

end RefPages.Markup
