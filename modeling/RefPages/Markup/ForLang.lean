/-
The part of a document that is meant for one language: nodes whose list of languages leaves it
out are dropped with everything below them, and so are code samples in another language.
-/
import RefPages.Lang
import RefPages.Markup.Node
import RefPages.Text.Blank

namespace RefPages.Markup

open RefPages.Text

/-! ## Nodes restricted to languages -/

/-- The text after `langs:` in the bullet that lists languages. -/
def langsOf? : Node → Option (List Char)
  | .item .star text _ => after? "langs:".toList text.toList
  | _ => none

/-- Whether a list of languages, separated by commas, names a language; unknown names do not
count. -/
def lists (lang : Lang) (names : List Char) : Bool :=
  (names.splitOn ',').any fun name => Lang.ofName? (String.ofList (trim name)) = some lang

/-- Whether nodes under one node restrict it to other languages than `lang`. The first bullet
with a list of languages counts. -/
def excludes (lang : Lang) (children : List Node) : Bool :=
  match children.findSome? langsOf? with
  | some names => !lists lang names
  | none => false

mutual

/-- The node without the parts that are not for a language; none when it is not for it itself. -/
def forLang? (lang : Lang) : Node → Option Node
  | .heading level text children =>
    if excludes lang children then none else some (.heading level text (forLangUnder lang children))
  | .item marker text children =>
    if excludes lang children then none else some (.item marker text (forLangUnder lang children))
  | leaf => some leaf

/-- The nodes under a node that is for the language, without the bullet that says so. -/
def forLangUnder (lang : Lang) : List Node → List Node
  | [] => []
  | node :: nodes =>
    if (langsOf? node).isSome then forLang lang nodes
    else (forLang? lang node).toList ++ forLangUnder lang nodes

/-- The forest without the parts that are not for a language, and without the bullets that say
which language a part is for. -/
def forLang (lang : Lang) : List Node → List Node
  | [] => []
  | node :: nodes => (forLang? lang node).toList ++ forLang lang nodes

end

/-! ## Code samples -/

/-- Whether the first info word of a code sample says that it is in another language. -/
def isForeignCode (lang : Lang) (info : String) : Bool :=
  match words info.toList with
  | [] => false
  | word :: _ =>
    let word := String.ofList word
    ["js", "ts", "python", "py", "java", "csharp"].contains word && Lang.ofName? word != some lang

mutual

/-- The node without the code samples in other languages; none when it is one. -/
def withOwnCode? (lang : Lang) : Node → Option Node
  | .heading level text children => some (.heading level text (withOwnCode lang children))
  | .item marker text children => some (.item marker text (withOwnCode lang children))
  | .code info lines => if isForeignCode lang info then none else some (.code info lines)
  | leaf => some leaf

/-- The forest without the code samples in other languages. -/
def withOwnCode (lang : Lang) : List Node → List Node
  | [] => []
  | node :: nodes => (withOwnCode? lang node).toList ++ withOwnCode lang nodes

end

end RefPages.Markup
