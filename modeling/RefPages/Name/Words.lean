/-
The words that an identifier is made of, and the identifier respelled from them: snake case,
kebab case, Pascal case, and the name of a variable that holds an instance.
-/
import RefPages.Text.Chars
import RefPages.Text.LetterCase

namespace RefPages.Name

open RefPages.Text

/-! ## Words -/

/-- Whether a capital after `previous` and before `rest` begins a word: it follows a small letter
or a digit, or it is the last of several capitals before a small letter. -/
def beginsWord (previous : Char) (rest : List Char) : Bool :=
  isLowercase previous || previous.isDigit ||
    (isUppercase previous && (rest.head?.map isLowercase).getD false)

/-- The finished word, when it has characters. -/
def finished (word : List Char) : List (List Char) := if word = [] then [] else [word]

/-- The words of `cs` after `word`, the part of a word already read, whose last character was
`previous`. -/
def wordsFrom (word : List Char) (previous : Char) : List Char → List (List Char)
  | [] => finished word
  | c :: cs =>
    if !isAlphanumeric c then finished word ++ wordsFrom [] c cs
    else if isUppercase c && !word.isEmpty && beginsWord previous cs then
      word :: wordsFrom (lowerChar c) c cs
    else wordsFrom (word ++ lowerChar c) c cs

/-- The words of an identifier in small letters. A word ends before a character that is neither a
letter nor a digit, and at a change of case. -/
def words (cs : List Char) : List (List Char) := wordsFrom [] ' ' cs

/-! ## Spellings -/

/-- The text with its first character as a capital. -/
def capitalized : List Char → List Char
  | [] => []
  | c :: cs => upperChar c ++ cs

/-- The words joined by underscores. -/
def snakeCase (name : String) : String :=
  String.ofList (['_'].intercalate (words name.toList))

/-- The words joined by hyphens. -/
def kebabCase (name : String) : String :=
  String.ofList (['-'].intercalate (words name.toList))

/-- The words run together, each with a capital. -/
def pascalCase (name : String) : String :=
  String.ofList ((words name.toList).flatMap capitalized)

/-- The name with its first character as a capital. -/
def titleCase (name : String) : String := String.ofList (capitalized name.toList)

/-- The variable that an instance of a class is held in: the words run together, each but the
first with a capital. -/
def variableName (className : String) : String :=
  match words className.toList with
  | [] => ""
  | first :: rest => String.ofList (first ++ rest.flatMap capitalized)

end RefPages.Name
