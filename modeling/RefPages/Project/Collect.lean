/-
The documents of a folder: all Markdown files in it and in the folders below, except for those
that are hidden, that belong to other folders, or that the folder itself passes over.
-/
import RefPages.Glob.Ignore
import RefPages.Project.Disk

namespace RefPages

open Text

/-! ## What a folder passes over -/

/-- The lines of a text, without the characters that end them. -/
def fileLines (text : List Char) : List (List Char) :=
  let lines := text.splitOn '\n'
  let lines := if lines.getLast? = some [] then lines.dropLast else lines
  lines.map fun line => (before? ['\r'] line).getD line

/-- The lines that bytes make up, without their ends. -/
def byteLines : List UInt8 → List (List UInt8)
  | [] => [[]]
  | b :: bs =>
    if b = 0x0A then [] :: byteLines bs
    else
      match byteLines bs with
      | [] => [[b]]
      | line :: lines => (b :: line) :: lines

/-- The text of a file up to the first line of it that is no text. -/
def Content.leadingText : Content → String
  | .text characters => characters
  | .bytes values =>
    let lines := (byteLines values).map fun line => String.fromUTF8? ⟨line.toArray⟩
    "\n".intercalate ((lines.takeWhile Option.isSome).filterMap id)

/-- A text without the marks of byte order before it. -/
def withoutByteOrderMark (text : List Char) : List Char := text.dropWhile (· = '\ufeff')

/-- The rules for what a folder passes over, from the file in it that lists them. -/
def Disk.ignoreRules (disk : Disk) (folder : Path) : List IgnoreRule :=
  match disk.content? (folder.join (.ofString ".gitignore")) with
  | some content => RefPages.ignoreRules (fileLines (withoutByteOrderMark content.leadingText.toList))
  | none => []

/-! ## Documents -/

/-- Whether files and folders with this name are never looked at. -/
def isHidden (name : List Char) : Bool :=
  name.head? = some '.' || name = "node_modules".toList

/-- The path of what is found below a folder. -/
def Path.below (folder : Path) (place : Place) : Path := folder.join ⟨['/'].intercalate place⟩

/-- Whether a folder below another one is looked at. -/
def entersFolder (rules : List IgnoreRule) (skipped : List Path) (folder : Path) (place : Place) :
    Bool :=
  !passesOver rules (['/'].intercalate place) true && !skipped.any (·.sameSteps (folder.below place))

/-- The places of the folders between a folder and what is at a place below it. -/
def foldersTo (place : Place) : List Place :=
  (List.range place.length).tail.map fun count => place.take count

/-- Whether a file below a folder is one of its documents. -/
def isDocument (rules : List IgnoreRule) (skipped : List Path) (folder : Path) (place : Place) :
    Bool :=
  !place.any isHidden && (foldersTo place).all (entersFolder rules skipped folder) &&
    !passesOver rules (['/'].intercalate place) false &&
    ((place.getLast?.map Path.splitExtension).bind (·.2)) = some "md".toList

/-- The places of the documents of a folder as seen from there, in order. Some folders below it are
skipped. -/
def Disk.documents (disk : Disk) (skipped : List Path) (folder : Path) : List Place :=
  match disk.place? folder with
  | some place =>
    let rules := disk.ignoreRules folder
    let found := (disk.filesBelow place).filter (isDocument rules skipped folder)
    found.mergeSort fun a b => (Path.compareNames a b).isLE
  | none => []

end RefPages
