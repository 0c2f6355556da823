/-
Files and folders as a value: what a path leads to, and the disk after a file was written or
removed.
-/
import RefPages.Fault
import RefPages.Project.Path

namespace RefPages

open Text

/-- What a file holds: text, or bytes that are no text. -/
inductive Content where
  | text (characters : String)
  | bytes (values : List UInt8)
  deriving DecidableEq

/-- The content that bytes make up. -/
def Content.ofBytes (values : ByteArray) : Content :=
  match String.fromUTF8? values with
  | some characters => .text characters
  | none => .bytes values.toList

/-- What stands at a place on a disk. -/
inductive Entry where
  | folder
  | file (content : Content)
  deriving DecidableEq

/-- A place on a disk: the names from the root to it. -/
abbrev Place := List (List Char)

/-- Files and folders. -/
structure Disk where
  entries : List (Place × Entry)
  /-- The folder at which relative paths begin. -/
  here : Place

namespace Disk

/-! ## Looking -/

/-- What stands at a place; the root is a folder. -/
def entry? (disk : Disk) (place : Place) : Option Entry :=
  if place = [] then some .folder else disk.entries.lookup place

/-- Whether there is a folder at a place. -/
def hasFolder (disk : Disk) (place : Place) : Bool := disk.entry? place = some .folder

/-- The place that the parts of a path lead to. Every part must be taken in a folder. -/
def follow? (disk : Disk) (place : Place) : List (List Char) → Option Place
  | [] => some place
  | part :: parts =>
    if disk.hasFolder place then
      if part = [] ∨ part = ['.'] then disk.follow? place parts
      else if part = ['.', '.'] then disk.follow? place.dropLast parts
      else disk.follow? (place ++ [part]) parts
    else none

/-- The place that a path leads to. -/
def place? (disk : Disk) (path : Path) : Option Place :=
  if path.chars = [] then none
  else disk.follow? (if path.isAbsolute then [] else disk.here) (path.chars.splitOn '/')

/-- What the file that a path leads to holds. -/
def content? (disk : Disk) (path : Path) : Option Content :=
  match (disk.place? path).bind disk.entry? with
  | some (.file content) => some content
  | _ => none

/-- Whether a path leads to a file. -/
def isFile (disk : Disk) (path : Path) : Bool := (disk.content? path).isSome

/-- The text of the file that a path leads to. -/
def read (disk : Disk) (path : Path) : Except Fault String :=
  match disk.content? path with
  | some (.text text) => .ok text
  | _ => .error .io

/-- A place as seen from a folder above it. -/
def below? : Place → Place → Option Place
  | [], place => some place
  | _ :: _, [] => none
  | name :: folder, first :: place => if name = first then below? folder place else none

/-- The places of the files below a folder, as seen from there. -/
def filesBelow (disk : Disk) (folder : Place) : List Place :=
  disk.entries.filterMap fun (place, entry) =>
    if entry = .folder then none else below? folder place

/-! ## Changing -/

/-- The disk with something else at a place. -/
def put (disk : Disk) (place : Place) (entry : Entry) : Disk :=
  { disk with entries := (place, entry) :: disk.entries.filter (·.1 ≠ place) }

/-- The disk with all folders on the way along some steps, and the place at their end. -/
def makeFolders (disk : Disk) (place : Place) : List Path.Step → Except Fault (Disk × Place)
  | [] => .ok (disk, place)
  | .root :: steps => disk.makeFolders [] steps
  | .here :: steps => disk.makeFolders place steps
  | .up :: steps => disk.makeFolders place.dropLast steps
  | .name name :: steps =>
    match disk.entry? (place ++ [name]) with
    | some .folder => disk.makeFolders (place ++ [name]) steps
    | some (.file _) => .error .io
    | none => (disk.put (place ++ [name]) .folder).makeFolders (place ++ [name]) steps

/-- The disk with a file written, and with the folders that lead to it. -/
def write (disk : Disk) (path : Path) (content : Content) : Except Fault Disk :=
  match path.steps.getLast? with
  | some (.name name) => do
    let (disk, folder) ← disk.makeFolders disk.here path.steps.dropLast
    if disk.hasFolder (folder ++ [name]) then .error .io
    else return disk.put (folder ++ [name]) (.file content)
  | _ => .error .io

end Disk

end RefPages
