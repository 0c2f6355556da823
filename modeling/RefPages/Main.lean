/-
The command line on real files: the folder of the project is read, the command is carried out on
that copy, and the files that it has written there are written to the real folder.
-/
import RefPages.Command.Run

namespace RefPages

open Text

/-! ## Reading a folder -/

/-- The place that steps lead to. -/
def Place.after (place : Place) (steps : List Path.Step) : Place :=
  steps.foldl
    (fun place step =>
      match step with
      | .root => []
      | .here => place
      | .up => place.dropLast
      | .name name => place ++ [name])
    place

/-- The folders on the way to a place, and the place itself, as entries of a disk. -/
def foldersAround (place : Place) : List (Place × Entry) :=
  (place :: foldersTo place).map (·, .folder)

/-- What is found at an entry of a folder, and below it. -/
partial def readEntry (place : Place) (entry : IO.FS.DirEntry) : IO (List (Place × Entry)) := do
  let place := place ++ [entry.fileName.toList]
  if ← entry.path.isDir then
    let below ← (← entry.path.readDir).toList.mapM (readEntry place)
    return (place, .folder) :: below.flatten
  else
    try
      return [(place, .file (.ofBytes (← IO.FS.readBinFile entry.path)))]
    catch _ => return []

/-- The disk with the folder at a path, as it is now. -/
def readDisk (path : Option Path) : IO Disk := do
  let current ← IO.currentDir
  let here := Place.after [] (Path.ofString current.toString).steps
  let folder := match path with
    | some path => current / path.text
    | none => current
  let place := Place.after here ((path.map (·.steps)).getD [])
  let empty : Disk := ⟨foldersAround here, here⟩
  if ← folder.isDir then
    let entries ← (← folder.readDir).toList.mapM (readEntry place)
    return { empty with entries := entries.flatten ++ foldersAround place ++ empty.entries }
  else return empty

/-! ## Writing pages -/

/-- Writes the texts that one disk holds and another does not. -/
def writeChanges (old new : Disk) : IO Unit :=
  new.entries.forM fun (place, entry) => do
    match entry with
    | .file (.text characters) =>
      if old.entry? place ≠ some entry then
        IO.FS.createDirAll ("/" ++ String.ofList (['/'].intercalate place.dropLast))
        IO.FS.writeFile ("/" ++ String.ofList (['/'].intercalate place)) characters
    | _ => return ()

end RefPages

open RefPages

/-- Carries out a command line. -/
def main (words : List String) : IO UInt32 := do
  let path := match Command.read? words with
    | some (.run invocation) => invocation.path
    | _ => none
  let disk ← readDisk path
  let noColor := (← IO.getEnv "NO_COLOR").isSome
  let isTerminal ← (← IO.getStderr).isTty
  let forced := (← IO.getEnv "FORCE_COLOR").isSome
  let setting : Command.Setting :=
    { disk
      sourceDir := (← IO.getEnv "APIREF_SRC_DIR").map .ofString
      colors := !noColor && (isTerminal || forced) }
  let (outcome, after) := Command.run setting words
  writeChanges disk after
  IO.print outcome.stdout
  IO.eprint outcome.stderr
  return outcome.code.toUInt32
