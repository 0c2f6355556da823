/-
Pages on disk: written there, or compared with what is there already.
-/
import RefPages.Project.Generate

namespace RefPages

/-- How a page compares with the file that it would be written to. -/
inductive FileStatus where
  | upToDate
  | missing
  /-- The file holds another text. -/
  | stale (current : String)
  deriving DecidableEq, Repr

namespace Disk

/-- The disk with pages written up to the first that cannot be, and the fault if there is one. -/
def writePages (disk : Disk) : List PageFile → Disk × Option Fault
  | [] => (disk, none)
  | file :: files =>
    match disk.write file.path (.text file.text) with
    | .ok disk => disk.writePages files
    | .error fault => (disk, some fault)

/-- How a page compares with the disk. -/
def pageStatus (disk : Disk) (file : PageFile) : Except Fault FileStatus :=
  if disk.isFile file.path then do
    let current ← disk.read file.path
    return if current = file.text then .upToDate else .stale current
  else .ok .missing

/-- How each of the pages compares with the disk. -/
def pageStatuses (disk : Disk) (files : List PageFile) :
    Except Fault (List (PageFile × FileStatus)) :=
  files.mapM fun file => do return (file, ← disk.pageStatus file)

end Disk

end RefPages
