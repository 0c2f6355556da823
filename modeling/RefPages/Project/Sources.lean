/-
The sources of a project: the documents that declare the API, the guides, and the files with
definitions of links.
-/
import RefPages.Api.Merge
import RefPages.Api.Read
import RefPages.Project.Collect
import RefPages.Project.FrontMatter

namespace RefPages

open Text

namespace Disk

/-! ## The API -/

/-- The drafts with what the file at a path declares; a fault in it says where it is. -/
def feedFile (disk : Disk) (drafts : Drafts) (path : Path) : Except Fault Drafts := do
  let text ← disk.read path
  (do drafts.feed (← Markup.parse text)).mapError (Fault.within path.text)

/-- The model that the documents of a folder declare together. -/
def folderModel (disk : Disk) (folder : Path) : Except Fault Model := do
  let paths := (disk.documents [] folder).map folder.below
  return (← paths.foldlM disk.feedFile []).finish

/-- The models of several folders, merged. -/
def apiModel (disk : Disk) (folders : List Path) : Except Fault Model :=
  folders.foldlM (fun model folder => do return model.merge (← disk.folderModel folder)) .empty

/-! ## Definitions of links -/

/-- The lines of a file with definitions of links; none when there is no such file. -/
def linkLines (disk : Disk) (path : Path) : Except Fault (List String) :=
  if disk.isFile path then do
    let text ← disk.read path
    let lines := (fileLines text.toList).map trimEnd
    return (lines.filter (!·.isEmpty)).map String.ofList
  else .ok []

end Disk

/-! ## Guides -/

/-- A document that is a page of its own. -/
structure Guide where
  /-- Where it is, as seen from the folder with all sources. -/
  place : Place
  matter : FrontMatter
  nodes : List Markup.Node

namespace Guide

/-- Where the guide is, as a path. -/
def path (guide : Guide) : Path := ⟨['/'].intercalate guide.place⟩

/-- The name of the page, without its extension: the one that the guide gives itself, or that of
its file. -/
def stem (guide : Guide) : String :=
  guide.matter.id.getD
    (String.ofList (((guide.place.getLast?.map Path.splitExtension).map (·.1)).getD []))

/-- The guide in the file at a place below a folder. -/
def read (disk : Disk) (folder : Path) (place : Place) : Except Fault Guide := do
  let text ← disk.read (folder.below place)
  let path := String.ofList (['/'].intercalate place)
  let nodes ← (Markup.parse text).mapError (Fault.within path)
  return ⟨place, ← FrontMatter.ofNodes path nodes, nodes⟩

/-- The guides below a folder: its documents outside of the folders that document the API, without
the files with definitions of links and those that a pattern matches. -/
def readAll (disk : Disk) (folder : Path) (apiFolders linkFiles : List Path)
    (excluded : List Glob) : Except Fault (List Guide) :=
  let isGuide := fun (place : Place) =>
    !linkFiles.any (·.sameSteps (folder.below place)) &&
      !Glob.anyAccepts excluded (['/'].intercalate place)
  ((disk.documents apiFolders folder).filter isGuide).mapM (Guide.read disk folder)

end Guide

end RefPages
