/-
When pages that have been written are up to date: a page is lost to another one exactly when their
paths mean the same place and their texts differ, since the last page written to a place stays
there.
-/
import Mathlib
import RefPages.Project.Output
import RefPages.Proofs.Project.Places
import RefPages.Proofs.Text.Trim

namespace RefPages

open Text

/-! ## Paths of pages -/

namespace Path

/-- The path ends with a dot and an extension. -/
def HasExtension (extension : List Char) (path : Path) : Prop := ∃ front, path.chars = front ++ '.' :: extension

theorem HasExtension.join {extension : List Char} {next : Path} (h : next.HasExtension extension) (path : Path) :
    (path.join next).HasExtension extension := by
  obtain ⟨front, hfront⟩ := h
  unfold Path.join
  split
  · exact ⟨front, hfront⟩
  · split
    · exact ⟨path.chars ++ front, by rw [hfront, List.append_assoc]⟩
    · exact ⟨path.chars ++ '/' :: front, by rw [hfront, List.append_assoc, List.cons_append]⟩

/-- A path with an extension of two letters or more ends in the name of a file. -/
theorem HasExtension.endsInName {extension : List Char} {path : Path} (h : path.HasExtension extension)
    (hslash : '/' ∉ extension) (hlength : 2 ≤ extension.length) : path.EndsInName := by
  obtain ⟨front, hfront⟩ := h
  have hend : '/' ∉ '.' :: extension := by simpa using hslash
  obtain ⟨folders, name, hparts⟩ := splitOn_append_of_not_mem hend front
  refine ⟨folders, name ++ '.' :: extension, by rw [hfront, hparts], ?_⟩
  have hlong : 3 ≤ (name ++ '.' :: extension).length := by
    rw [List.length_append, List.length_cons]
    omega
  -- nothing, one dot and two dots are shorter
  unfold stepOf?
  rw [if_neg, if_neg]
  · intro hdots
    rw [hdots] at hlong
    exact absurd hlong (by decide)
  · rintro (hnone | hdot)
    · rw [hnone] at hlong
      exact absurd hlong (by decide)
    · rw [hdot] at hlong
      exact absurd hlong (by decide)

end Path

namespace Project

variable {project : Project}

theorem hasExtension_fileName (project : Project) (stem : String) :
    (project.fileName stem).HasExtension project.config.extension.toList :=
  ⟨stem.toList, by simp [fileName, Path.ofString]⟩

theorem endsInName_pageFile {lang : Lang} {definitions : List String} {path : Path} {nodes : List Markup.Node}
    (h : path.HasExtension project.config.extension.toList) :
    (project.pageFile lang definitions path nodes).path.EndsInName := by
  refine (h.join _).endsInName ?_ ?_
  · unfold Config.extension
    split <;> decide
  · unfold Config.extension
    split <;> decide

/-- Every page is a file with a name. -/
theorem endsInName_of_mem_editionFiles {disk : Disk} {edition : Edition} {guides : List Guide}
    {files : List PageFile} (h : project.editionFiles disk edition guides = .ok files) {file : PageFile}
    (hfile : file ∈ files) : file.path.EndsInName := by
  obtain ⟨definitions, -, h⟩ := bind_eq_ok.1 h
  obtain ⟨classFiles, hclassFiles, h⟩ := bind_eq_ok.1 h
  obtain ⟨guideFiles, hguideFiles, h⟩ := bind_eq_ok.1 h
  cases h
  rcases List.mem_append.1 hfile with hfile | hfile
  · obtain ⟨cls, -, hcls⟩ := related_of_mem_right (mapM_eq_ok.1 hclassFiles) hfile
    obtain ⟨nodes, -, hcls⟩ := bind_eq_ok.1 hcls
    cases hcls
    exact endsInName_pageFile (hasExtension_fileName project _)
  · obtain ⟨guide, -, hguide⟩ := related_of_mem_right (mapM_eq_ok.1 hguideFiles) hfile
    obtain ⟨nodes, -, hguide⟩ := bind_eq_ok.1 hguide
    cases hguide
    exact endsInName_pageFile ((hasExtension_fileName project _).join _)

theorem endsInName_of_mem_generate {disk : Disk} {langs : List Lang} {files : List PageFile}
    {findings : List Diagnostic} (h : project.generate disk langs = .ok (files, findings)) {file : PageFile}
    (hfile : file ∈ files) : file.path.EndsInName := by
  obtain ⟨⟨model, found⟩, -, h⟩ := bind_eq_ok.1 h
  obtain ⟨guides, -, h⟩ := bind_eq_ok.1 h
  obtain ⟨perLang, hperLang, h⟩ := bind_eq_ok.1 h
  cases h
  obtain ⟨ofLang, hofLang, hfile⟩ := List.mem_flatten.1 hfile
  obtain ⟨lang, -, hlang⟩ := related_of_mem_right (mapM_eq_ok.1 hperLang) hofLang
  obtain ⟨filtered, -, hlang⟩ := bind_eq_ok.1 hlang
  obtain ⟨edition, -, hlang⟩ := bind_eq_ok.1 hlang
  exact endsInName_of_mem_editionFiles hlang hfile

end Project

/-! ## Pages on disk -/

namespace Disk

theorem target_eq {overwritten : Place → Prop} {disk disk' : Disk} (h : Extends overwritten disk disk') (path : Path) :
    disk'.target path = disk.target path := by
  rw [target, target, h.here]

/-- After pages have been written, there is a way to each of them, and its place holds the text of a page
that means the same place. Only what was at the places of pages is lost. -/
theorem writePages_eq {disk disk' : Disk} {files : List PageFile} (hdisk : disk.WellFormed)
    (h : disk.writePages files = (disk', none)) :
    disk'.WellFormed ∧ Extends (fun place => ∃ file ∈ files, disk.target file.path = place) disk disk' ∧
      ∀ file ∈ files, disk'.Walks disk.here file.path.steps.dropLast ∧
        ∃ last ∈ files, disk.target last.path = disk.target file.path ∧
          disk'.entry? (disk.target file.path) = some (.file (.text last.text)) := by
  induction files generalizing disk with
  | nil =>
    cases h
    exact ⟨hdisk, Extends.refl _ _, fun file hfile => absurd hfile List.not_mem_nil⟩
  | cons first files ih =>
    rw [writePages] at h
    split at h
    · rename_i written hwritten
      obtain ⟨hwell, hextends, hwalks, hentry⟩ := write_eq_ok hdisk hwritten
      obtain ⟨hwell', hextends', hpages⟩ := ih hwell h
      have hlater : Extends (fun place => ∃ file ∈ first :: files, disk.target file.path = place) written disk' := by
        refine hextends'.mono ?_
        rintro place ⟨file, hfile, hplace⟩
        exact ⟨file, List.mem_cons_of_mem _ hfile, by rw [← hplace, target_eq hextends]⟩
      have hfirst : Extends (fun place => ∃ file ∈ first :: files, disk.target file.path = place) disk written :=
        hextends.mono fun place hplace => ⟨first, List.mem_cons_self, hplace.symm⟩
      have hrest : ∀ file ∈ files, disk'.Walks disk.here file.path.steps.dropLast ∧
          ∃ last ∈ first :: files, disk.target last.path = disk.target file.path ∧
            disk'.entry? (disk.target file.path) = some (.file (.text last.text)) := by
        intro file hfile
        obtain ⟨hwalk, last, hlast, htarget, hheld⟩ := hpages file hfile
        rw [target_eq hextends, target_eq hextends] at htarget
        rw [target_eq hextends] at hheld
        rw [hextends.here] at hwalk
        exact ⟨hwalk, last, List.mem_cons_of_mem _ hlast, htarget, hheld⟩
      refine ⟨hwell', hfirst.trans hlater, fun file hfile => ?_⟩
      rcases List.mem_cons.1 hfile with rfl | hfile
      · refine ⟨hwalks.of_extends hlater, ?_⟩
        by_cases hagain : ∃ other ∈ files, disk.target other.path = disk.target file.path
        · obtain ⟨other, hother, hsame⟩ := hagain
          obtain ⟨-, last, hlast, htarget, hheld⟩ := hrest other hother
          exact ⟨last, hlast, htarget.trans hsame, hsame ▸ hheld⟩
        · refine ⟨file, List.mem_cons_self, rfl, hextends'.entry hentry (.inr ?_)⟩
          rintro ⟨other, hother, hsame⟩
          exact hagain ⟨other, hother, by rw [← hsame, target_eq hextends]⟩
      · exact hrest file hfile
    · cases h

/-- A page is compared with the text at the place that its path means. -/
theorem pageStatus_eq {disk : Disk} {file : PageFile} {text : String} (hname : file.path.EndsInName)
    (hwalks : disk.Walks disk.here file.path.steps.dropLast)
    (hentry : disk.entry? (disk.target file.path) = some (.file (.text text))) :
    disk.pageStatus file = .ok (if text = file.text then .upToDate else .stale text) := by
  have hcontent : disk.content? file.path = some (.text text) := by
    rw [content?, place?_eq_target hname hwalks, Option.bind_some, hentry]
  have hfile : disk.isFile file.path = true := by
    rw [isFile, hcontent]
    rfl
  rw [pageStatus, if_pos hfile, read, hcontent]
  rfl

theorem pageStatuses_eq_iff {disk : Disk} {files : List PageFile} :
    disk.pageStatuses files = .ok (files.map fun file => (file, .upToDate)) ↔
      ∀ file ∈ files, disk.pageStatus file = .ok .upToDate := by
  rw [pageStatuses, mapM_eq_ok, List.forall₂_map_right_iff, List.forall₂_same]
  refine forall₂_congr fun file _ => ?_
  cases disk.pageStatus file with
  | error fault => exact ⟨nofun, nofun⟩
  | ok status =>
    constructor
    · intro h
      cases h
      rfl
    · intro h
      cases h
      rfl

end Disk

/-! ## Generated pages -/

namespace Project

/-- After generated pages have been written, all of them are up to date exactly when no two of them have
different texts for the same place. -/
theorem upToDate_iff {project : Project} {source disk disk' : Disk} {langs : List Lang} {files : List PageFile}
    {findings : List Diagnostic} (hgenerate : project.generate source langs = .ok (files, findings))
    (hdisk : disk.WellFormed) (hwritten : disk.writePages files = (disk', none)) :
    disk'.pageStatuses files = .ok (files.map fun file => (file, .upToDate)) ↔
      ∀ file ∈ files, ∀ other ∈ files, disk.target file.path = disk.target other.path → file.text = other.text := by
  obtain ⟨-, hextends, hpages⟩ := Disk.writePages_eq hdisk hwritten
  have hstatus : ∀ file ∈ files, ∀ last, disk'.entry? (disk.target file.path) = some (.file (.text last)) →
      (disk'.pageStatus file = .ok .upToDate ↔ last = file.text) := by
    intro file hfile last hentry
    rw [Disk.pageStatus_eq (endsInName_of_mem_generate hgenerate hfile) (hextends.here ▸ (hpages file hfile).1)
      (by rwa [Disk.target_eq hextends])]
    split <;> simp_all
  rw [Disk.pageStatuses_eq_iff]
  constructor
  · intro hall file hfile other hother hsame
    -- both are compared with the text of the last page for their place
    obtain ⟨-, last, -, -, hentry⟩ := hpages file hfile
    have hown := (hstatus file hfile last.text hentry).1 (hall file hfile)
    rw [hsame] at hentry
    exact hown.symm.trans ((hstatus other hother last.text hentry).1 (hall other hother))
  · intro hsame file hfile
    obtain ⟨-, last, hlast, htarget, hentry⟩ := hpages file hfile
    exact (hstatus file hfile last.text hentry).2 (hsame last hlast file hfile htarget)

/-! ## Classes that differ in capitals -/

/-- A disk with a document that declares two classes whose names differ in a capital. -/
def capitalsDisk : Disk where
  entries :=
    [(["docs".toList], .folder), (["docs".toList, "src".toList], .folder),
      (["docs".toList, "src".toList, "api".toList], .folder),
      (["docs".toList, "src".toList, "api".toList, "a.md".toList], .file (.text "# class: Ab\n# class: AB\n"))]
  here := []

/-- The page of one of the classes. -/
def capitalsPage (label : String) : PageFile where
  lang := .js
  path := .ofString "./out/js/class-ab.mdx"
  text :=
    "---\nid: class-ab\ntitle: \"" ++ label ++
      "\"\n---\n\n[AB]: ./class-ab.mdx \"AB\"\n[Ab]: ./class-ab.mdx \"Ab\"\n"

theorem generate_capitalsDisk :
    (⟨.ofString ".", .standard⟩ : Project).generate capitalsDisk [.js] =
      .ok ([capitalsPage "AB", capitalsPage "Ab"], []) := by
  cbv

/-- The disk after both pages have been written. -/
def capitalsWritten : Disk :=
  { capitalsDisk with
    entries :=
      (["out".toList, "js".toList, "class-ab.mdx".toList], .file (.text (capitalsPage "Ab").text)) ::
        (["out".toList, "js".toList], .folder) :: (["out".toList], .folder) :: capitalsDisk.entries }

theorem writePages_capitalsDisk :
    capitalsDisk.writePages [capitalsPage "AB", capitalsPage "Ab"] = (capitalsWritten, none) := by
  cbv

/-- The pages of two classes mean the same place and have different texts. -/
theorem upToDate_capitals :
    (⟨.ofString ".", .standard⟩ : Project).generate capitalsDisk [.js] =
        .ok ([capitalsPage "AB", capitalsPage "Ab"], []) ∧
      capitalsDisk.WellFormed ∧
      capitalsDisk.writePages [capitalsPage "AB", capitalsPage "Ab"] = (capitalsWritten, none) ∧
      capitalsWritten.pageStatuses [capitalsPage "AB", capitalsPage "Ab"] ≠
        .ok [(capitalsPage "AB", .upToDate), (capitalsPage "Ab", .upToDate)] := by
  have hdisk : capitalsDisk.WellFormed := Disk.WellFormed.of_entries (by decide) (by decide)
  refine ⟨generate_capitalsDisk, hdisk, writePages_capitalsDisk, fun hstatuses => ?_⟩
  have hsame := (upToDate_iff generate_capitalsDisk hdisk writePages_capitalsDisk).1 hstatuses
  have htext : (capitalsPage "AB").text ≠ (capitalsPage "Ab").text := by decide
  exact htext (hsame _ List.mem_cons_self _ (List.mem_cons_of_mem _ List.mem_cons_self) rfl)

/-- The page of a class can be lost to that of another class, whose name differs in a capital. -/
theorem overwritten_capitals :
    (⟨.ofString ".", .standard⟩ : Project).generate capitalsDisk [.js] =
        .ok ([capitalsPage "AB", capitalsPage "Ab"], []) ∧
      capitalsDisk.writePages [capitalsPage "AB", capitalsPage "Ab"] = (capitalsWritten, none) ∧
      capitalsWritten.pageStatuses [capitalsPage "AB", capitalsPage "Ab"] =
        .ok [(capitalsPage "AB", .stale (capitalsPage "Ab").text), (capitalsPage "Ab", .upToDate)] :=
  ⟨generate_capitalsDisk, writePages_capitalsDisk, by cbv⟩

end Project

end RefPages
