/-
Where a path leads on a disk, and what writing a file does there. The place that a path means can
be read off its steps, so long as every step is taken in a folder, and writing a file makes the
folders that this needs.
-/
import RefPages.Project.Disk
import RefPages.Proofs.Fallible
import Mathlib.Data.List.Basic

namespace RefPages

open Text

/-! ## The meaning of steps -/

namespace Path

/-- The place that a step leads to from another one. -/
def Step.lead (place : Place) : Step → Place
  | .root => []
  | .here => place
  | .up => place.dropLast
  | .name chars => place ++ [chars]

/-- The place that steps lead to, one after another. -/
def leads (place : Place) (steps : List Step) : Place := steps.foldl Step.lead place

@[simp] theorem leads_nil (place : Place) : leads place [] = place := rfl

@[simp] theorem leads_cons (place : Place) (step : Step) (steps : List Step) :
    leads place (step :: steps) = leads (step.lead place) steps := rfl

theorem leads_append (place : Place) (steps steps' : List Step) :
    leads place (steps ++ steps') = leads (leads place steps) steps' := List.foldl_append

/-- The last part of the path is the name of something in a folder. -/
def EndsInName (path : Path) : Prop :=
  ∃ folders name, path.chars.splitOn '/' = folders ++ [name] ∧ stepOf? name = some (.name name)

end Path

namespace Disk

open RefPages.Path

/-- The place that a path means. -/
def target (disk : Disk) (path : Path) : Place := leads disk.here path.steps

/-! ## Entries -/

theorem hasFolder_iff {disk : Disk} {place : Place} : disk.hasFolder place = true ↔ disk.entry? place = some .folder :=
  decide_eq_true_iff

theorem lookup_filter_ne {place other : Place} (hne : other ≠ place) (entries : List (Place × Entry)) :
    (entries.filter (·.1 ≠ place)).lookup other = entries.lookup other := by
  induction entries with
  | nil => rfl
  | cons first entries ih =>
    obtain ⟨key, entry⟩ := first
    by_cases hkey : key = place
    · rw [List.filter_cons_of_neg (by simpa using hkey), ih, List.lookup_cons, hkey, beq_false_of_ne hne]
    · rw [List.filter_cons_of_pos (by simpa using hkey), List.lookup_cons, List.lookup_cons, ih]

theorem entry?_put_self (disk : Disk) {place : Place} (hne : place ≠ []) (entry : Entry) :
    Disk.entry? (disk.put place entry) place = some entry := by
  simp [ entry?, put, hne]

theorem entry?_put_of_ne (disk : Disk) {place other : Place} (hne : other ≠ place) (entry : Entry) :
    Disk.entry? (disk.put place entry) other = disk.entry? other := by
  unfold entry? put
  split
  · rfl
  · rw [List.lookup_cons, beq_false_of_ne hne]
    exact lookup_filter_ne hne disk.entries

/-! ## Well-formed disks -/

/-- Whatever there is on the disk is in a folder. -/
structure WellFormed (disk : Disk) : Prop where
  here : disk.hasFolder disk.here = true
  parent : ∀ {place : Place} {name : List Char} {entry : Entry},
    disk.entry? (place ++ [name]) = some entry → disk.hasFolder place = true

/-- What there is on a disk is also on another one, but for files at some places. -/
structure Extends (overwritten : Place → Prop) (disk disk' : Disk) : Prop where
  here : disk'.here = disk.here
  entry : ∀ {place : Place} {entry : Entry}, disk.entry? place = some entry →
    entry = .folder ∨ ¬ overwritten place → disk'.entry? place = some entry

theorem Extends.refl (overwritten : Place → Prop) (disk : Disk) : Extends overwritten disk disk :=
  ⟨rfl, fun h _ => h⟩

theorem Extends.trans {overwritten : Place → Prop} {disk disk' disk'' : Disk} (h : Extends overwritten disk disk')
    (h' : Extends overwritten disk' disk'') : Extends overwritten disk disk'' :=
  ⟨h'.here.trans h.here, fun hentry hkept => h'.entry (h.entry hentry hkept) hkept⟩

theorem Extends.mono {overwritten overwritten' : Place → Prop} {disk disk' : Disk}
    (h : Extends overwritten disk disk') (hmore : ∀ place, overwritten place → overwritten' place) :
    Extends overwritten' disk disk' :=
  ⟨h.here, fun hentry hkept => h.entry hentry (hkept.imp_right fun hnot hover => hnot (hmore _ hover))⟩

theorem Extends.hasFolder {overwritten : Place → Prop} {disk disk' : Disk} (h : Extends overwritten disk disk')
    {place : Place} (hfolder : disk.hasFolder place = true) : disk'.hasFolder place = true :=
  hasFolder_iff.2 (h.entry (hasFolder_iff.1 hfolder) (.inl rfl))

theorem WellFormed.dropLast {disk : Disk} (h : disk.WellFormed) {place : Place}
    (hplace : disk.hasFolder place = true) : disk.hasFolder place.dropLast = true := by
  rcases List.eq_nil_or_concat place with rfl | ⟨folder, name, rfl⟩
  · exact hplace
  · rw [List.concat_eq_append] at hplace ⊢
    rw [List.dropLast_concat]
    exact h.parent (hasFolder_iff.1 hplace)

/-- It is enough to look at every entry. -/
theorem WellFormed.of_entries {disk : Disk} (here : disk.hasFolder disk.here = true)
    (h : ∀ entry ∈ disk.entries, disk.hasFolder entry.1.dropLast = true) : disk.WellFormed := by
  refine ⟨here, fun {place name entry} hentry => ?_⟩
  rw [ entry?, if_neg (by simp)] at hentry
  obtain ⟨before, after, hentries, -⟩ := List.lookup_eq_some_iff.1 hentry
  have hparent := h (place ++ [name], entry) (by rw [hentries]; simp)
  rwa [List.dropLast_concat] at hparent

/-- Something can be put where no folder is, if it is put into one. -/
theorem WellFormed.put {disk : Disk} (h : disk.WellFormed) {folder : Place} {name : List Char}
    (hfolder : disk.hasFolder folder = true) (hnew : disk.hasFolder (folder ++ [name]) = false) (entry : Entry) :
    (disk.put (folder ++ [name]) entry).WellFormed ∧
      Extends (· = folder ++ [name]) disk (disk.put (folder ++ [name]) entry) := by
  have hextends : Extends (· = folder ++ [name]) disk (disk.put (folder ++ [name]) entry) := by
    refine ⟨rfl, fun {place own} hown hkept => ?_⟩
    rw [entry?_put_of_ne disk ?_ entry, hown]
    rintro rfl
    rcases hkept with rfl | hkept
    · rw [hasFolder_iff.2 hown] at hnew
      cases hnew
    · exact hkept rfl
  refine ⟨⟨hextends.hasFolder h.here, fun {place last own} hown => ?_⟩, hextends⟩
  apply hextends.hasFolder
  by_cases hplace : place ++ [last] = folder ++ [name]
  · obtain ⟨rfl, -⟩ := List.append_inj' hplace rfl
    exact hfolder
  · rw [entry?_put_of_ne disk hplace] at hown
    exact h.parent hown

/-! ## Taking steps -/

/-- The steps can be taken from a place: each in a folder, and the last one leads to a folder. -/
def Walks (disk : Disk) (place : Place) : List Step → Prop
  | [] => disk.hasFolder place = true
  | step :: steps => disk.hasFolder place = true ∧ disk.Walks (step.lead place) steps

theorem Walks.hasFolder {disk : Disk} {place : Place} {steps : List Step} (h : disk.Walks place steps) :
    disk.hasFolder place = true := by
  cases steps with
  | nil => exact h
  | cons step steps => exact h.1

theorem Walks.end {disk : Disk} {place : Place} {steps : List Step} (h : disk.Walks place steps) :
    disk.hasFolder (leads place steps) = true := by
  induction steps generalizing place with
  | nil => exact h
  | cons step steps ih => exact ih h.2

theorem Walks.of_extends {overwritten : Place → Prop} {disk disk' : Disk} (hextends : Extends overwritten disk disk')
    {place : Place} {steps : List Step} (h : disk.Walks place steps) : disk'.Walks place steps := by
  induction steps generalizing place with
  | nil => exact hextends.hasFolder h
  | cons step steps ih => exact ⟨hextends.hasFolder h.1, ih h.2⟩

theorem Walks.append {disk : Disk} {place : Place} {steps steps' : List Step} :
    disk.Walks place (steps ++ steps') ↔ disk.Walks place steps ∧ disk.Walks (leads place steps) steps' := by
  induction steps generalizing place with
  | nil => exact ⟨fun h => ⟨h.hasFolder, h⟩, fun h => h.2⟩
  | cons step steps ih =>
    rw [List.cons_append, leads_cons]
    exact (and_congr_right fun _ => ih).trans and_assoc.symm

/-- Parts of a path lead where their steps lead. -/
theorem follow?_append {disk : Disk} {place : Place} {folders : List (List Char)}
    (h : disk.Walks place (folders.filterMap stepOf?)) (rest : List (List Char)) :
    disk.follow? place (folders ++ rest) = disk.follow? (leads place (folders.filterMap stepOf?)) rest := by
  induction folders generalizing place with
  | nil => rfl
  | cons part folders ih =>
    rw [List.cons_append, follow?, if_pos h.hasFolder]
    by_cases hidle : part = [] ∨ part = ['.']
    · have hstep : stepOf? part = none := if_pos hidle
      rw [List.filterMap_cons_none hstep] at h ⊢
      rw [if_pos hidle, ih h]
    · rw [if_neg hidle]
      by_cases hup : part = ['.', '.']
      · have hstep : stepOf? part = some .up := by rw [stepOf?, if_neg hidle, if_pos hup]
        rw [List.filterMap_cons_some hstep] at h ⊢
        rw [if_pos hup, leads_cons, ← ih h.2]
        rfl
      · have hstep : stepOf? part = some (.name part) := by rw [stepOf?, if_neg hidle, if_neg hup]
        rw [List.filterMap_cons_some hstep] at h ⊢
        rw [if_neg hup, leads_cons, ← ih h.2]
        rfl

/-! ## Writing -/

/-- Making folders takes all steps, and keeps what there is. -/
theorem makeFolders_eq_ok {disk disk' : Disk} {place place' : Place} {steps : List Step} (hdisk : disk.WellFormed)
    (hplace : disk.hasFolder place = true) (h : disk.makeFolders place steps = .ok (disk', place')) :
    place' = leads place steps ∧ disk'.WellFormed ∧ Extends (fun _ => False) disk disk' ∧ disk'.Walks place steps := by
  induction steps generalizing disk place with
  | nil =>
    cases h
    exact ⟨rfl, hdisk, Extends.refl _ _, hplace⟩
  | cons step steps ih =>
    cases step with
    | root =>
      obtain ⟨hplace', hdisk', hextends, hwalks⟩ := ih hdisk rfl h
      exact ⟨hplace', hdisk', hextends, hextends.hasFolder hplace, hwalks⟩
    | here =>
      obtain ⟨hplace', hdisk', hextends, hwalks⟩ := ih hdisk hplace h
      exact ⟨hplace', hdisk', hextends, hextends.hasFolder hplace, hwalks⟩
    | up =>
      obtain ⟨hplace', hdisk', hextends, hwalks⟩ := ih hdisk (hdisk.dropLast hplace) h
      exact ⟨hplace', hdisk', hextends, hextends.hasFolder hplace, hwalks⟩
    | name name =>
      rw [makeFolders] at h
      split at h
      · rename_i hfolder
        obtain ⟨hplace', hdisk', hextends, hwalks⟩ := ih hdisk (hasFolder_iff.2 hfolder) h
        exact ⟨hplace', hdisk', hextends, hextends.hasFolder hplace, hwalks⟩
      · cases h
      · rename_i hnone
        have hnew : disk.hasFolder (place ++ [name]) = false := by
          rw [Disk.hasFolder, hnone]
          rfl
        obtain ⟨hput, hextendsPut⟩ := hdisk.put hplace hnew .folder
        have hfolder : (disk.put (place ++ [name]) .folder).hasFolder (place ++ [name]) = true :=
          hasFolder_iff.2 (entry?_put_self disk (by simp) _)
        obtain ⟨hplace', hdisk', hextends, hwalks⟩ := ih hput hfolder h
        -- nothing was at the place, so nothing has been overwritten
        have hkept : Extends (fun _ => False) disk (disk.put (place ++ [name]) .folder) := by
          refine ⟨rfl, fun {other own} hown _ => hextendsPut.entry hown (.inr ?_)⟩
          rintro rfl
          rw [hown] at hnone
          cases hnone
        exact ⟨hplace', hdisk', hkept.trans hextends, (hkept.trans hextends).hasFolder hplace, hwalks⟩

/-- A file that has been written is at the place that its path means, in folders that lead there. Only
what was at this place is lost. -/
theorem write_eq_ok {disk disk' : Disk} {path : Path} {content : Content} (hdisk : disk.WellFormed)
    (h : disk.write path content = .ok disk') :
    disk'.WellFormed ∧ Extends (· = disk.target path) disk disk' ∧
      disk'.Walks disk.here path.steps.dropLast ∧ disk'.entry? (disk.target path) = some (.file content) := by
  unfold write at h
  split at h
  · rename_i name hlast
    obtain ⟨⟨made, folder⟩, hmade, h⟩ := bind_eq_ok.1 h
    obtain ⟨rfl, hwell, hextends, hwalks⟩ := makeFolders_eq_ok hdisk hdisk.here hmade
    have htarget : disk.target path = leads disk.here path.steps.dropLast ++ [name] := by
      have hsteps : path.steps = path.steps.dropLast ++ [.name name] := by
        obtain ⟨front, hfront⟩ := List.getLast?_eq_some_iff.1 hlast
        rw [hfront, List.dropLast_concat]
      rw [target, hsteps, leads_append, List.dropLast_concat]
      rfl
    dsimp only at h
    split at h
    · cases h
    · rename_i hnew
      cases h
      rw [htarget]
      obtain ⟨hput, hextendsPut⟩ := hwell.put hwalks.end (by simpa using hnew) (.file content)
      have hall := (hextends.mono fun _ => False.elim).trans hextendsPut
      exact ⟨hput, hall, hwalks.of_extends hextendsPut, entry?_put_self _ (by simp) _⟩
  · cases h

/-! ## Looking for what has been written -/

/-- A path leads to the place that it means when all folders before its last name are there. -/
theorem place?_eq_target {disk : Disk} {path : Path} (hname : path.EndsInName)
    (h : disk.Walks disk.here path.steps.dropLast) : disk.place? path = some (disk.target path) := by
  obtain ⟨folders, name, hparts, hstep⟩ := hname
  have hsteps : path.steps = (path.firstStep ++ folders.filterMap stepOf?) ++ [.name name] := by
    rw [steps, hparts, List.filterMap_append, List.append_assoc]
    simp [hstep]
  have hne : path.chars ≠ [] := by
    intro hnil
    rw [hnil] at hparts
    obtain ⟨-, hname⟩ := List.append_inj' (show [] ++ [[]] = folders ++ [name] from hparts) rfl
    rw [← (List.cons.inj hname).1] at hstep
    cases hstep
  rw [hsteps, List.dropLast_concat, Walks.append] at h
  -- the first step leads to the place where looking begins
  have hfirst : leads disk.here path.firstStep = if path.isAbsolute then [] else disk.here := by
    unfold firstStep
    split
    · rfl
    · split <;> rfl
  rw [hfirst] at h
  rw [place?, if_neg hne, hparts, follow?_append h.2, target, hsteps, leads_append, leads_append, hfirst, follow?,
    if_pos h.2.end]
  obtain ⟨hidle, hup⟩ : ¬ (name = [] ∨ name = ['.']) ∧ name ≠ ['.', '.'] := by
    constructor
    · intro hidle
      rw [stepOf?, if_pos hidle] at hstep
      cases hstep
    · rintro rfl
      cases hstep
  rw [if_neg hidle, if_neg hup]
  rfl

end Disk

end RefPages
