/-
The headings of the sections on the page of a class: one for each form of each member of its own,
with the anchor that links to the form name.
-/
import RefPages.Page.ClassPage
import RefPages.Proofs.Fallible

namespace RefPages

open Markup

/-- The level and the text of a heading. -/
def Markup.Node.headingLine? : Node → Option (Nat × String)
  | .heading level text _ => some (level, text)
  | _ => none

namespace Edition

variable (edition : Edition)

/-! ## Headings -/

/-- The signature and the anchor of each form of a member. -/
def formHeadings (className : String) (member : Member) : List (String × String) :=
  (edition.dialect.forms member).mapIdx fun index form =>
    (form.signature, formAnchor className member index)

/-- The members that a class has not inherited, in the order of their sections. -/
def sectioned (cls : ApiClass) : List Member :=
  sectionTitles.flatMap fun kind => (ownMembers cls).filter (·.kind = kind.1)

/-- The signatures and the anchors of all sections on the page of a class. -/
def memberHeadings (cls : ApiClass) : List (String × String) :=
  (sectioned cls).flatMap (edition.formHeadings cls.name)

/-- The heading of a section as it is written: the signature and the anchor in braces. -/
def headingOf (heading : String × String) : Nat × String :=
  (3, heading.1 ++ " \x7b#" ++ heading.2 ++ "\x7d")

/-- The nodes are a section under a title with a heading for each form of each of the members, in the order
of the members and of the forms. Without any forms there is no section. -/
def HoldsForms (className title : String) (members : List Member) (nodes : List Node) : Prop :=
  ∃ sections,
    sections.map Node.headingLine? = (members.flatMap (edition.formHeadings className)).map (some ∘ headingOf) ∧
    nodes = if sections.isEmpty then [] else [.heading 2 title sections]

/-- Members are sectioned by kind, and every kind has its section. -/
theorem sectioned_perm (cls : ApiClass) : (sectioned cls).Perm (ownMembers cls) := by
  unfold sectioned
  generalize ownMembers cls = own
  induction own with
  | nil => exact List.Perm.nil
  | cons member own ih =>
    simp only [sectionTitles, List.flatMap_cons, List.flatMap_nil, List.append_nil] at ih ⊢
    cases hkind : member.kind with
    | event =>
      simpa [hkind] using ih
    | method =>
      simp only [hkind, List.filter_cons]
      exact (List.perm_middle).trans (ih.cons member)
    | property =>
      simp only [hkind, List.filter_cons]
      rw [← List.append_assoc] at ih ⊢
      exact (List.perm_middle).trans (ih.cons member)

variable {edition}

/-! ## Sections -/

theorem headingLine?_formSection {className : String} {member : Member} {index : Nat} {form : Form} {node : Node}
    (h : edition.formSection className member index form = .ok node) :
    node.headingLine? = some (headingOf (form.signature, formAnchor className member index)) := by
  obtain ⟨about, -, h⟩ := bind_eq_ok.1 h
  cases h
  rfl

theorem headingLines_memberSections {className : String} {member : Member} {nodes : List Node}
    (h : edition.memberSections className member = .ok nodes) :
    nodes.map Node.headingLine? = (edition.formHeadings className member).map (some ∘ headingOf) := by
  have hlines := map_eq_of_mapM (fun _ _ hnode => headingLine?_formSection hnode) h
  rw [hlines, formHeadings, List.mapIdx_eq_zipIdx_map, List.mapIdx_eq_zipIdx_map, List.map_map, List.map_map]
  rfl

theorem holdsForms_kindSection {className : String} {own : List Member} {kind : MemberKind × String}
    {nodes : List Node} (h : edition.kindSection className own kind = .ok nodes) :
    edition.HoldsForms className kind.2 (own.filter (·.kind = kind.1)) nodes := by
  obtain ⟨sections, hsections, h⟩ := bind_eq_ok.1 h
  cases h
  refine ⟨sections.flatten, ?_, rfl⟩
  rw [List.map_flatten, map_eq_of_mapM (fun _ _ hnodes => headingLines_memberSections hnodes) hsections,
    List.map_flatMap]
  rfl

theorem headingLines_kindSection {className : String} {own : List Member} {kind : MemberKind × String}
    {nodes : List Node} (h : edition.kindSection className own kind = .ok nodes) :
    (nodes.flatMap Node.children).map Node.headingLine? =
      ((own.filter (·.kind = kind.1)).flatMap (edition.formHeadings className)).map (some ∘ headingOf) := by
  obtain ⟨sections, hlines, rfl⟩ := holdsForms_kindSection h
  split
  · rename_i hempty
    rw [List.isEmpty_iff.1 hempty] at hlines
    exact hlines
  · simpa [Node.children] using hlines

/-- The page of a class ends with sections that hold one heading for each form of its own members. -/
theorem headingLines_classPage {cls : ApiClass} {page : List Node} (h : edition.classPage cls = .ok page) :
    ∃ front sections, page = front ++ sections ∧
      (sections.flatMap Node.children).map Node.headingLine? =
        (edition.memberHeadings cls).map (some ∘ headingOf) := by
  obtain ⟨sections, hsections, h⟩ := bind_eq_ok.1 h
  cases h
  refine ⟨_, sections.flatten, rfl, ?_⟩
  have hlines := map_eq_of_mapM
    (fun _ nodes (hnodes : edition.kindSection _ _ _ = .ok nodes) => headingLines_kindSection hnodes) hsections
  calc (sections.flatten.flatMap Node.children).map Node.headingLine?
      = (sections.map fun nodes => (nodes.flatMap Node.children).map Node.headingLine?).flatten := by
        simp only [List.flatten_eq_flatMap, List.flatMap_assoc, List.map_flatMap, List.flatMap_map, id]
    _ = _ := by rw [hlines]
    _ = _ := by rw [← List.flatMap_def, ← List.map_flatMap, memberHeadings, sectioned, List.flatMap_assoc]

end Edition

end RefPages
