/-
When the anchors on the page of a class are different. An anchor is made of parts joined by
hyphens: the words of the class, perhaps `event`, the words of the member, and the number of the
form. The parts can be read off an anchor again, so anchors are the same exactly when their parts
are; what is lost is where the words end and the number begins.
-/
import Mathlib
import RefPages.Api.Equality
import RefPages.Project.Generate
import RefPages.Proofs.Api.Hierarchy
import RefPages.Proofs.Name.Words
import RefPages.Proofs.Page.Headings

namespace RefPages

open Text

/-! ## The parts of an anchor -/

namespace Member

/-- What the anchor of a member says after the name of the class, part by part. A name without words
is an empty part. -/
def anchorParts (member : Member) : List (List Char) :=
  (if member.isEvent then ["event".toList] else []) ++
    if Name.words member.name.toList = [] then [[]] else Name.words member.name.toList

/-- What the anchor of one form of a member says after the name of the class, part by part. -/
def formParts (member : Member) (index : Nat) : List (List Char) :=
  member.anchorParts ++ if index = 0 then [] else [(toString index).toList]

theorem anchorParts_ne_nil (member : Member) : member.anchorParts ≠ [] := by
  unfold anchorParts
  intro h
  have hwords := (List.append_eq_nil_iff.1 h).2
  split at hwords
  · cases hwords
  · contradiction

theorem formParts_ne_nil (member : Member) (index : Nat) : member.formParts index ≠ [] :=
  fun h => member.anchorParts_ne_nil (List.append_eq_nil_iff.1 h).1

theorem hyphen_notMem_of_mem_anchorParts {member : Member} {part : List Char} (h : part ∈ member.anchorParts) :
    '-' ∉ part := by
  unfold anchorParts at h
  rcases List.mem_append.1 h with h | h
  · split at h
    · rw [List.mem_singleton.1 h]
      decide
    · cases h
  · split at h
    · rw [List.mem_singleton.1 h]
      exact List.not_mem_nil
    · exact Name.hyphen_notMem_of_mem_words h

theorem hyphen_notMem_of_mem_formParts {member : Member} {index : Nat} {part : List Char}
    (h : part ∈ member.formParts index) : '-' ∉ part := by
  rcases List.mem_append.1 h with h | h
  · exact hyphen_notMem_of_mem_anchorParts h
  · split at h
    · cases h
    · rw [List.mem_singleton.1 h, Nat.toString_eq_repr, Nat.toList_repr]
      intro hdigit
      exact absurd (Nat.isDigit_of_mem_toDigits (by decide) (by decide) hdigit) (by decide)

/-- The forms of a member after the first are told apart by their numbers. -/
theorem formParts_inj (member : Member) {i j : Nat} : member.formParts i = member.formParts j ↔ i = j := by
  constructor
  · intro h
    have hnumber := List.append_cancel_left h
    by_cases hi : i = 0 <;> by_cases hj : j = 0
    · rw [hi, hj]
    · simp [hi, hj] at hnumber
    · simp [hi, hj] at hnumber
    · rw [if_neg hi, if_neg hj] at hnumber
      -- the number is the value of its digits
      have hvalue := congrArg (fun digits => Nat.ofDigitChars 10 digits 0) (List.cons.inj hnumber).1
      simpa [Nat.toString_eq_ofList_toDigits] using hvalue
  · rintro rfl
    rfl

end Member

namespace Edition

theorem toList_anchor (className : String) (member : Member) :
    (Page.anchor className member).toList =
      (Name.kebabCase className).toList ++ '-' :: ['-'].intercalate member.anchorParts := by
  have hname : (Name.kebabCase member.name).toList =
      ['-'].intercalate (if Name.words member.name.toList = [] then [[]] else Name.words member.name.toList) := by
    unfold Name.kebabCase
    rw [String.toList_ofList]
    split
    · rename_i hnone
      rw [hnone]
      rfl
    · rfl
  unfold Page.anchor Member.anchorParts
  rw [String.toList_append, String.toList_append, hname, List.append_assoc]
  cases member.isEvent with
  | false => rfl
  | true =>
    rw [if_pos rfl, if_pos rfl, List.singleton_append, List.intercalate_cons_of_ne_nil (by split <;> simp_all)]
    simp

theorem toList_formAnchor (className : String) (member : Member) (index : Nat) :
    (formAnchor className member index).toList =
      (Name.kebabCase className).toList ++ '-' :: ['-'].intercalate (member.formParts index) := by
  unfold formAnchor Member.formParts
  rw [String.toList_append, toList_anchor]
  split
  · simp
  · rw [intercalate_append_singleton member.anchorParts_ne_nil]
    simp [String.toList_append]

/-- The anchors of two forms on a page are the same exactly when their parts are. -/
theorem formAnchor_inj {className : String} {a b : Member} {i j : Nat} :
    formAnchor className a i = formAnchor className b j ↔ a.formParts i = b.formParts j := by
  rw [← String.toList_inj, toList_formAnchor, toList_formAnchor, List.append_cancel_left_eq, List.cons_inj_right]
  exact intercalate_inj (a.formParts_ne_nil i) (b.formParts_ne_nil j)
    (fun _ => Member.hyphen_notMem_of_mem_formParts) (fun _ => Member.hyphen_notMem_of_mem_formParts)

end Edition

/-! ## Different anchors -/

/-- A member has the words of another one, or these words and the number of one of its further forms. -/
def Dialect.TakesAnchor (dialect : Dialect) (member other : Member) : Prop :=
  dialect.forms member ≠ [] ∧ ∃ index < (dialect.forms other).length, member.anchorParts = other.formParts index

namespace Edition

variable {edition : Edition}

theorem anchors_formHeadings (className : String) (member : Member) :
    (edition.formHeadings className member).map (·.2) =
      (List.range (edition.dialect.forms member).length).map (formAnchor className member) := by
  unfold formHeadings
  apply List.ext_getElem
  · simp
  · intro index h h'
    simp

theorem nodup_formAnchors (className : String) (member : Member) :
    ((edition.formHeadings className member).map (·.2)).Nodup := by
  rw [anchors_formHeadings]
  refine List.nodup_range.map fun i j hanchor => ?_
  exact member.formParts_inj.1 (formAnchor_inj.1 hanchor)

/-- Two members share no anchor exactly when neither takes one of the other. -/
theorem disjoint_formAnchors_iff {className : String} {a b : Member} :
    ((edition.formHeadings className a).map (·.2)).Disjoint ((edition.formHeadings className b).map (·.2)) ↔
      ¬ edition.dialect.TakesAnchor a b ∧ ¬ edition.dialect.TakesAnchor b a := by
  rw [anchors_formHeadings, anchors_formHeadings]
  have hmem : ∀ (member : Member) (index : Nat), index < (edition.dialect.forms member).length →
      formAnchor className member index ∈
        (List.range (edition.dialect.forms member).length).map (formAnchor className member) :=
    fun member index hindex => List.mem_map_of_mem (List.mem_range.2 hindex)
  have hshared : ∀ c d : Member, edition.dialect.TakesAnchor c d →
      ∃ index < (edition.dialect.forms d).length, 0 < (edition.dialect.forms c).length ∧
        formAnchor className c 0 = formAnchor className d index := by
    rintro c d ⟨hforms, index, hindex, hparts⟩
    refine ⟨index, hindex, List.length_pos_iff.2 hforms, formAnchor_inj.2 ?_⟩
    simpa [Member.formParts] using hparts
  constructor
  · intro hdisjoint
    constructor
    · intro htakes
      obtain ⟨index, hindex, hpos, hanchor⟩ := hshared a b htakes
      have hb := hmem b index hindex
      rw [← hanchor] at hb
      exact hdisjoint (hmem a 0 hpos) hb
    · intro htakes
      obtain ⟨index, hindex, hpos, hanchor⟩ := hshared b a htakes
      have hb := hmem b 0 hpos
      rw [hanchor] at hb
      exact hdisjoint (hmem a index hindex) hb
  · rintro ⟨hab, hba⟩ anchor ha hb
    obtain ⟨i, hi, rfl⟩ := List.mem_map.1 ha
    obtain ⟨j, hj, hanchor⟩ := List.mem_map.1 hb
    rw [List.mem_range] at hi hj
    have hparts := formAnchor_inj.1 hanchor
    -- one of the forms is the first one of its member, or both have a number, which is the same
    by_cases hzero : i = 0
    · subst hzero
      refine hab ⟨List.length_pos_iff.1 hi, j, hj, ?_⟩
      simpa [Member.formParts] using hparts.symm
    · by_cases hzero' : j = 0
      · subst hzero'
        refine hba ⟨List.length_pos_iff.1 hj, i, hi, ?_⟩
        simpa [Member.formParts] using hparts
      · have hwords : b.anchorParts = a.anchorParts := by
          simp only [Member.formParts, if_neg hzero, if_neg hzero'] at hparts
          exact (List.append_inj' hparts (by simp only [List.length_singleton])).1
        refine hab ⟨List.length_pos_iff.1 (by omega), 0, by omega, ?_⟩
        simpa [Member.formParts] using hwords.symm

/-- The headings of members on a page have different anchors exactly when no member takes an anchor of
another one. -/
theorem nodup_anchors_iff {cls : ApiClass} {page : List Markup.Node} (h : edition.classPage cls = .ok page) :
    ∃ front sections, page = front ++ sections ∧
      (sections.flatMap Markup.Node.children).map Markup.Node.headingLine? =
        (edition.memberHeadings cls).map (some ∘ headingOf) ∧
      (((edition.memberHeadings cls).map (·.2)).Nodup ↔
        (ownMembers cls).Pairwise fun a b =>
          ¬ edition.dialect.TakesAnchor a b ∧ ¬ edition.dialect.TakesAnchor b a) := by
  obtain ⟨front, sections, hpage, hlines⟩ := headingLines_classPage h
  refine ⟨front, sections, hpage, hlines, ?_⟩
  have hperm := ((sectioned_perm cls).flatMap_right fun member =>
    (edition.formHeadings cls.name member).map (·.2)).nodup_iff
  rw [memberHeadings, List.map_flatMap, hperm, List.nodup_flatMap]
  constructor
  · rintro ⟨-, hpairs⟩
    exact hpairs.imp fun hdisjoint => disjoint_formAnchors_iff.1 hdisjoint
  · intro hpairs
    refine ⟨fun member _ => nodup_formAnchors cls.name member, ?_⟩
    exact hpairs.imp fun hnone => disjoint_formAnchors_iff.2 hnone

end Edition

/-! ## An overload with the number of a form -/

namespace Edition

/-- A method whose argument has three alternatives, and a documented overload of it. -/
def overloadedText : String :=
  "# class: A\n## method: A.go\n### param: A.go.x\n- \x60x\x60 <int|float|path>\n## method: A.go#2\n"

/-- The document that the text is. -/
def overloadedDocument : List Markup.Node :=
  [.heading 1 "class: A" [.heading 2 "method: A.go" [.heading 3 "param: A.go.x"
    [.item .dash "\x60x\x60 <int|float|path>" []]], .heading 2 "method: A.go#2" []]]

/-- The method, which has three forms in C#. -/
def methodWithForms : Member :=
  let alternatives := [ApiType.plain "int", ApiType.plain "float", ApiType.plain "path"]
  let union := { ApiType.ofAlternatives "" alternatives with expression := some "int|float|path" }
  { Member.ofName .method "go" (some (ApiType.plain "void")) with
    args := [Member.linkArg "A" (some "A.go") (Member.property "x" union true)] }

/-- The class of the method and its overload. -/
def overloadedClass : ApiClass :=
  ApiClass.ofMembers "A" none [methodWithForms, Member.ofName .method "go#2" (some (ApiType.plain "void"))]

/-- The edition of the class in C#. -/
def overloadedEdition : Edition where
  dialect := ⟨.csharp, ["A"] ++ ApiClass.foreignBases⟩
  model := ⟨[overloadedClass]⟩
  links := linksBetween ⟨.csharp, ["A"] ++ ApiClass.foreignBases⟩ ⟨[overloadedClass]⟩ "mdx"
  extension := "mdx"

/-- The sections on the page of the class. -/
def overloadedSections : List (List Markup.Node) :=
  let formSection (anchor type : String) : Markup.Node :=
    .heading 3 ("a.Go(x) \x7b#" ++ anchor ++ "\x7d")
      [.paragraph "**Arguments**", .item .dash ("\x60x\x60 [" ++ type ++ "]") []]
  [[], [.heading 2 "Methods"
    [formSection "a-go" "int", formSection "a-go-1" "float", formSection "a-go-2" "string",
      .heading 3 "a.Go() \x7b#a-go-2\x7d" []]], []]

theorem kindSections_overloadedClass :
    sectionTitles.mapM (overloadedEdition.kindSection "A" (ownMembers overloadedClass)) =
      .ok overloadedSections := by
  decide +kernel

theorem exists_classPage_overloadedClass : ∃ page, overloadedEdition.classPage overloadedClass = .ok page :=
  ⟨_, bind_eq_ok.2 ⟨_, kindSections_overloadedClass, rfl⟩⟩

/-- The overload takes the anchor of the third form of the method. -/
theorem nodup_anchors_overload :
    (∃ page, overloadedEdition.classPage overloadedClass = .ok page) ∧
      ¬ ((overloadedEdition.memberHeadings overloadedClass).map (·.2)).Nodup := by
  obtain ⟨page, hpage⟩ := exists_classPage_overloadedClass
  obtain ⟨-, -, -, -, hnodup⟩ := nodup_anchors_iff hpage
  refine ⟨⟨page, hpage⟩, fun h => ?_⟩
  have hpairs := hnodup.1 h
  have hown : ownMembers overloadedClass =
      [methodWithForms.inClass "A", (Member.ofName .method "go#2" (some (ApiType.plain "void"))).inClass "A"] := rfl
  rw [hown, List.pairwise_pair] at hpairs
  have hforms : (overloadedEdition.dialect.forms (methodWithForms.inClass "A")).length = 3 := by decide +kernel
  exact hpairs.2 ⟨List.cons_ne_nil _ _, 2, by rw [hforms]; decide, by decide +kernel⟩

/-- The only class inherits nothing. -/
theorem inherit_overloadedClass : (Model.inherit ⟨[overloadedClass]⟩).1 = ⟨[overloadedClass]⟩ := by
  decide +kernel

/-- Members of a class in a language can share an anchor although their names are different, in capital
and in small letters. -/
theorem anchors_shared :
    Model.parse overloadedText = .ok ⟨[overloadedClass]⟩ ∧
      Config.standard.languageModel .csharp (Model.inherit ⟨[overloadedClass]⟩).1 = .ok ⟨[overloadedClass]⟩ ∧
      Edition.ofModel .csharp "mdx" ⟨[overloadedClass]⟩ = .ok overloadedEdition ∧
      (overloadedClass.members.Pairwise fun a b =>
        a.kind ≠ b.kind ∨ Text.lower a.name.toList ≠ Text.lower b.name.toList) ∧
      (∃ page, overloadedEdition.classPage overloadedClass = .ok page) ∧
      ¬ ((overloadedEdition.memberHeadings overloadedClass).map (·.2)).Nodup := by
  have hheadings : overloadedEdition.memberHeadings overloadedClass =
      [("a.Go(x)", "a-go"), ("a.Go(x)", "a-go-1"), ("a.Go(x)", "a-go-2"), ("a.Go()", "a-go-2")] := by
    decide +kernel
  have hparse : Markup.parse overloadedText = .ok overloadedDocument :=
    (Markup.parse_of_toList String.toList_ofList).trans rfl
  refine ⟨bind_eq_ok.2 ⟨_, hparse, by decide +kernel⟩, by rw [inherit_overloadedClass]; decide +kernel, by rfl, ?_,
    exists_classPage_overloadedClass, ?_⟩
  · have hnames : Text.lower "go".toList ≠ Text.lower "go#2".toList := by decide
    exact List.pairwise_pair.2 (.inr hnames)
  · rw [hheadings]
    decide

end Edition

end RefPages
