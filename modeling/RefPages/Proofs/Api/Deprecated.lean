/-
What is deprecated. An item is deprecated exactly when its comment says so somewhere: a bullet that deprecates it
writes so above the comment, and a comment that becomes longer is read again as a whole.
-/
import RefPages.Api.Equality
import RefPages.Proofs.Api.Throughout
import RefPages.Proofs.Markup.Deleted

namespace RefPages

open Markup Relation Text

/-! ## Comments -/

theorem Text.contains_iff {part cs : List Char} : contains part cs = true ↔ part <:+: cs := by
  induction cs with
  | nil => simp [contains]
  | cons c cs ih => rw [contains, Bool.or_eq_true, startsWith_iff, ih, List.infix_cons_iff]

namespace Markup

/-- One of the nodes, or a node below one of them at whatever depth. -/
def Node.Within (node : Node) (nodes : List Node) : Prop :=
  ∃ root ∈ nodes, ReflTransGen (fun outer inner : Node => inner ∈ outer.children) root node

/-- The running text of the node has the mark of what is deprecated in it. -/
def Node.SaysDeprecated (node : Node) : Prop :=
  ∃ text, node.inlineText? = some text ∧ "**DEPRECATED**".toList <:+: text.toList

/-- A comment says somewhere that what it is about is deprecated. -/
def SaysDeprecated (docs : List Node) : Prop := ∃ node : Node, node.Within docs ∧ node.SaysDeprecated

namespace Node

theorem within_cons {inner node : Node} {nodes : List Node} :
    inner.Within (node :: nodes) ↔ inner = node ∨ inner.Within node.children ∨ inner.Within nodes := by
  unfold Within
  rw [List.exists_mem_cons_iff, ReflTransGen.cases_head_iff, or_assoc, eq_comm]

theorem Within.mono {node : Node} {nodes more : List Node} (h : node.Within nodes) (hsub : nodes ⊆ more) :
    node.Within more := by
  obtain ⟨root, hroot, hpath⟩ := h
  exact ⟨root, hsub hroot, hpath⟩

theorem mem_preorderAll_iff {inner : Node} {nodes : List Node} : inner ∈ preorderAll nodes ↔ inner.Within nodes := by
  induction nodes using forest_induction with
  | nil => simp [preorderAll, Within]
  | cons node nodes ihbelow ihrest =>
    rw [preorderAll, preorder_eq, List.cons_append, List.mem_cons, List.mem_append, ihbelow, ihrest, within_cons]

end Node

end Markup

namespace Member

theorem marksDeprecated_iff {docs : List Node} : marksDeprecated docs = true ↔ SaysDeprecated docs := by
  unfold marksDeprecated SaysDeprecated Node.SaysDeprecated
  rw [List.any_eq_true]
  refine exists_congr fun node => and_congr Node.mem_preorderAll_iff ?_
  cases node.inlineText? <;> simp [contains_iff]

/-! ## Items -/

/-- The item is deprecated exactly when its comment says so. -/
def FollowsDocs (member : Member) : Prop := member.deprecated = true ↔ SaysDeprecated member.docs

/-- A comment that becomes longer goes on saying what it said. -/
theorem FollowsDocs.withDocs {member : Member} (h : member.FollowsDocs) (docs : List Node) :
    (member.withDocs (member.docs ++ docs)).FollowsDocs := by
  have hlonger : SaysDeprecated member.docs → SaysDeprecated (member.docs ++ docs) := by
    rintro ⟨node, hnode, hsays⟩
    exact ⟨node, hnode.mono (List.subset_append_left _ _), hsays⟩
  show (member.deprecated || marksDeprecated (member.docs ++ docs)) = true ↔ SaysDeprecated (member.docs ++ docs)
  rw [Bool.or_eq_true, marksDeprecated_iff]
  exact or_iff_right_of_imp fun hmember => hlonger (h.1 hmember)

/-- A bullet that deprecates an item writes so above its comment. -/
theorem FollowsDocs.describe {member : Member} (h : member.FollowsDocs) (metadata : Metadata) :
    (metadata.describe member).FollowsDocs := by
  show (member.deprecated || metadata.deprecated.isSome) = true ↔
    SaysDeprecated ((metadata.deprecated.map Metadata.deprecationNote).toList ++ member.docs)
  cases metadata.deprecated with
  | none =>
    rw [Option.isSome_none, Bool.or_false]
    exact h
  | some reason =>
    have hnote : (Metadata.deprecationNote reason).SaysDeprecated := by
      refine ⟨_, rfl, ?_⟩
      rw [String.toList_append]
      exact ⟨[], ' ' :: reason.toList, rfl⟩
    exact iff_of_true (Bool.or_true _) ⟨_, Node.within_cons.2 (.inl rfl), hnote⟩

theorem Relinked.docs_eq {member linked : Member} (h : Relinked member linked) :
    linked.docs = member.docs ∧ linked.deprecated = member.deprecated := by
  cases h with
  | linkArg className method =>
    unfold Member.linkArg
    dsimp only
    split <;> exact ⟨rfl, rfl⟩
  | _ => exact ⟨rfl, rfl⟩

theorem kept_followsDocs : Kept FollowsDocs where
  ofName := fun kind name type => by
    refine iff_of_false Bool.false_ne_true ?_
    rintro ⟨node, ⟨root, hroot, -⟩, -⟩
    cases hroot
  withDocs := fun _ docs h => h.withDocs docs
  describe := fun metadata _ _ h => h.describe metadata
  withParts := fun _ _ _ => id
  withManner := fun _ _ _ => id
  withForms := fun _ _ _ h _ _ => h
  relinked := fun member linked hlinked h => by
    unfold FollowsDocs
    rw [hlinked.docs_eq.1, hlinked.docs_eq.2]
    exact h

end Member

namespace Model

/-- Every member, argument, option and property that a text declares, at whatever depth and in whatever form for a
language, is deprecated exactly when some node of its comment, at whatever depth, says so in its running text. -/
theorem deprecated_iff_of_parse {text : String} {model : Model} (h : Model.parse text = .ok model)
    {cls : ApiClass} (hcls : cls ∈ model.classes) {member part : Member} (hmember : member ∈ cls.members)
    (hpart : ReflTransGen Member.Carries member part) :
    part.deprecated = true ↔
      ∃ node : Node, node.Within part.docs ∧
        ∃ text, node.inlineText? = some text ∧ "**DEPRECATED**".toList <:+: text.toList := by
  obtain ⟨nodes, -, h⟩ := bind_eq_ok.1 h
  exact (Assembled.ofDocuments h).throughout Member.kept_followsDocs cls hcls member hmember part hpart

example :
    Model.ofDocuments [[.heading 1 "class: A" [.heading 2 "method: A.a"
        [.item .star "deprecated: Use b." [], .paragraph "Old."]]]] =
      .ok ⟨[ApiClass.ofMembers "A" none [{ Member.ofName .method "a" (some (ApiType.plain "void")) with
        deprecated := true
        docs := [.note "caution" "**DEPRECATED** Use b.", .paragraph "Old."] }]]⟩ := by
  decide +kernel

/-- A method whose argument has a property that its trailing comment deprecates. -/
def markedText : String :=
  "# class: A\n## method: A.a\n### param: A.a.x\n- `x` <[Object]>\n  - `y` <[int]> **DEPRECATED**\n"

def markedProperty : Member :=
  { Member.property "y" { ApiType.plain "int" with expression := some "[int]" } true with
    deprecated := true
    docs := [.paragraph "**DEPRECATED**"] }

def markedArg : Member :=
  Member.property "x" { ApiType.object [markedProperty] with expression := some "[Object]" } true

def markedMethod : Member :=
  { Member.ofName .method "a" (some (ApiType.plain "void")) with args := [markedArg] }

theorem parse_markedText : Model.parse markedText = .ok ⟨[ApiClass.ofMembers "A" none [markedMethod]]⟩ := by
  refine bind_eq_ok.2 ⟨[.heading 1 "class: A" [.heading 2 "method: A.a" [.heading 3 "param: A.a.x"
    [.item .dash "`x` <[Object]>" [.item .dash "`y` <[int]> **DEPRECATED**" []]]]]], ?_, by decide +kernel⟩
  exact (Markup.parse_of_toList String.toList_ofList).trans rfl

/-- The property of the argument is deprecated, as its comment says. -/
theorem deprecated_iff_of_parse_markedText :
    Model.parse markedText = .ok ⟨[ApiClass.ofMembers "A" none [markedMethod]]⟩ ∧
      ReflTransGen Member.Carries (markedMethod.inClass "A") markedProperty ∧
      (markedProperty.deprecated = true ↔
        ∃ node : Node, node.Within markedProperty.docs ∧
          ∃ text, node.inlineText? = some text ∧ "**DEPRECATED**".toList <:+: text.toList) := by
  have harg : Member.Carries (markedMethod.inClass "A") (markedArg.linkArg "A" (some "A.a")) :=
    .inl (.inl (List.mem_singleton.2 rfl))
  have hproperty : Member.Carries (markedArg.linkArg "A" (some "A.a")) markedProperty := by
    refine .inl (.inr ⟨_, rfl, _, .refl, ?_⟩)
    exact List.mem_singleton.2 rfl
  have hpath := ReflTransGen.tail (.single harg) hproperty
  exact ⟨parse_markedText, hpath,
    deprecated_iff_of_parse parse_markedText (List.mem_singleton.2 rfl) (List.mem_singleton.2 rfl) hpath⟩

end Model

end RefPages
