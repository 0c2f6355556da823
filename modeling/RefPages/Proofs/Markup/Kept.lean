/-
What is left of a forest for a language. Of the nodes under which at most one bullet lists languages,
exactly those go that such a bullet keeps from the language, and the bullets themselves; of code samples
exactly those in other languages go. Neither pass sees what the other takes away.
-/
import RefPages.Markup.ForLang
import RefPages.Proofs.Markup.Deleted

namespace RefPages.Markup

open Text

namespace Node

/-- The lists of languages in the bullets right below a node. -/
def langLists (node : Node) : List (List Char) := node.children.filterMap langsOf?

/-- Whether a list of languages right below the node leaves the language out. -/
def leavesOut (lang : Lang) (node : Node) : Bool := node.langLists.any (!lists lang ·)

/-- Whether the node is a code sample in another language. -/
def isForeign (lang : Lang) : Node → Bool
  | code info _ => isForeignCode lang info
  | _ => false

end Node

/-- Whether a place is not for a language: its node leaves the language out, or is a bullet that lists
languages for the node above it. -/
def goesFor (lang : Lang) : Place → Bool
  | [] => false
  | [node] => node.leavesOut lang
  | node :: _ :: _ => node.leavesOut lang || (langsOf? node).isSome

section

open Node

variable {lang own : Lang}

/-! ## Node by node -/

@[simp] theorem langsOf?_withChildren (node : Node) (below : List Node) :
    langsOf? (node.withChildren below) = langsOf? node := by
  cases node with
  | item marker => cases marker <;> rfl
  | _ => rfl

theorem children_withChildren (node : Node) (below : List Node) (h : node.children = [] → below = []) :
    (node.withChildren below).children = below := by
  cases node with
  | heading => rfl
  | item => rfl
  | _ => exact (h rfl).symm

theorem forLang?_eq (lang : Lang) (node : Node) :
    forLang? lang node =
      if excludes lang node.children then none else some (node.withChildren (forLangUnder lang node.children)) := by
  cases node <;> rfl

theorem forLang_eq_filterMap (lang : Lang) (nodes : List Node) :
    forLang lang nodes = nodes.filterMap (forLang? lang) := by
  induction nodes with
  | nil => rfl
  | cons node nodes ih =>
    rw [forLang, ih, List.filterMap_cons]
    cases forLang? lang node <;> rfl

theorem withOwnCode?_eq (lang : Lang) (node : Node) :
    withOwnCode? lang node =
      if node.isForeign lang then none else some (node.withChildren (withOwnCode lang node.children)) := by
  cases node <;> rfl

theorem withOwnCode_append (lang : Lang) (nodes more : List Node) :
    withOwnCode lang (nodes ++ more) = withOwnCode lang nodes ++ withOwnCode lang more := by
  induction nodes with
  | nil => rfl
  | cons node nodes ih => rw [List.cons_append, withOwnCode, withOwnCode, ih, List.append_assoc]

/-- With one list of languages at most, that list decides. -/
theorem excludes_eq_leavesOut {node : Node} (h : node.langLists.length ≤ 1) :
    excludes lang node.children = node.leavesOut lang := by
  unfold excludes leavesOut
  rw [← List.head?_filterMap, ← langLists]
  rcases hlists : node.langLists with _ | ⟨names, _ | ⟨more, rest⟩⟩
  · rfl
  · simp
  · simp [hlists] at h

/-- Without lists of languages among the nodes, nothing is left out of them for being under a node. -/
theorem forLangUnder_eq_forLang {nodes : List Node} (h : nodes.filterMap langsOf? = []) :
    forLangUnder lang nodes = forLang lang nodes := by
  induction nodes with
  | nil => rfl
  | cons node nodes ih =>
    rw [List.filterMap_eq_nil_iff, List.forall_mem_cons, ← List.filterMap_eq_nil_iff] at h
    rw [forLangUnder, forLang, h.1, Option.isSome_none, if_neg Bool.false_ne_true, ih h.2]

/-! ## Parts for one language -/

/-- No node has two bullets below it that list languages. -/
def OneList (nodes : List Node) : Prop := ∀ node ∈ preorderAll nodes, node.langLists.length ≤ 1

theorem oneList_cons {node : Node} {nodes : List Node} :
    OneList (node :: nodes) ↔ node.langLists.length ≤ 1 ∧ OneList node.children ∧ OneList nodes := by
  unfold OneList
  rw [preorderAll, preorder_eq, List.cons_append, List.forall_mem_cons, List.forall_mem_append]

/-- What is for a language is what is left when the places that are not for it are deleted. -/
theorem forLang_eq_delete {nodes : List Node} (h : OneList nodes) :
    forLang lang nodes = delete (goesFor lang) [] nodes ∧
      ∀ parent above, (nodes.filterMap langsOf?).length ≤ 1 →
        forLangUnder lang nodes = delete (goesFor lang) (parent :: above) nodes := by
  induction nodes using forest_induction with
  | nil => exact ⟨rfl, fun _ _ _ => rfl⟩
  | cons node nodes ihbelow ihrest =>
    obtain ⟨hnode, hbelow, hrest⟩ := oneList_cons.1 h
    have hnode? : ∀ above, forLang? lang node =
        if node.leavesOut lang then none
        else some (node.withChildren (delete (goesFor lang) (node :: above) node.children)) := fun above => by
      rw [forLang?_eq, excludes_eq_leavesOut hnode, (ihbelow hbelow).2 node above hnode]
    refine ⟨?_, fun parent above hone => ?_⟩
    · rw [forLang, delete, delete?_eq, (ihrest hrest).1, hnode? [], goesFor]
    · rw [forLangUnder, delete, delete?_eq, goesFor]
      cases hlist : langsOf? node with
      | some names =>
        -- this is the only list, so that the rest is kept as it is without one
        have hnone : nodes.filterMap langsOf? = [] := by
          simpa [List.filterMap_cons, hlist] using hone
        rw [Option.isSome_some, if_pos rfl, Bool.or_true, if_pos rfl, Option.toList_none, List.nil_append,
          ← forLangUnder_eq_forLang hnone, (ihrest hrest).2 parent above (by simp [hnone])]
      | none =>
        rw [List.filterMap_cons, hlist] at hone
        rw [Option.isSome_none, if_neg Bool.false_ne_true, Bool.or_false, hnode? (parent :: above),
          (ihrest hrest).2 parent above hone]

/-- No list of languages is left under a node. -/
theorem langLists_delete (lang : Lang) (above : Place) (nodes : List Node) :
    (∀ node ∈ preorderAll (delete (goesFor lang) above nodes), node.langLists = []) ∧
      (above ≠ [] → (delete (goesFor lang) above nodes).filterMap langsOf? = []) := by
  induction nodes using forest_induction generalizing above with
  | nil => exact ⟨by simp [delete, preorderAll], fun _ => rfl⟩
  | cons node nodes ihbelow ihrest =>
    obtain ⟨hrest, hlists⟩ := ihrest above
    obtain ⟨hbelow, hown⟩ := ihbelow (node :: above)
    rw [delete, delete?_eq]
    by_cases hgoes : goesFor lang (node :: above) = true
    · rw [if_pos hgoes]
      exact ⟨hrest, hlists⟩
    · rw [if_neg hgoes, Option.toList_some, List.singleton_append]
      refine ⟨?_, fun habove => ?_⟩
      · rw [preorderAll, preorder_eq, children_delete, List.cons_append, List.forall_mem_cons, List.forall_mem_append]
        refine ⟨?_, hbelow, hrest⟩
        rw [langLists, children_delete]
        exact hown (List.cons_ne_nil _ _)
      · obtain ⟨parent, above, rfl⟩ := List.exists_cons_of_ne_nil habove
        have hnone : langsOf? node = none := by
          simp only [goesFor, Bool.or_eq_true, not_or] at hgoes
          simpa using hgoes.2
        rw [List.filterMap_cons, langsOf?_withChildren, hnone]
        exact hlists habove

/-- Without lists of languages everything is left. -/
theorem forLang_eq_self {nodes : List Node} (h : ∀ node ∈ preorderAll nodes, node.langLists = []) :
    forLang lang nodes = nodes := by
  induction nodes using forest_induction with
  | nil => rfl
  | cons node nodes ihbelow ihrest =>
    rw [preorderAll, preorder_eq, List.cons_append, List.forall_mem_cons, List.forall_mem_append] at h
    obtain ⟨hnode, hbelow, hrest⟩ := h
    have hexcludes : excludes lang node.children = false := by
      rw [excludes_eq_leavesOut (by simp [hnode]), leavesOut, hnode]
      rfl
    rw [forLang, forLang?_eq, hexcludes, if_neg Bool.false_ne_true, forLangUnder_eq_forLang hnode, ihbelow hbelow,
      withChildren_children, ihrest hrest]
    rfl

end

/-- When no node has two bullets below it that list languages, exactly the places stay at and above which
no bullet lists other languages only and no such bullet itself is, in their order and under the same nodes;
so another pass changes nothing. -/
theorem forLang_keeps {nodes : List Node} (h : ∀ node ∈ Node.preorderAll nodes, node.langLists.length ≤ 1)
    (lang : Lang) :
    forLang lang nodes = delete (goesFor lang) [] nodes ∧
      (∀ kept, kept = forLang lang nodes ↔
        Node.outline [] kept = ((Node.places [] nodes).filter (stays (goesFor lang))).map (·.map Node.bare)) ∧
      forLang lang (forLang lang nodes) = forLang lang nodes := by
  have hdelete : forLang lang nodes = delete (goesFor lang) [] nodes := (forLang_eq_delete h).1
  have houtline := @outline_delete (goesFor lang) [] [] rfl rfl nodes
  refine ⟨hdelete, fun kept => ?_, ?_⟩
  · rw [hdelete, ← houtline]
    exact ⟨congrArg (Node.outline []), Node.eq_of_outline rfl⟩
  · rw [hdelete]
    exact forLang_eq_self (langLists_delete lang [] nodes).1

/-- A bullet may stand anywhere below its node, under a node that is dropped or one that is kept. -/
theorem forLang_keeps_nested :
    let nodes : List Node :=
      [.heading 2 "a" [.item .dash "b" [.paragraph "c", .item .star "langs: ts , ruby" [.paragraph "d"]],
        .item .star "langs: js, py" [], .item .dash "e" [.item .star "langs: python" [], .paragraph "f"]],
       .item .star "langs: java" []]
    (∀ node ∈ Node.preorderAll nodes, node.langLists.length ≤ 1) ∧
      forLang .python nodes = [.heading 2 "a" [.item .dash "e" [.paragraph "f"]], .item .star "langs: java" []] ∧
      ∀ kept, kept = forLang .python nodes ↔
        Node.outline [] kept = ((Node.places [] nodes).filter (stays (goesFor .python))).map (·.map Node.bare) := by
  intro nodes
  have h : ∀ node ∈ Node.preorderAll nodes, node.langLists.length ≤ 1 := by decide
  exact ⟨h, by decide, (forLang_keeps h .python).2.1⟩

/-! ## Code samples -/

section

open Node

variable {lang own : Lang}

theorem withOwnCode_eq_delete (own : Lang) (above : Place) (nodes : List Node) :
    withOwnCode own nodes = delete (fun place => place.head?.any (·.isForeign own)) above nodes := by
  induction nodes using forest_induction generalizing above with
  | nil => rfl
  | cons node nodes ihbelow ihrest =>
    rw [withOwnCode, withOwnCode?_eq, delete, delete?_eq, ← ihbelow (node :: above), ← ihrest above]
    rfl

theorem children_eq_nil_of_isForeign {node : Node} (h : node.isForeign own = true) : node.children = [] := by
  cases node with
  | code => rfl
  | _ => cases h

/-- Nothing is below a code sample, so that only the sample itself goes. -/
theorem stays_of_mem_places {above place : Place} {nodes : List Node}
    (habove : stays (fun place => place.head?.any (·.isForeign own)) above = true) (h : place ∈ places above nodes) :
    stays (fun place => place.head?.any (·.isForeign own)) place = !place.head?.any (·.isForeign own) := by
  induction nodes using forest_induction generalizing above with
  | nil => cases h
  | cons node nodes ihbelow ihrest =>
    rw [places_cons, List.cons_append, List.mem_cons, List.mem_append] at h
    rcases h with rfl | h | h
    · rw [stays, habove, Bool.and_true]
    · by_cases hforeign : node.isForeign own = true
      · rw [children_eq_nil_of_isForeign hforeign] at h
        cases h
      · exact ihbelow (by simp [stays, habove, hforeign]) h
    · exact ihrest habove h

theorem isForeign_withChildren (node : Node) (below : List Node) :
    (node.withChildren below).isForeign own = node.isForeign own := by
  cases node <;> rfl

theorem withOwnCode_idem (own : Lang) (nodes : List Node) :
    withOwnCode own (withOwnCode own nodes) = withOwnCode own nodes := by
  induction nodes using forest_induction with
  | nil => rfl
  | cons node nodes ihbelow ihrest =>
    rw [withOwnCode, withOwnCode?_eq]
    by_cases hforeign : node.isForeign own = true
    · rw [if_pos hforeign]
      exact ihrest
    · have hchildren := children_withChildren node (withOwnCode own node.children)
        fun hnil => by rw [hnil]; rfl
      rw [if_neg hforeign, Option.toList_some, List.singleton_append, withOwnCode, withOwnCode?_eq,
        isForeign_withChildren, if_neg hforeign, hchildren, ihbelow, ihrest]
      cases node <;> rfl

/-- Lists of languages are no code. -/
theorem filterMap_langsOf?_withOwnCode (own : Lang) (nodes : List Node) :
    (withOwnCode own nodes).filterMap langsOf? = nodes.filterMap langsOf? := by
  induction nodes with
  | nil => rfl
  | cons node nodes ih =>
    rw [withOwnCode, withOwnCode?_eq, List.filterMap_append, ih]
    by_cases hforeign : node.isForeign own = true
    · have hnone : langsOf? node = none := by
        cases node with
        | code => rfl
        | _ => cases hforeign
      rw [if_pos hforeign, List.filterMap_cons, hnone]
      rfl
    · rw [if_neg hforeign, List.filterMap_cons, Option.toList_some, List.filterMap_cons, langsOf?_withChildren]
      cases langsOf? node <;> rfl

theorem excludes_withOwnCode (lang own : Lang) (nodes : List Node) :
    excludes lang (withOwnCode own nodes) = excludes lang nodes := by
  rw [excludes, ← List.head?_filterMap, filterMap_langsOf?_withOwnCode, List.head?_filterMap, excludes]

/-- A code sample is for every language, as far as lists of languages go. -/
theorem forLang?_of_isForeign (lang : Lang) {node : Node} (h : node.isForeign own = true) :
    langsOf? node = none ∧ forLang? lang node = some node := by
  cases node with
  | code => exact ⟨rfl, rfl⟩
  | _ => cases h

/-- One pass on a node and the other on what is left of it, in either order. -/
theorem forLang?_withOwnCode? {node : Node}
    (hbelow : forLangUnder lang (withOwnCode own node.children) = withOwnCode own (forLangUnder lang node.children)) :
    forLang lang (withOwnCode? own node).toList = withOwnCode own (forLang? lang node).toList := by
  rw [withOwnCode?_eq]
  by_cases hforeign : node.isForeign own = true
  · rw [if_pos hforeign, (forLang?_of_isForeign lang hforeign).2, Option.toList_some, withOwnCode, withOwnCode?_eq,
      if_pos hforeign]
    rfl
  · have hchildren := children_withChildren node (withOwnCode own node.children)
      fun hnil => by rw [hnil]; rfl
    rw [if_neg hforeign, Option.toList_some, forLang, forLang?_eq, hchildren, excludes_withOwnCode, hbelow, forLang?_eq]
    by_cases hexcludes : excludes lang node.children = true
    · rw [if_pos hexcludes, if_pos hexcludes]
      rfl
    · have hkept := children_withChildren node (forLangUnder lang node.children)
        fun hnil => by rw [hnil]; rfl
      rw [if_neg hexcludes, if_neg hexcludes, Option.toList_some, Option.toList_some, withOwnCode, withOwnCode?_eq,
        isForeign_withChildren, if_neg hforeign, hkept]
      cases node <;> rfl

theorem forLang_append (lang : Lang) (nodes more : List Node) :
    forLang lang (nodes ++ more) = forLang lang nodes ++ forLang lang more := by
  rw [forLang_eq_filterMap, forLang_eq_filterMap, forLang_eq_filterMap, List.filterMap_append]

/-- The passes for lists of languages and for code samples can change places, at the top of a forest and
under a node. -/
theorem forLang_withOwnCode (lang own : Lang) (nodes : List Node) :
    forLang lang (withOwnCode own nodes) = withOwnCode own (forLang lang nodes) ∧
      forLangUnder lang (withOwnCode own nodes) = withOwnCode own (forLangUnder lang nodes) := by
  induction nodes using forest_induction with
  | nil => exact ⟨rfl, rfl⟩
  | cons node nodes ihbelow ihrest =>
    have hnode := forLang?_withOwnCode? ihbelow.2
    refine ⟨?_, ?_⟩
    · rw [withOwnCode, forLang_append, hnode, ihrest.1, forLang, withOwnCode_append]
    · rw [withOwnCode, forLangUnder]
      by_cases hforeign : node.isForeign own = true
      · obtain ⟨hnone, hkept⟩ := forLang?_of_isForeign lang hforeign
        rw [withOwnCode?_eq, if_pos hforeign, Option.toList_none, List.nil_append, ihrest.2, hnone, hkept,
          Option.isSome_none, if_neg Bool.false_ne_true, withOwnCode_append, Option.toList_some, withOwnCode,
          withOwnCode?_eq, if_pos hforeign]
        rfl
      · have htoList : (withOwnCode? own node).toList = [node.withChildren (withOwnCode own node.children)] := by
          rw [withOwnCode?_eq, if_neg hforeign, Option.toList_some]
        rw [htoList, forLang, forLang, List.append_nil] at hnode
        rw [htoList, List.singleton_append, forLangUnder, langsOf?_withChildren]
        cases langsOf? node with
        | some names => exact ihrest.1
        | none =>
          rw [Option.isSome_none, if_neg Bool.false_ne_true, if_neg Bool.false_ne_true, hnode, ihrest.2,
            withOwnCode_append]

end

/-- Leaving out what is not for one language and leaving out code samples that are not in another can change
places; the latter leaves out exactly those samples, keeps everything else in its order and under the same
nodes, and changes nothing when it is repeated. -/
theorem forLang_withOwnCode_comm (lang own : Lang) (nodes : List Node) :
    withOwnCode own (forLang lang nodes) = forLang lang (withOwnCode own nodes) ∧
      withOwnCode own (withOwnCode own nodes) = withOwnCode own nodes ∧
      ∀ kept, kept = withOwnCode own nodes ↔
        Node.outline [] kept =
          ((Node.places [] nodes).filter fun place => !place.head?.any (·.isForeign own)).map (·.map Node.bare) := by
  refine ⟨(forLang_withOwnCode lang own nodes).1.symm, withOwnCode_idem own nodes, fun kept => ?_⟩
  have houtline := @outline_delete (fun place : Place => place.head?.any (·.isForeign own)) [] [] rfl rfl nodes
  rw [← withOwnCode_eq_delete, List.filter_congr fun place hplace => stays_of_mem_places rfl hplace] at houtline
  rw [← houtline]
  exact ⟨congrArg (Node.outline []), Node.eq_of_outline rfl⟩

end RefPages.Markup
