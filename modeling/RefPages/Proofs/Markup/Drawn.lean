/-
What holds of every node that comes from a text, whatever its block markers are: no line feed is in it,
the lines of a block do not begin with the fence that closes it, and a paragraph does not begin like
something else.
-/
import RefPages.Proofs.Markup.Legible

namespace RefPages.Markup

open RefPages.Text

/-! ## Drawn nodes -/

/-- A line that may stand in a block with such a fence. -/
structure Inside (fence line : List Char) : Prop where
  unbroken : '\n' ∉ line
  opened : startsWith fence (trim line) = false

/-- A node that can come from a text, without regard to the nodes under it. -/
def Node.Drawn : Node → Prop
  | .heading level text _ => 0 < level ∧ '\n' ∉ text.toList
  | .item .. => True
  | .code info lines => '\n' ∉ info.toList ∧ ∀ line ∈ lines, Inside codeFence line.toList
  | .note kind text =>
    '\n' ∉ kind.toList ∧ trim kind.toList = kind.toList ∧ startsWith noteFence (trim text.toList) = false
  | .properties lines => ∀ line ∈ lines, Inside propertiesFence line.toList
  | .paragraph text => opener? text.toList = none ∧ lineNode text.toList = .paragraph text

/-! ## Lines of a block -/

/-- Logical lines hold no line feed when the lines do not. -/
theorem unbroken_logicalFrom {lines : List (List Char)} (h : ∀ line ∈ lines, '\n' ∉ line) :
    ∀ line ∈ logicalFrom false [] lines, '\n' ∉ line :=
  forall_logicalFrom (fun as bs ha hb => by simp [ha, hb])
    (fun line hline => ⟨fun hmem => hline (mem_of_mem_trim hmem),
      fun hmem => hline ((isPrefix_trimEnd line).subset hmem)⟩) h (by simp)

/-- Lines that do not begin with a fence give no logical lines that do. -/
theorem opened_logicalFrom (block : OpenBlock) {lines : List (List Char)} (inBlock : Bool)
    (h : ∀ line ∈ lines, block.closes line = false) :
    ∀ line ∈ logicalFrom inBlock [] lines, block.closes line = false :=
  forall_logicalFrom (P := fun line => block.closes line = false)
    (fun _ _ => startsWith_joined block.solid_fence block.space_not_mem_fence)
    (fun line hline => ⟨by rwa [OpenBlock.closes, trim_trim], by rwa [OpenBlock.closes, trim_trimEnd]⟩) h (by simp)

/-- A line of a block keeps what it begins with when it loses its indentation. -/
theorem OpenBlock.inside_of_strip? {block : OpenBlock} (hindent : ∀ c ∈ block.indent, isBlank c = true)
    {line stripped : List Char} (hline : Inside block.fence line) (hstrip : block.strip? line = some stripped) :
    Inside block.fence stripped := by
  unfold strip? at hstrip
  split at hstrip
  · rename_i hempty
    cases hstrip
    rwa [← hempty.1]
  · rw [after?_eq_some_iff.1 hstrip] at hline
    refine ⟨fun hmem => hline.unbroken (List.mem_append_right _ hmem), ?_⟩
    rw [← trim_append hindent]
    exact hline.opened

theorem forall_of_mapM {α β : Type} {P : β → Prop} {f : α → Option β} :
    ∀ {as : List α} {bs : List β}, as.mapM f = some bs → (∀ a ∈ as, ∀ b, f a = some b → P b) → ∀ b ∈ bs, P b
  | [], bs, h, _ => by
    obtain rfl : bs = [] := by simpa using h.symm
    simp
  | a :: as, bs, h, hall => by
    rw [List.mapM_cons] at h
    obtain ⟨b, hb, h⟩ := Option.bind_eq_some_iff.1 h
    obtain ⟨others, hothers, h⟩ := Option.bind_eq_some_iff.1 h
    cases h
    obtain ⟨hfirst, hrest⟩ := List.forall_mem_cons.1 hall
    exact List.forall_mem_cons.2 ⟨hfirst b hb, forall_of_mapM hothers hrest⟩

/-- A block whose lines do not begin with its fence is drawn. -/
theorem OpenBlock.drawn_node {block : OpenBlock} (hinfo : '\n' ∉ block.info)
    (hbody : ∀ line ∈ block.body, Inside block.fence line) : block.node.Drawn := by
  have hlines : ∀ line ∈ block.body.map String.ofList, Inside block.fence line.toList := by
    simpa using hbody
  unfold node
  split
  · rename_i hkind
    rw [fence, hkind] at hlines
    rw [Node.Drawn, String.toList_ofList]
    exact ⟨hinfo, hlines⟩
  · rename_i hkind
    have hopened : ∀ line ∈ block.body.filter (· ≠ []), startsWith noteFence (trim line) = false := fun line hline => by
      have := (hbody line (List.mem_of_mem_filter hline)).opened
      rwa [fence, hkind] at this
    have hjoined := forall_joinParagraph
      (fun _ _ => startsWith_joined (solid_fence ⟨.note, [], [], 0, []⟩) (by decide)) hopened
    rw [Node.Drawn, String.toList_ofList, String.toList_ofList]
    refine ⟨fun hmem => hinfo (mem_of_mem_trim hmem), trim_trim _, ?_⟩
    by_cases hnil : block.body.filter (· ≠ []) = []
    · rw [hnil]
      rfl
    · rw [joinParagraph, if_neg hnil] at hjoined
      simpa using hjoined
  · rename_i hkind
    rw [fence, hkind] at hlines
    exact hlines

/-! ## Drawn entries -/

theorem mem_of_mem_headingText {c : Char} {cs : List Char} (h : c ∈ headingText cs) : c ∈ cs := by
  unfold headingText at h
  split at h
  · exact h
  · split at h
    · exact List.mem_cons_of_mem _ h
    · cases h

theorem drawn_headingEntry {line : List Char} (hsign : line.head? = some '#') (hline : '\n' ∉ line) :
    (headingEntry line).node.Drawn := by
  refine ⟨(length_takeWhile_sign_pos line).2 hsign, ?_⟩
  rw [String.toList_ofList]
  exact fun hmem => hline ((List.dropWhile_sublist _).mem (mem_of_mem_headingText hmem))

theorem eq_of_lineNode {content : List Char} {text : String} (h : lineNode content = .paragraph text) :
    text = String.ofList content := by
  unfold lineNode at h
  repeat' split at h
  all_goals cases h
  rfl

theorem drawn_lineNode {content : List Char} (h : opener? content = none) : (lineNode content).Drawn := by
  cases hnode : lineNode content with
  | paragraph text =>
    have htext := eq_of_lineNode hnode
    rw [Node.Drawn, htext, String.toList_ofList, ← htext]
    exact ⟨h, hnode⟩
  | item => trivial
  | _ =>
    unfold lineNode at hnode
    repeat' split at hnode
    all_goals cases hnode

/-- The entries of lines without line feeds are drawn. -/
theorem drawn_of_items {lines : List (List Char)} {items : List Entry} (h : Items lines items)
    (hlines : ∀ line ∈ lines, '\n' ∉ line) : ∀ e ∈ items, e.node.Drawn := by
  induction h with
  | nil => simp
  | heading hsign _ ih =>
    obtain ⟨hline, hrest⟩ := List.forall_mem_cons.1 hlines
    exact List.forall_mem_cons.2 ⟨drawn_headingEntry hsign hline, ih hrest⟩
  | line _ hopened _ ih =>
    obtain ⟨-, hrest⟩ := List.forall_mem_cons.1 hlines
    exact List.forall_mem_cons.2 ⟨drawn_lineNode (by simpa [openedBy?] using hopened), ih hrest⟩
  | @block opening closing body inner lines block items _ hopened hbody hinner _ _ ih =>
    rw [List.forall_mem_append, List.forall_mem_cons, List.forall_mem_cons] at hlines
    obtain ⟨⟨hopening, hunbroken⟩, -, hrest⟩ := hlines
    refine List.forall_mem_cons.2 ⟨?_, ih hrest⟩
    obtain ⟨⟨kind, info⟩, hopener, rfl⟩ := Option.map_eq_some_iff.1 hopened
    have hcontent := OpenBlock.fence_of_opener? hopener ⟨kind, [], [], 0, []⟩ rfl
    refine OpenBlock.drawn_node (fun hmem => hopening ?_) ?_
    · rw [← indentOf_append_contentOf opening, hcontent]
      exact List.mem_append_right _ (List.mem_append_right _ hmem)
    · rw [OpenBlock.extend, List.nil_append]
      exact forall_of_mapM hinner fun line hline stripped =>
        OpenBlock.inside_of_strip? isBlank_of_mem_indentOf ⟨hunbroken line hline, hbody line hline⟩

/-- The nodes of a parsed text are drawn. -/
theorem drawn_of_logicalLines {text : List Char} {items : List Entry} (h : Items (logicalLines text) items) :
    ∀ e ∈ items, e.node.Drawn :=
  drawn_of_items h (unbroken_logicalFrom (not_mem_splitOn _))

end RefPages.Markup
