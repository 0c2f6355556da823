/-
What holds of every model that documents declare or that is merged from such models: no two
classes have one name, members are linked to their classes, and nothing has been inherited yet.
-/
import RefPages.Api.Merge
import RefPages.Api.Read
import RefPages.Proofs.Api.Linked
import RefPages.Proofs.Fallible

namespace RefPages

/-! ## Lists with one element changed -/

section

variable {α : Type} {test : α → Bool} {change : α → Except Fault α} {R : α → α → Prop}

/-- What relates every element to itself and to what it is changed to relates the lists. -/
theorem changeFirst_related (hrefl : ∀ a, R a a) (hchange : ∀ a b, change a = .ok b → R a b) :
    ∀ {as bs : List α}, changeFirst test change as = .ok bs → List.Forall₂ R as bs
  | [], bs, h => by
    cases h
    exact .nil
  | a :: as, bs, h => by
    rw [changeFirst] at h
    split at h
    · obtain ⟨b, hb, rfl⟩ := map_eq_ok.1 h
      exact .cons (hchange a b hb) (List.forall₂_same.2 fun a _ => hrefl a)
    · obtain ⟨rest, hrest, rfl⟩ := map_eq_ok.1 h
      exact .cons (hrefl a) (changeFirst_related hrefl hchange hrest)

theorem changeLast_related (hrefl : ∀ a, R a a) (hchange : ∀ a b, change a = .ok b → R a b)
    {as bs : List α} (h : changeLast test change as = .ok bs) : List.Forall₂ R as bs := by
  obtain ⟨reversed, hreversed, rfl⟩ := map_eq_ok.1 h
  have := changeFirst_related hrefl hchange hreversed
  rwa [← List.forall₂_reverse_iff, List.reverse_reverse] at this

end

/-! ## Drafts -/

/-- Nothing in the class has been inherited. -/
def ApiClass.Original (cls : ApiClass) : Prop := ∀ member ∈ cls.members, member.inheritedFrom = none

/-- No two of the classes have one name, and nothing in them has been inherited. -/
structure Sound (classes : List ApiClass) : Prop where
  distinct : (classes.map (·.name)).Nodup
  original : ∀ cls ∈ classes, cls.Original

theorem sound_nil : Sound [] := ⟨List.nodup_nil, by simp⟩

/-- A class of the same name in which still nothing has been inherited. -/
def ApiClass.Grows (cls cls' : ApiClass) : Prop := cls'.name = cls.name ∧ (cls.Original → cls'.Original)

theorem ApiClass.Grows.refl (cls : ApiClass) : cls.Grows cls := ⟨rfl, id⟩

theorem names_of_grows {classes classes' : List ApiClass}
    (h : List.Forall₂ ApiClass.Grows classes classes') :
    classes'.map (·.name) = classes.map (·.name) := by
  induction h with
  | nil => rfl
  | cons hcls _ ih => rw [List.map_cons, List.map_cons, hcls.1, ih]

theorem original_of_grows {classes classes' : List ApiClass}
    (h : List.Forall₂ ApiClass.Grows classes classes') (horiginal : ∀ cls ∈ classes, cls.Original) :
    ∀ cls ∈ classes', cls.Original := by
  induction h with
  | nil => simp
  | cons hcls _ ih =>
    rw [List.forall_mem_cons] at horiginal ⊢
    exact ⟨hcls.2 horiginal.1, ih horiginal.2⟩

theorem Sound.grows {classes classes' : List ApiClass} (h : Sound classes)
    (hgrows : List.Forall₂ ApiClass.Grows classes classes') : Sound classes' :=
  ⟨(names_of_grows hgrows).symm ▸ h.distinct, original_of_grows hgrows h.original⟩

theorem Sound.map {classes : List ApiClass} (h : Sound classes) {f : ApiClass → ApiClass}
    (hgrows : ∀ cls : ApiClass, cls.Grows (f cls)) : Sound (classes.map f) :=
  h.grows (List.forall₂_map_right_iff.2 (List.forall₂_same.2 fun cls _ => hgrows cls))

theorem ApiClass.grows_updateMembers (cls : ApiClass) {update : List Member → List Member}
    (h : cls.Original → ∀ member ∈ update cls.members, member.inheritedFrom = none) :
    cls.Grows (cls.updateMembers update) := by
  refine ⟨rfl, fun horiginal member hmember => ?_⟩
  obtain ⟨before, hbefore, rfl⟩ := List.mem_map.1 hmember
  exact h horiginal before hbefore

theorem ApiClass.grows_relink (cls : ApiClass) : cls.Grows cls.relink := by
  have hgrows : cls.Grows (cls.updateMembers id) := cls.grows_updateMembers id
  exact hgrows

theorem Sound.append {classes : List ApiClass} (h : Sound classes) {cls : ApiClass}
    (hnew : ¬ classes.any (·.name = cls.name) = true) (horiginal : cls.Original) :
    Sound (classes ++ [cls]) := by
  have hfresh : cls.name ∉ classes.map (·.name) := by
    intro hmem
    obtain ⟨other, hother, hname⟩ := List.mem_map.1 hmem
    exact hnew (List.any_eq_true.2 ⟨other, hother, decide_eq_true hname⟩)
  constructor
  · rw [List.map_append, List.map_singleton, List.nodup_append]
    refine ⟨h.distinct, List.nodup_singleton _, ?_⟩
    rintro name hname _ hcls rfl
    rw [List.mem_singleton.1 hcls] at hname
    exact hfresh hname
  · intro other hother
    rcases List.mem_append.1 hother with hother | hother
    · exact h.original other hother
    · rwa [List.mem_singleton.1 hother]

/-! ## Reading documents -/

theorem original_of_related {members members' : List Member}
    (h : List.Forall₂ (fun before after => before.inheritedFrom = none → after.inheritedFrom = none)
      members members') (horiginal : ∀ member ∈ members, member.inheritedFrom = none) :
    ∀ member ∈ members', member.inheritedFrom = none := by
  induction h with
  | nil => simp
  | cons hmember _ ih =>
    rw [List.forall_mem_cons] at horiginal ⊢
    exact ⟨hmember horiginal.1, ih horiginal.2⟩

theorem Drafts.sound_change {drafts drafts' : Drafts} {name heading : String}
    {change : ApiClass → Except Fault ApiClass} (hsound : Sound drafts)
    (hchange : ∀ cls cls', change cls = .ok cls' → cls.Grows cls')
    (h : drafts.change name heading change = .ok drafts') : Sound drafts' := by
  unfold Drafts.change at h
  split at h
  · exact hsound.grows (changeFirst_related .refl hchange h)
  · cases h

theorem Drafts.sound_readClass {drafts drafts' : Drafts} {heading : String} {content : List Markup.Node}
    (hsound : Sound drafts) (h : drafts.readClass heading content = .ok drafts') : Sound drafts' := by
  unfold Drafts.readClass at h
  dsimp only at h
  split at h
  · cases h
  · obtain ⟨metadata, -, h⟩ := bind_eq_ok.1 h
    split at h
    · refine hsound.grows (changeFirst_related .refl ?_ h)
      rintro cls _ ⟨⟩
      exact ⟨rfl, id⟩
    · rename_i hnew
      cases h
      exact hsound.append hnew (by simp [ApiClass.Original, ApiClass.ofMembers, ApiClass.relink])

theorem Drafts.sound_readMember {drafts drafts' : Drafts} {heading : String} {content : List Markup.Node}
    (hsound : Sound drafts) (h : drafts.readMember heading content = .ok drafts') : Sound drafts' := by
  unfold Drafts.readMember at h
  split at h
  · split at h
    · split at h
      · obtain ⟨metadata, -, h⟩ := bind_eq_ok.1 h
        dsimp only at h
        obtain ⟨type, -, h⟩ := bind_eq_ok.1 h
        refine Drafts.sound_change hsound ?_ h
        rintro cls _ ⟨⟩
        refine ⟨rfl, fun horiginal member hmember => ?_⟩
        rcases List.mem_append.1 hmember with hmember | hmember
        · exact horiginal member hmember
        · -- bullets and comments say nothing about where a member comes from
          rw [List.mem_singleton.1 hmember]
          rfl
      · cases h
    · cases h
  · cases h

theorem Drafts.sound_readArgument {drafts drafts' : Drafts} {heading : String} {content : List Markup.Node}
    (hsound : Sound drafts) (h : drafts.readArgument heading content = .ok drafts') : Sound drafts' := by
  unfold Drafts.readArgument at h
  split at h
  · split at h
    · split at h
      · obtain ⟨metadata, -, h⟩ := bind_eq_ok.1 h
        dsimp only at h
        split at h
        · obtain ⟨arg, -, h⟩ := bind_eq_ok.1 h
          refine Drafts.sound_change hsound ?_ h
          intro cls cls' hcls
          split at hcls
          · obtain ⟨members, hmembers, hcls⟩ := bind_eq_ok.1 hcls
            cases hcls
            refine ⟨rfl, original_of_related (changeLast_related (fun _ => id) ?_ hmembers)⟩
            intro before after hafter
            split at hafter
            all_goals
              obtain ⟨args, -, hafter⟩ := bind_eq_ok.1 hafter
              cases hafter
              exact id
          · cases hcls
        · cases h
      · cases h
    · cases h
  · cases h

theorem Drafts.sound_declare {drafts drafts' : Drafts} {declaration : Declaration} (hsound : Sound drafts)
    (h : drafts.declare declaration = .ok drafts') : Sound drafts' := by
  unfold Drafts.declare at h
  split at h
  · exact Drafts.sound_readClass hsound h
  · exact Drafts.sound_readMember hsound h
  · exact Drafts.sound_readArgument hsound h
  · cases h
    exact hsound

theorem Drafts.sound_feed {drafts drafts' : Drafts} {nodes : List Markup.Node} (hsound : Sound drafts)
    (h : drafts.feed nodes = .ok drafts') : Sound drafts' :=
  foldlM_preserves (fun _ _ _ => Drafts.sound_declare) hsound h

/-! ## Merging -/

theorem ApiClass.grows_join (first : ApiClass) {second : ApiClass} (hsecond : second.Original) :
    first.Grows (first.join second) := by
  have hgrows : first.Grows (first.updateMembers (· ++ second.members)) := by
    refine first.grows_updateMembers fun hfirst member hmember => ?_
    rcases List.mem_append.1 hmember with hmember | hmember
    · exact hfirst member hmember
    · exact hsecond member hmember
  exact ⟨rfl, hgrows.2⟩

theorem sound_joinClass {classes : List ApiClass} {cls : ApiClass} (hsound : Sound classes)
    (horiginal : cls.Original) : Sound (joinClass classes cls) := by
  unfold joinClass
  split
  · refine hsound.map fun other => ?_
    split
    · exact other.grows_join horiginal
    · exact .refl other
  · rename_i hnew
    exact hsound.append hnew horiginal

theorem sound_foldl_joinClass {added : List ApiClass} (hadded : ∀ cls ∈ added, cls.Original) :
    ∀ {classes : List ApiClass}, Sound classes → Sound (added.foldl joinClass classes) := by
  induction added with
  | nil => exact id
  | cons cls added ih =>
    intro classes hsound
    rw [List.forall_mem_cons] at hadded
    exact ih hadded.2 (sound_joinClass hsound hadded.1)

/-! ## Models -/

namespace Model

/-- The models that come from documents, directly or by merging. -/
inductive Produced : Model → Prop
  | ofDocuments {documents : List (List Markup.Node)} {model : Model}
    (h : Model.ofDocuments documents = .ok model) : Produced model
  | merge {first second : Model} (hfirst : Produced first) (hsecond : Produced second) :
    Produced (first.merge second)

/-- A model whose classes have distinct names, are linked to their members, and have inherited
nothing. -/
structure Fresh (model : Model) : Prop extends Sound model.classes where
  linked : ∀ cls ∈ model.classes, cls.Linked

theorem Fresh.merge {first second : Model} (hfirst : first.Fresh) (hsecond : second.Fresh) :
    (first.merge second).Fresh := by
  have hadded : ∀ cls ∈ first.classes ++ second.classes, cls.Original := by
    intro cls hcls
    rcases List.mem_append.1 hcls with hcls | hcls
    · exact hfirst.original cls hcls
    · exact hsecond.original cls hcls
  have hsound := sound_foldl_joinClass hadded sound_nil
  refine ⟨hsound.map ApiClass.grows_relink, ?_⟩
  intro cls hcls
  obtain ⟨joined, -, rfl⟩ := List.mem_map.1 hcls
  exact ApiClass.linked_relink joined

theorem Produced.fresh {model : Model} (h : model.Produced) : model.Fresh := by
  induction h with
  | ofDocuments h =>
    obtain ⟨drafts, hdrafts, h⟩ := bind_eq_ok.1 h
    cases h
    have hsound : Sound drafts :=
      foldlM_preserves (fun _ _ _ => Drafts.sound_feed) sound_nil hdrafts
    refine ⟨hsound.map fun cls => cls.grows_updateMembers fun horiginal member hmember => ?_, ?_⟩
    · obtain ⟨draft, hdraft, rfl⟩ := List.mem_map.1 hmember
      exact horiginal draft hdraft
    · intro cls hcls
      obtain ⟨draft, -, rfl⟩ := List.mem_map.1 hcls
      exact ApiClass.linked_relink _
  | merge _ _ hfirst hsecond => exact hfirst.merge hsecond

/-- A text that can be read on its own declares such a model. -/
theorem Produced.of_parse {text : String} {model : Model} (h : Model.parse text = .ok model) : model.Produced := by
  obtain ⟨nodes, -, h⟩ := bind_eq_ok.1 h
  exact .ofDocuments h

end Model

end RefPages
