/-
Tables of positions made from lists: a name stands for its last place, positions lie within the list,
and the positions of a kind are those of all its members, in order.
-/
import RefPages.Api.Indexed
import RefPages.Proofs.Api.Inherit

namespace RefPages

/-! ## Positions by name -/

namespace Positions

/-- Each name of the list stands for its last place, and other names stand for nothing. -/
structure Marks (table : Positions) (names : List String) : Prop where
  found : ∀ {name : String} {position : Nat}, table.find? name = some position →
    names[position]? = some name ∧ ∀ later, position < later → names[later]? ≠ some name
  missing : ∀ {name : String}, table.find? name = none → name ∉ names

variable {table : Positions} {names : List String}

theorem find?_insert (table : Positions) (name other : String) (position : Nat) :
    (table.insert name position).find? other = if other = name then some position else table.find? other := by
  unfold insert find?
  rw [List.lookup_cons]
  by_cases h : other = name
  · simp [h]
  · simp [h, beq_eq_false_iff_ne.2 h]

theorem marks_empty : empty.Marks [] := ⟨nofun, fun _ => List.not_mem_nil⟩

theorem Marks.lt (h : table.Marks names) {name : String} {position : Nat} (hfind : table.find? name = some position) :
    position < names.length := (List.getElem?_eq_some_iff.1 (h.found hfind).1).1

/-- The name that comes last hides its places before. -/
theorem Marks.insert (h : table.Marks names) (name : String) :
    (table.insert name names.length).Marks (names ++ [name]) := by
  have hplaces : ∀ later, names.length < later → (names ++ [name])[later]? = none := fun later hlater =>
    List.getElem?_eq_none (by rw [List.length_append]; exact hlater)
  refine ⟨fun {other position} hfind => ?_, fun {other} hfind => ?_⟩
  · rw [find?_insert] at hfind
    split at hfind
    · rename_i hsame
      cases hfind
      refine ⟨by rw [hsame, List.getElem?_concat_length], fun later hlater => ?_⟩
      rw [hplaces later hlater]
      exact nofun
    · rename_i hother
      refine ⟨by rw [List.getElem?_append_left (h.lt hfind)]; exact (h.found hfind).1, fun later hlater => ?_⟩
      rcases Nat.lt_trichotomy later names.length with hwithin | rfl | hbeyond
      · rw [List.getElem?_append_left hwithin]
        exact (h.found hfind).2 later hlater
      · rw [List.getElem?_concat_length]
        exact fun hsame => hother (Option.some.inj hsame).symm
      · rw [hplaces later hbeyond]
        exact nofun
  · rw [find?_insert] at hfind
    split at hfind
    · cases hfind
    · rename_i hother
      rw [List.mem_append, List.mem_singleton, not_or]
      exact ⟨h.missing hfind, hother⟩

theorem Marks.insertFrom (h : table.Marks names) (more : List String) :
    (table.insertFrom names.length more).Marks (names ++ more) := by
  induction more generalizing table names with
  | nil => rwa [List.append_nil]
  | cons name more ih =>
    have := ih (h.insert name)
    rwa [List.length_append, List.length_singleton, List.append_assoc, List.singleton_append] at this

theorem marks_ofNames (names : List String) : (ofNames names).Marks names := marks_empty.insertFrom names

/-- What a table of positions finds in a list is the last element of the name. -/
theorem Marks.lookup {α : Type} {items : List α} {nameOf : α → String} (h : table.Marks (items.map nameOf))
    (name : String) :
    (table.find? name).bind (items[·]?) = (items.filter fun item => nameOf item = name).getLast? := by
  cases hfind : table.find? name with
  | none =>
    have hnone : items.filter (fun item => nameOf item = name) = [] := by
      rw [List.filter_eq_nil_iff]
      intro item hitem hname
      exact h.missing hfind (List.mem_map.2 ⟨item, hitem, of_decide_eq_true hname⟩)
    rw [hnone]
    rfl
  | some position =>
    obtain ⟨hplace, hlater⟩ := h.found hfind
    rw [List.getElem?_map, Option.map_eq_some_iff] at hplace
    obtain ⟨item, hitem, hname⟩ := hplace
    obtain ⟨hlt, hget⟩ := List.getElem?_eq_some_iff.1 hitem
    have hafter : (items.drop (position + 1)).filter (fun item => nameOf item = name) = [] := by
      rw [List.filter_eq_nil_iff]
      intro other hother hsame
      obtain ⟨distance, hdistance⟩ := List.mem_iff_getElem?.1 hother
      rw [List.getElem?_drop] at hdistance
      refine hlater (position + 1 + distance) (by omega) ?_
      rw [List.getElem?_map, hdistance, Option.map_some, of_decide_eq_true hsame]
    have hsplit : items = items.take position ++ item :: items.drop (position + 1) := by
      rw [← hget, List.cons_getElem_drop_succ, List.take_append_drop]
    have hfilter : items.filter (fun item => nameOf item = name) =
        (items.take position).filter (fun item => nameOf item = name) ++ [item] := by
      conv_lhs => rw [hsplit]
      rw [List.filter_append, List.filter_cons, if_pos (decide_eq_true hname), hafter]
    rw [Option.bind_some, hitem, hfilter, List.getLast?_concat]

end Positions

/-! ## Positions by kind -/

namespace ClassIndex

/-- The index of a list of members. -/
structure Marks (index : ClassIndex) (members : List Member) : Prop where
  names : index.members.Marks (members.map (·.name))
  kinds : ∀ kind, index.positionsOf kind =
    (List.range members.length).filter fun position => members[position]?.any (·.kind = kind)

variable {index : ClassIndex} {members : List Member}

theorem positionsOf_insert (index : ClassIndex) (member : Member) (position : Nat) (kind : MemberKind) :
    (index.insert member position).positionsOf kind =
      index.positionsOf kind ++ if member.kind = kind then [position] else [] := by
  unfold insert
  cases hkind : member.kind <;> cases kind <;> simp [positionsOf]

theorem members_insert (index : ClassIndex) (member : Member) (position : Nat) :
    (index.insert member position).members = index.members.insert member.name position := by
  unfold insert
  cases member.kind <;> rfl

theorem marks_empty : empty.Marks [] := ⟨Positions.marks_empty, fun kind => by cases kind <;> rfl⟩

theorem Marks.insert (h : index.Marks members) (member : Member) :
    (index.insert member members.length).Marks (members ++ [member]) := by
  refine ⟨?_, fun kind => ?_⟩
  · have := h.names.insert member.name
    rwa [List.length_map, ← List.map_singleton, ← List.map_append, ← members_insert] at this
  · have hwithin : (List.range members.length).filter
          (fun position => (members ++ [member])[position]?.any (·.kind = kind)) =
        index.positionsOf kind := by
      rw [h.kinds]
      refine List.filter_congr fun position hposition => ?_
      rw [List.getElem?_append_left (List.mem_range.1 hposition)]
    rw [positionsOf_insert, List.length_append, List.length_singleton, List.range_succ, List.filter_append, hwithin,
      List.filter_singleton, List.getElem?_concat_length]
    simp

theorem Marks.insertFrom (h : index.Marks members) (more : List Member) :
    (index.insertFrom members.length more).Marks (members ++ more) := by
  induction more generalizing index members with
  | nil => rwa [List.append_nil]
  | cons member more ih =>
    have := ih (h.insert member)
    rwa [List.length_append, List.length_singleton, List.append_assoc, List.singleton_append] at this

theorem marks_ofMembers (members : List Member) : (ofMembers members).Marks members := marks_empty.insertFrom members

theorem Marks.lt (h : index.Marks members) {kind : MemberKind} {position : Nat}
    (hposition : position ∈ index.positionsOf kind) : position < members.length := by
  rw [h.kinds] at hposition
  exact List.mem_range.1 (List.mem_filter.1 hposition).1

/-- What the positions of a kind are found at is what is of that kind, in order. -/
theorem Marks.members_of_kind {α : Type} {items : List α} {memberOf : α → Member}
    (h : index.Marks (items.map memberOf)) (kind : MemberKind) :
    (index.positionsOf kind).filterMap (items[·]?) = items.filter fun item => (memberOf item).kind = kind := by
  have hplace : ∀ position,
      (if (items.map memberOf)[position]?.any (fun member : Member => member.kind = kind) then items[position]?
        else none) = (items[position]?).filter fun item => (memberOf item).kind = kind := fun position => by
    rw [List.getElem?_map]
    cases items[position]? with
    | none => rfl
    | some item => by_cases hkind : (memberOf item).kind = kind <;> simp [hkind, Option.filter]
  calc (index.positionsOf kind).filterMap (items[·]?)
      = (List.range items.length).filterMap
          fun position => (items[position]?).filter fun item => (memberOf item).kind = kind := by
        rw [h.kinds, List.filterMap_filter, List.length_map]
        exact List.filterMap_congr fun position _ => hplace position
    _ = items.filter fun item => (memberOf item).kind = kind := by
        rw [← List.filter_filterMap, Model.filterMap_getElem?_range]

end ClassIndex

end RefPages
