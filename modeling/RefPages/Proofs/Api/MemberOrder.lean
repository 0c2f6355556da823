/-
The order of the members of a class. Each finding looks at one place only: at the first event after something
else, at the member before the constructor, or at two neighbours. Since names are compared by a key, what holds
of neighbours holds of any two members, so that without findings all members stand in order.
-/
import RefPages.Api.Class
import RefPages.Proofs.Name.Order
import Mathlib.Data.List.TakeWhile

namespace RefPages

namespace ApiClass

/-! ## Order -/

/-- The name of the first member does not come after that of the second. -/
def InOrder (first second : Member) : Prop := (Name.compareNames first.name second.name).isLE = true

instance : IsTrans Member InOrder := ⟨fun _ _ _ => Std.TransCmp.isLE_trans⟩

theorem outOfOrder_eq_false {first second : Member} : outOfOrder first second = false ↔ InOrder first second := by
  unfold outOfOrder InOrder
  cases Name.compareNames first.name second.name <;> decide

/-- The members are the events in order and the others, first of them the constructor, if there is one, and
then the rest in order. -/
structure Arranged (members events others : List Member) : Prop where
  whole : members = events ++ others
  allEvents : ∀ member ∈ events, member.isEvent = true
  eventsInOrder : events.Pairwise InOrder
  noEvents : ∀ member ∈ others, member.isEvent = false
  constructorFirst : ∀ member ∈ members, member.isConstructor = true → others.head? = some member
  restInOrder : (others.filter (!·.isConstructor)).Pairwise InOrder

/-! ## Neighbours -/

/-- Nothing is found at neighbours when each is as it should be next to the other. -/
theorem filterMap_neighbours_eq_nil {α β : Type} {f : α × α → Option β} {as : List α} :
    (as.zip as.tail).filterMap f = [] ↔ as.IsChain fun a b => f (a, b) = none := by
  induction as with
  | nil => simp
  | cons a as ih =>
    cases as with
    | nil => simp
    | cons b as =>
      rw [List.tail_cons] at ih
      rw [List.tail_cons, List.zip_cons_cons, List.isChain_cons_cons, ← ih, List.filterMap_cons]
      cases f (a, b) <;> simp

section

variable {cls : ApiClass} {events others : List Member}

theorem eventPair_eq_none {first second : Member} :
    cls.eventPair (first, second) = none ↔ (first.isEvent = true → second.isEvent = true → InOrder first second) := by
  rw [eventPair, ← outOfOrder_eq_false]
  cases first.isEvent <;> cases second.isEvent <;> cases outOfOrder first second <;> simp

theorem memberPair_eq_none {first second : Member} :
    cls.memberPair (first, second) = none ↔
      (first.isEvent = false → second.isEvent = false → first.isConstructor = false → InOrder first second) := by
  rw [memberPair, ← outOfOrder_eq_false]
  cases first.isEvent <;> cases second.isEvent <;> cases first.isConstructor <;> cases outOfOrder first second <;> simp

variable (cls) (hevents : ∀ member ∈ events, member.isEvent = true)
  (hothers : ∀ member ∈ others, member.isEvent = false)

include hevents hothers

/-- A condition on neighbours that holds between an event and another member is one on the events and one on the
others. -/
theorem isChain_append_iff {R : Member → Member → Prop}
    (hR : ∀ first second, first.isEvent = true → second.isEvent = false → R first second) :
    (events ++ others).IsChain R ↔ events.IsChain R ∧ others.IsChain R := by
  rw [List.isChain_append]
  refine and_congr_right fun _ => and_iff_left fun first hfirst second hsecond => ?_
  exact hR first second (hevents first (List.mem_of_getLast? hfirst)) (hothers second (List.mem_of_head? hsecond))

/-- What is found about events is found at neighbours among the events. -/
theorem eventPairs_eq_nil :
    ((events ++ others).zip (events ++ others).tail).filterMap cls.eventPair = [] ↔ events.Pairwise InOrder := by
  simp only [filterMap_neighbours_eq_nil, eventPair_eq_none]
  rw [isChain_append_iff hevents hothers fun first second _ hsecond => by simp [hsecond], and_iff_left,
    ← List.isChain_iff_pairwise]
  · refine List.IsChain.iff_of_mem_imp fun first second hfirst hsecond => ?_
    simp [hevents first hfirst, hevents second hsecond]
  · exact (List.pairwise_of_forall_mem_list fun first hfirst second _ => by simp [hothers first hfirst]).isChain

/-- What is found about other members is found at neighbours among these, the first not being the constructor. -/
theorem memberPairs_eq_nil :
    ((events ++ others).zip (events ++ others).tail).filterMap cls.memberPair = [] ↔
      others.IsChain fun first second => first.isConstructor = false → InOrder first second := by
  simp only [filterMap_neighbours_eq_nil, memberPair_eq_none]
  rw [isChain_append_iff hevents hothers fun first second hfirst _ => by simp [hfirst], and_iff_right]
  · refine List.IsChain.iff_of_mem_imp fun first second hfirst hsecond => ?_
    simp [hothers first hfirst, hothers second hsecond]
  · exact (List.pairwise_of_forall_mem_list fun first hfirst second _ => by simp [hevents first hfirst]).isChain

end

/-! ## Places -/

section

variable {cls : ApiClass} {events others : List Member}

theorem strayEvent_eq_nil :
    cls.strayEvent = [] ↔ ∀ member ∈ cls.members.dropWhile (·.isEvent), member.isEvent = false := by
  unfold strayEvent
  split
  · rename_i stray hstray
    have hevent : stray.isEvent = true := List.find?_some hstray
    simp only [List.cons_ne_nil, false_iff, not_forall]
    exact ⟨stray, List.mem_of_find?_eq_some hstray, by simp [hevent]⟩
  · rename_i hnone
    simpa using hnone

theorem name_of_isConstructor {member : Member} (h : member.isConstructor = true) : member.name = "constructor" := by
  simpa using (Bool.and_eq_true_iff.1 h).2

theorem isEvent_of_isConstructor {member : Member} (h : member.isConstructor = true) : member.isEvent = false := by
  unfold Member.isConstructor Member.isMethod at h
  unfold Member.isEvent
  cases hkind : member.kind <;> simp [hkind] at h ⊢

theorem not_isConstructor_of_isEvent {member : Member} (h : member.isEvent = true) : member.isConstructor = false :=
  Bool.eq_false_of_not_eq_true fun hconstructor => by
    rw [isEvent_of_isConstructor hconstructor] at h
    cases h

/-- Nothing is found about the constructor when no other member than events precedes it. -/
theorem lateConstructor_eq_nil (hwhole : cls.members = events ++ others)
    (hevents : ∀ member ∈ events, member.isEvent = true) (hothers : ∀ member ∈ others, member.isEvent = false) :
    cls.lateConstructor = [] ↔
      (∀ member ∈ others, member.isConstructor = false) ∨ ∃ member ∈ others.head?, member.isConstructor = true := by
  have hfront : cls.members.takeWhile (!·.isConstructor) = events ++ others.takeWhile (!·.isConstructor) := by
    rw [hwhole, List.takeWhile_append_of_pos fun member hmember => by
      simp [not_isConstructor_of_isEvent (hevents member hmember)]]
  have hany : cls.members.any (·.isConstructor) = false ↔ ∀ member ∈ others, member.isConstructor = false := by
    have hplain : ∀ member ∈ events, ¬member.isConstructor = true := fun member hmember => by
      simp [not_isConstructor_of_isEvent (hevents member hmember)]
    simp only [hwhole, List.any_append, Bool.or_eq_false_iff, List.any_eq_false, Bool.not_eq_true]
    exact and_iff_right fun member hmember => by simpa using hplain member hmember
  -- only an event can precede the first of the others
  have hfirst : others.takeWhile (!·.isConstructor) = [] → cls.lateConstructor = [] := fun hnil => by
    rw [lateConstructor, hfront, hnil, List.append_nil]
    split
    · rename_i before hbefore
      simp [hevents before (List.mem_of_getLast? hbefore)]
    · rfl
  cases hothers' : others with
  | nil => exact iff_of_true (hfirst (by rw [hothers']; rfl)) (.inl (List.forall_mem_nil _))
  | cons member rest =>
    cases hmember : member.isConstructor with
    | true =>
      refine iff_of_true (hfirst ?_) (.inr ⟨member, rfl, hmember⟩)
      rw [hothers', List.takeWhile_cons_of_neg (by simp [hmember])]
    | false =>
      -- the last member before the constructor, or the last of all, is no event
      have hmore : others.takeWhile (!·.isConstructor) ≠ [] := by
        rw [hothers', List.takeWhile_cons_of_pos (by simp [hmember])]
        exact List.cons_ne_nil _ _
      obtain ⟨before, hlast, hbefore⟩ : ∃ before, (others.takeWhile (!·.isConstructor)).getLast? = some before ∧
          before.isEvent = false :=
        ⟨_, List.getLast?_eq_some_getLast hmore, hothers _ ((List.takeWhile_prefix _).subset (List.getLast_mem hmore))⟩
      have hhead : ¬∃ first ∈ (member :: rest).head?, first.isConstructor = true := by simp [hmember]
      rw [or_iff_left hhead, ← hothers', ← hany, lateConstructor, hfront, List.getLast?_append_of_ne_nil _ hmore, hlast]
      cases cls.members.any (·.isConstructor) <;> simp [hbefore]

/-- Among others of different names, the constructor comes first and neighbours behind it are in order exactly
when all but the constructor are in order. -/
theorem constructor_first_iff (hnames : (others.map (·.name)).Nodup) :
    ((∀ member ∈ others, member.isConstructor = false) ∨ ∃ member ∈ others.head?, member.isConstructor = true) ∧
        others.IsChain (fun first second => first.isConstructor = false → InOrder first second) ↔
      (∀ member ∈ others, member.isConstructor = true → others.head? = some member) ∧
        (others.filter (!·.isConstructor)).Pairwise InOrder := by
  -- where there is no constructor, neighbours in order are all in order
  have hrest : ∀ {rest : List Member}, (∀ member ∈ rest, member.isConstructor = false) →
      (rest.IsChain (fun first second => first.isConstructor = false → InOrder first second) ↔
        (rest.filter (!·.isConstructor)).Pairwise InOrder) := fun {rest} hplain => by
    have hall : rest.filter (!·.isConstructor) = rest :=
      List.filter_eq_self.2 fun member hmember => by simp [hplain member hmember]
    rw [hall, ← List.isChain_iff_pairwise]
    exact List.IsChain.iff_of_mem_imp fun first second hfirst _ => by simp [hplain first hfirst]
  cases others with
  | nil => simp
  | cons member rest =>
    cases hmember : member.isConstructor with
    | true =>
      rw [List.map_cons, List.nodup_cons] at hnames
      have hplain : ∀ other ∈ rest, other.isConstructor = false := fun other hother =>
        Bool.eq_false_of_not_eq_true fun hconstructor => by
          have hsame := (name_of_isConstructor hconstructor).trans (name_of_isConstructor hmember).symm
          exact hnames.1 (List.mem_map.2 ⟨other, hother, hsame⟩)
      rw [List.filter_cons_of_neg (by simp [hmember]), ← hrest hplain, List.isChain_cons]
      refine and_congr (iff_of_true (.inr ⟨member, rfl, hmember⟩) ?_) (and_iff_right fun _ _ hplainMember => ?_)
      · rw [List.forall_mem_cons]
        exact ⟨fun _ => rfl, fun other hother hconstructor => by simp [hplain other hother] at hconstructor⟩
      · simp [hmember] at hplainMember
    | false =>
      have hnone : ((∀ other ∈ member :: rest, other.isConstructor = false) ∨
            ∃ other ∈ (member :: rest).head?, other.isConstructor = true) ↔
          ∀ other ∈ member :: rest, other.isConstructor = false := or_iff_left (by simp [hmember])
      have hfirst : (∀ other ∈ member :: rest, other.isConstructor = true → (member :: rest).head? = some other) ↔
          ∀ other ∈ member :: rest, other.isConstructor = false := by
        refine forall₂_congr fun other _ => ⟨fun h => ?_, fun h => by simp [h]⟩
        refine Bool.eq_false_of_not_eq_true fun hconstructor => ?_
        cases h hconstructor
        rw [hmember] at hconstructor
        cases hconstructor
      rw [hnone, hfirst]
      exact and_congr_right hrest

end

/-! ## All findings -/

section

variable {cls : ApiClass} {events others : List Member}

/-- What is found when the events come before all else. -/
theorem orderFindings_eq_nil_iff_arranged (hnames : (cls.members.map (·.name)).Nodup)
    (hwhole : cls.members = events ++ others) (hevents : ∀ member ∈ events, member.isEvent = true)
    (hothers : ∀ member ∈ others, member.isEvent = false) :
    cls.orderFindings = [] ↔ Arranged cls.members events others := by
  have hstray : cls.strayEvent = [] := by
    rw [strayEvent_eq_nil, hwhole, List.dropWhile_append_of_pos hevents]
    exact fun member hmember => hothers member ((List.dropWhile_suffix _).subset hmember)
  have hnames' : (others.map (·.name)).Nodup := by
    rw [hwhole, List.map_append] at hnames
    exact hnames.of_append_right
  have hconstructor : (∀ member ∈ cls.members, member.isConstructor = true → others.head? = some member) ↔
      ∀ member ∈ others, member.isConstructor = true → others.head? = some member := by
    rw [hwhole, List.forall_mem_append]
    exact and_iff_right fun member hmember h => by simp [not_isConstructor_of_isEvent (hevents member hmember)] at h
  have hall := constructor_first_iff hnames'
  rw [← lateConstructor_eq_nil hwhole hevents hothers, ← memberPairs_eq_nil cls hevents hothers, ← hconstructor] at hall
  have hpairs := eventPairs_eq_nil cls hevents hothers
  rw [← hwhole] at hall hpairs
  constructor
  · intro h
    simp only [orderFindings, List.append_eq_nil_iff] at h
    obtain ⟨⟨⟨-, hlate⟩, heventPairs⟩, hmemberPairs⟩ := h
    obtain ⟨hfirst, hrest⟩ := hall.1 ⟨hlate, hmemberPairs⟩
    exact ⟨hwhole, hevents, hpairs.1 heventPairs, hothers, hfirst, hrest⟩
  · intro h
    obtain ⟨hlate, hmemberPairs⟩ := hall.2 ⟨h.constructorFirst, h.restInOrder⟩
    simp only [orderFindings, List.append_eq_nil_iff]
    exact ⟨⟨⟨hstray, hlate⟩, hpairs.2 h.eventsInOrder⟩, hmemberPairs⟩

end

/-- Nothing is found about the order of members with different names exactly when they are the events in order,
the constructor if there is one, and all else in order. -/
theorem orderFindings_eq_nil_iff {cls : ApiClass} (hnames : (cls.members.map (·.name)).Nodup) :
    cls.orderFindings = [] ↔ ∃ events others, Arranged cls.members events others := by
  constructor
  · intro h
    have hstray : cls.strayEvent = [] := by
      simp only [orderFindings, List.append_eq_nil_iff] at h
      exact h.1.1.1
    have hwhole := (List.takeWhile_append_dropWhile (p := Member.isEvent) (l := cls.members)).symm
    exact ⟨_, _, (orderFindings_eq_nil_iff_arranged hnames hwhole (fun member => List.mem_takeWhile_imp)
      (strayEvent_eq_nil.1 hstray)).1 h⟩
  · rintro ⟨events, others, h⟩
    exact (orderFindings_eq_nil_iff_arranged hnames h.whole h.allEvents h.noEvents).2 h

/-- A class with members of these kinds and names. -/
def ofKinds (members : List (MemberKind × String)) : ApiClass :=
  ofMembers "Frame" none (members.map fun (kind, name) => .ofName kind name none)

/-- Events, the constructor, two names that only differ in dollar signs, and names with capitals and accents. -/
def orderedClass : ApiClass :=
  ofKinds [(.event, "close"), (.event, "Console"), (.method, "constructor"), (.method, "$eval"), (.method, "$$eval"),
    (.method, "click"), (.property, "Élan"), (.method, "evaluate")]

/-- The same members with the constructor after another method. -/
def disorderedClass : ApiClass :=
  ofKinds [(.event, "close"), (.event, "Console"), (.method, "$eval"), (.method, "constructor"), (.method, "$$eval"),
    (.method, "click"), (.property, "Élan"), (.method, "evaluate")]

/-- In one class nothing is found, since its members are arranged, and in the other the constructor is found. -/
theorem orderFindings_eq_nil_iff_constructor :
    (orderedClass.members.map (·.name)).Nodup ∧ orderedClass.orderFindings = [] ∧
      (∃ events others, Arranged orderedClass.members events others) ∧
      (disorderedClass.members.map (·.name)).Nodup ∧
      disorderedClass.orderFindings =
        [.error "Frame.constructor" "Constructor of Frame should go before other methods"] ∧
      ¬∃ events others, Arranged disorderedClass.members events others := by
  have hordered : (orderedClass.members.map (·.name)).Nodup := by decide
  have hnone : orderedClass.orderFindings = [] := by decide +kernel
  have hdisordered : (disorderedClass.members.map (·.name)).Nodup := by decide
  have hlate : disorderedClass.orderFindings =
      [.error "Frame.constructor" "Constructor of Frame should go before other methods"] := by decide +kernel
  refine ⟨hordered, hnone, (orderFindings_eq_nil_iff hordered).1 hnone, hdisordered, hlate, fun harranged => ?_⟩
  rw [(orderFindings_eq_nil_iff hdisordered).2 harranged] at hlate
  cases hlate

end ApiClass

end RefPages
