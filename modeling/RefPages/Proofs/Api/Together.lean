/-
Documents read together and documents read apart. Whoever reads further documents into drafts that
are there already gets, class by class, the members that were there and then the members that the
further documents alone declare; and this is what merging the two models gives as well.
-/
import Mathlib
import RefPages.Api.Equality
import RefPages.Proofs.Api.Sections

namespace RefPages

/-! ## Members by the name of their class -/

/-- The members of the class of a name; none without such a class. -/
def membersNamed (classes : List ApiClass) (name : String) : List Member :=
  match classes.find? (·.name = name) with
  | some cls => cls.members
  | none => []

/-- The names of the classes in their order, each with the members of the class. -/
def memberLists (classes : List ApiClass) : List (String × List Member) :=
  classes.map fun cls => (cls.name, cls.members)

section

variable {classes classes' : List ApiClass} {cls : ApiClass} {name : String}

theorem membersNamed_cons_self (cls : ApiClass) (classes : List ApiClass) :
    membersNamed (cls :: classes) cls.name = cls.members := by
  simp [membersNamed]

theorem membersNamed_cons_of_ne (h : cls.name ≠ name) :
    membersNamed (cls :: classes) name = membersNamed classes name := by
  simp [membersNamed, h]

theorem membersNamed_of_not_mem (h : name ∉ classes.map (·.name)) : membersNamed classes name = [] := by
  have hnone : classes.find? (·.name = name) = none := by
    rw [List.find?_eq_none]
    intro cls hcls hname
    exact h (List.mem_map.2 ⟨cls, hcls, of_decide_eq_true hname⟩)
  rw [membersNamed, hnone]

theorem membersNamed_append (classes more : List ApiClass) (name : String) :
    membersNamed (classes ++ more) name =
      if name ∈ classes.map (·.name) then membersNamed classes name else membersNamed more name := by
  induction classes with
  | nil => simp
  | cons cls classes ih =>
    by_cases hname : cls.name = name
    · subst hname
      rw [List.cons_append, membersNamed_cons_self, membersNamed_cons_self, if_pos (by simp)]
    · rw [List.cons_append, membersNamed_cons_of_ne hname, membersNamed_cons_of_ne hname, ih]
      simp [Ne.symm hname]

/-- With distinct names, the classes are known from their names and from the members of each. -/
theorem memberLists_eq (hdistinct : (classes.map (·.name)).Nodup) :
    memberLists classes = (classes.map (·.name)).map fun name => (name, membersNamed classes name) := by
  induction classes with
  | nil => rfl
  | cons cls classes ih =>
    rw [List.map_cons, List.nodup_cons] at hdistinct
    have hrest : (classes.map (·.name)).map (fun name => (name, membersNamed (cls :: classes) name)) =
        (classes.map (·.name)).map fun name => (name, membersNamed classes name) := by
      refine List.map_congr_left fun name hname => ?_
      rw [membersNamed_cons_of_ne]
      rintro rfl
      exact hdistinct.1 hname
    rw [List.map_cons, List.map_cons, membersNamed_cons_self, hrest, ← ih hdistinct.2]
    rfl

/-- Changing a class keeps the members of all others. -/
theorem membersNamed_changeFirst {change : ApiClass → Except Fault ApiClass}
    (hkeeps : ∀ cls cls', change cls = .ok cls' → cls'.name = cls.name)
    (h : changeFirst (·.name = name) change classes = .ok classes') {other : String} (hother : other ≠ name) :
    membersNamed classes' other = membersNamed classes other := by
  induction classes generalizing classes' with
  | nil =>
    cases h
    rfl
  | cons cls classes ih =>
    rw [changeFirst] at h
    split at h
    · rename_i hname
      replace hname : cls.name = name := of_decide_eq_true hname
      obtain ⟨changed, hchanged, rfl⟩ := map_eq_ok.1 h
      rw [membersNamed_cons_of_ne (by rw [hkeeps cls changed hchanged, hname]; exact hother.symm),
        membersNamed_cons_of_ne (by rw [hname]; exact hother.symm)]
    · obtain ⟨rest, hrest, rfl⟩ := map_eq_ok.1 h
      by_cases hcls : cls.name = other
      · subst hcls
        rw [membersNamed_cons_self, membersNamed_cons_self]
      · rw [membersNamed_cons_of_ne hcls, membersNamed_cons_of_ne hcls, ih hrest]

/-- A class that there is can be changed when the change succeeds on the members that it has. -/
theorem exists_changeFirst {change : ApiClass → Except Fault ApiClass} (hname : name ∈ classes.map (·.name))
    {members : List Member}
    (hchange : ∀ cls : ApiClass, cls.name = name → cls.members = membersNamed classes name →
      ∃ cls', change cls = .ok cls' ∧ cls'.name = name ∧ cls'.members = members) :
    ∃ classes', changeFirst (·.name = name) change classes = .ok classes' ∧
      membersNamed classes' name = members := by
  induction classes with
  | nil => cases hname
  | cons cls classes ih =>
    by_cases hcls : cls.name = name
    · obtain ⟨changed, hchanged, hkeeps, hmembers⟩ :=
        hchange cls hcls (by rw [← hcls, membersNamed_cons_self])
      refine ⟨changed :: classes, ?_, ?_⟩
      · rw [changeFirst, if_pos (decide_eq_true hcls), hchanged]
        rfl
      · rw [← hkeeps, membersNamed_cons_self, hmembers]
    · have hmem : name ∈ classes.map (·.name) := by
        rw [List.map_cons, List.mem_cons] at hname
        exact hname.resolve_left (Ne.symm hcls)
      obtain ⟨rest, hrest, hmembers⟩ := ih hmem fun other hother hsame =>
        hchange other hother (by rw [hsame, membersNamed_cons_of_ne hcls])
      refine ⟨cls :: rest, ?_, ?_⟩
      · rw [changeFirst, if_neg (by simpa using hcls), hrest]
        rfl
      · rw [membersNamed_cons_of_ne hcls, hmembers]

/-- A class that has been changed was there, and the change was made to its members. -/
theorem exists_of_changeFirst {change : ApiClass → Except Fault ApiClass}
    (hkeeps : ∀ cls cls', change cls = .ok cls' → cls'.name = cls.name) (hname : name ∈ classes.map (·.name))
    (h : changeFirst (·.name = name) change classes = .ok classes') :
    ∃ cls cls', change cls = .ok cls' ∧ cls.name = name ∧ cls.members = membersNamed classes name ∧
      cls'.members = membersNamed classes' name := by
  induction classes generalizing classes' with
  | nil => cases hname
  | cons cls classes ih =>
    rw [changeFirst] at h
    split at h
    · rename_i hcls
      replace hcls : cls.name = name := of_decide_eq_true hcls
      obtain ⟨changed, hchanged, rfl⟩ := map_eq_ok.1 h
      have hsame := (hkeeps cls changed hchanged).trans hcls
      refine ⟨cls, changed, hchanged, hcls, ?_, ?_⟩
      · rw [← hcls, membersNamed_cons_self]
      · rw [← hsame, membersNamed_cons_self]
    · rename_i hcls
      replace hcls : cls.name ≠ name := by simpa using hcls
      obtain ⟨rest, hrest, rfl⟩ := map_eq_ok.1 h
      rw [List.map_cons, List.mem_cons] at hname
      obtain ⟨found, found', hfound⟩ := ih (hname.resolve_left (Ne.symm hcls)) hrest
      rw [membersNamed_cons_of_ne hcls, membersNamed_cons_of_ne hcls]
      exact ⟨found, found', hfound⟩

end

theorem changeLast_append {α : Type} {test : α → Bool} {change : α → Except Fault α} {as bs : List α}
    (h : bs.any test = true) :
    changeLast test change (as ++ bs) = (changeLast test change bs).map (as ++ ·) := by
  rw [changeLast, changeLast, List.reverse_append, changeFirst_append, List.any_reverse, if_pos h]
  cases changeFirst test change bs.reverse with
  | error fault => rfl
  | ok changed => simp [Except.map]

/-! ## Drafts on top of others -/

/-- The drafts `both` are those of `own` read on top of `base`: new classes follow, and in each class
the members follow those that were there. -/
structure Atop (base own both : Drafts) : Prop where
  names : both.map (·.name) =
    base.map (·.name) ++ (own.map (·.name)).filter fun name => name ∉ base.map (·.name)
  members : ∀ name, membersNamed both name = membersNamed base name ++ membersNamed own name

namespace Atop

variable {base own own' both : Drafts}

theorem nil (base : Drafts) : Atop base [] base := ⟨by simp, fun name => by simp [membersNamed]⟩

theorem mem_names (h : Atop base own both) {name : String} :
    name ∈ both.map (·.name) ↔ name ∈ base.map (·.name) ∨ name ∈ own.map (·.name) := by
  rw [h.names, List.mem_append, List.mem_filter, decide_eq_true_eq]
  by_cases hbase : name ∈ base.map (·.name)
  · simp only [hbase, true_or]
  · simp only [hbase, false_or, not_false_eq_true, and_true]

/-- A change to a class that has the same effect behind other members can be made on top. -/
theorem change {name heading : String} {update : ApiClass → Except Fault ApiClass} (h : Atop base own both)
    (hkeeps : ∀ cls cls', update cls = .ok cls' → cls'.name = cls.name)
    (hbehind : ∀ cls cls' : ApiClass, update cls = .ok cls' → ∀ (before : List Member) (whole : ApiClass),
      whole.members = before ++ cls.members →
        ∃ whole', update whole = .ok whole' ∧ whole'.members = before ++ cls'.members)
    (hchange : own.change name heading update = .ok own') :
    ∃ both', both.change name heading update = .ok both' ∧ Atop base own' both' := by
  obtain ⟨hname, hfirst⟩ := Drafts.change_eq_ok hchange
  obtain ⟨cls, cls', hcls, -, hmembers, hmembers'⟩ := exists_of_changeFirst hkeeps hname hfirst
  have hboth : name ∈ both.map (·.name) := h.mem_names.2 (.inr hname)
  obtain ⟨both', hboth', hwhole⟩ := @exists_changeFirst both name update hboth
    (membersNamed base name ++ cls'.members) (fun whole hwhole hsame => by
      rw [h.members, ← hmembers] at hsame
      obtain ⟨whole', hupdate, hmembers⟩ := hbehind cls cls' hcls _ whole hsame
      exact ⟨whole', hupdate, (hkeeps whole whole' hupdate).trans hwhole, hmembers⟩)
  refine ⟨both', ?_, ⟨?_, fun other => ?_⟩⟩
  · have hany : both.any (·.name = name) = true := by
      obtain ⟨whole, hmem, hwhole⟩ := List.mem_map.1 hboth
      exact List.any_eq_true.2 ⟨whole, hmem, decide_eq_true hwhole⟩
    rw [Drafts.change, if_pos hany, hboth']
  · rw [map_changeFirst hkeeps hboth', map_changeFirst hkeeps hfirst, h.names]
  · by_cases hother : other = name
    · subst hother
      rw [hwhole, hmembers']
    · rw [membersNamed_changeFirst hkeeps hboth' hother, membersNamed_changeFirst hkeeps hfirst hother, h.members]

theorem any_name (drafts : Drafts) (name : String) :
    drafts.any (·.name = name) = true ↔ name ∈ drafts.map (·.name) := by
  simp

theorem addClass {doc : ClassDoc} {heading : String} (h : Atop base own both) (hadd : doc.addTo own = .ok own') :
    ∃ both', doc.addTo both = .ok both' ∧ Atop base own' both' := by
  have hchange : ∀ drafts drafts' : Drafts, doc.name ∈ drafts.map (·.name) →
      (doc.addTo drafts = .ok drafts' ↔ drafts.change doc.name heading
        (fun cls => .ok { cls with docs := cls.docs ++ doc.docs }) = .ok drafts') := by
    intro drafts drafts' hmem
    rw [ClassDoc.addTo, Drafts.change, if_pos ((any_name _ _).2 hmem), if_pos ((any_name _ _).2 hmem)]
  by_cases hown : doc.name ∈ own.map (·.name)
  · -- the class has been declared in the same documents: more comment for it
    have hboth : doc.name ∈ both.map (·.name) := h.mem_names.2 (.inr hown)
    obtain ⟨both', hboth', hatop⟩ := h.change (fun cls _ hcls => by cases hcls; rfl)
      (fun cls _ hcls before whole hwhole => by
        cases hcls
        exact ⟨_, rfl, hwhole⟩) ((hchange own own' hown).1 hadd)
    exact ⟨both', (hchange both both' hboth).2 hboth', hatop⟩
  · -- the class is new in these documents, and begins without members
    have hnew : own' = own ++ [doc.toClass] := by
      rw [ClassDoc.addTo, if_neg (mt (any_name _ _).1 hown)] at hadd
      exact (Except.ok.inj hadd).symm
    have hname : doc.toClass.name = doc.name := rfl
    have hempty : ∀ name, membersNamed own' name = membersNamed own name := by
      intro name
      rw [hnew, membersNamed_append]
      split
      · rfl
      · rename_i hmem
        rw [membersNamed_of_not_mem hmem]
        by_cases hdoc : doc.toClass.name = name
        · subst hdoc
          exact membersNamed_cons_self doc.toClass []
        · exact membersNamed_cons_of_ne hdoc
    by_cases hbase : doc.name ∈ base.map (·.name)
    · have hboth : doc.name ∈ both.map (·.name) := h.mem_names.2 (.inl hbase)
      obtain ⟨both', hboth', hmembers⟩ := @exists_changeFirst both doc.name
        (fun cls => .ok { cls with docs := cls.docs ++ doc.docs }) hboth (membersNamed both doc.name)
        (fun whole hwhole hsame => ⟨_, rfl, hwhole, hsame⟩)
      have hkeeps : ∀ cls cls' : ApiClass,
          Except.ok { cls with docs := cls.docs ++ doc.docs } = (.ok cls' : Except Fault ApiClass) →
            cls'.name = cls.name := by
        rintro cls _ ⟨⟩
        rfl
      refine ⟨both', ?_, ⟨?_, fun other => ?_⟩⟩
      · rw [ClassDoc.addTo, if_pos ((any_name _ _).2 hboth), hboth']
      · rw [map_changeFirst hkeeps hboth', h.names, hnew, List.map_append, List.filter_append, List.map_singleton,
          hname, List.filter_singleton]
        simp [hbase]
      · rw [hempty, ← h.members]
        by_cases hother : other = doc.name
        · rw [hother, hmembers]
        · exact membersNamed_changeFirst hkeeps hboth' hother
    · have hboth : doc.name ∉ both.map (·.name) := by
        rw [h.mem_names, not_or]
        exact ⟨hbase, hown⟩
      refine ⟨both ++ [doc.toClass], ?_, ⟨?_, fun other => ?_⟩⟩
      · rw [ClassDoc.addTo, if_neg (mt (any_name _ _).1 hboth)]
      · rw [hnew, List.map_append, List.map_append, List.filter_append, h.names, List.map_singleton, hname,
          List.filter_singleton, List.append_assoc]
        simp [hbase]
      · rw [hempty, membersNamed_append, ← h.members]
        split
        · rfl
        · rename_i hmem
          rw [membersNamed_of_not_mem hmem]
          by_cases hdoc : doc.toClass.name = other
          · subst hdoc
            exact membersNamed_cons_self doc.toClass []
          · exact membersNamed_cons_of_ne hdoc

theorem addMember {doc : MemberDoc} {heading : String} (h : Atop base own both)
    (hadd : doc.addTo heading own = .ok own') :
    ∃ both', doc.addTo heading both = .ok both' ∧ Atop base own' both' := by
  refine h.change (fun cls _ hcls => by cases hcls; rfl) (fun cls _ hcls before whole hwhole => ?_) hadd
  cases hcls
  exact ⟨_, rfl, by rw [hwhole, List.append_assoc]⟩

/-- An argument goes to the last member of its name, which is one of the further documents. -/
theorem addArgument {doc : ArgumentDoc} (h : Atop base own both) (hadd : doc.addTo own = .ok own') :
    ∃ both', doc.addTo both = .ok both' ∧ Atop base own' both' := by
  refine h.change (fun cls cls' hcls => ?_) (fun cls cls' hcls before whole hwhole => ?_) hadd
  · split at hcls
    · obtain ⟨members, -, hcls⟩ := bind_eq_ok.1 hcls
      cases hcls
      rfl
    · cases hcls
  · split at hcls
    · rename_i hany
      obtain ⟨members, hmembers, hcls⟩ := bind_eq_ok.1 hcls
      cases hcls
      have hwholeAny : whole.members.any (·.name = doc.method) = true := by
        rw [hwhole, List.any_append, hany, Bool.or_true]
      refine ⟨{ whole with members := before ++ members }, ?_, rfl⟩
      rw [if_pos hwholeAny, hwhole, changeLast_append hany, hmembers]
      rfl
    · cases hcls

/-- A heading that can be read on its own can be read on top. -/
theorem declare {declaration : Declaration} (h : Atop base own both)
    (hdeclare : own.declare declaration = .ok own') :
    ∃ both', both.declare declaration = .ok both' ∧ Atop base own' both' := by
  unfold Drafts.declare at hdeclare ⊢
  split at hdeclare
  · rw [Drafts.readClass_eq] at hdeclare ⊢
    obtain ⟨doc, hdoc, hadd⟩ := bind_eq_ok.1 hdeclare
    obtain ⟨both', hboth', hatop⟩ := @addClass _ _ _ _ doc declaration.text h hadd
    exact ⟨both', bind_eq_ok.2 ⟨doc, hdoc, hboth'⟩, hatop⟩
  · rw [Drafts.readMember_eq] at hdeclare ⊢
    obtain ⟨doc, hdoc, hadd⟩ := bind_eq_ok.1 hdeclare
    obtain ⟨both', hboth', hatop⟩ := h.addMember hadd
    exact ⟨both', bind_eq_ok.2 ⟨doc, hdoc, hboth'⟩, hatop⟩
  · rw [Drafts.readArgument_eq] at hdeclare ⊢
    obtain ⟨doc, hdoc, hadd⟩ := bind_eq_ok.1 hdeclare
    obtain ⟨both', hboth', hatop⟩ := h.addArgument hadd
    exact ⟨both', bind_eq_ok.2 ⟨doc, hdoc, hboth'⟩, hatop⟩
  · cases hdeclare
    exact ⟨both, rfl, h⟩

/-- Headings that can be read on their own can be read on top. -/
theorem foldlM_declare {declarations : List Declaration} (h : Atop base own both)
    (hread : declarations.foldlM Drafts.declare own = .ok own') :
    ∃ both', declarations.foldlM Drafts.declare both = .ok both' ∧ Atop base own' both' := by
  induction declarations generalizing own both with
  | nil =>
    cases hread
    exact ⟨both, rfl, h⟩
  | cons declaration declarations ih =>
    rw [List.foldlM_cons] at hread
    obtain ⟨next, hnext, hread⟩ := bind_eq_ok.1 hread
    obtain ⟨bothNext, hbothNext, hatop⟩ := h.declare hnext
    obtain ⟨both', hboth', hatop'⟩ := ih hatop hread
    exact ⟨both', by rw [List.foldlM_cons]; exact bind_eq_ok.2 ⟨bothNext, hbothNext, hboth'⟩, hatop'⟩

end Atop

/-! ## Merging -/

/-- What is done to every class by its name is done to the members of each. -/
theorem membersNamed_map {f : ApiClass → ApiClass} {g : String → List Member → List Member}
    (hname : ∀ cls, (f cls).name = cls.name) (hmembers : ∀ cls, (f cls).members = g cls.name cls.members)
    (hnil : ∀ name, g name [] = []) (classes : List ApiClass) (name : String) :
    membersNamed (classes.map f) name = g name (membersNamed classes name) := by
  induction classes with
  | nil => exact (hnil name).symm
  | cons cls classes ih =>
    rw [List.map_cons]
    by_cases hcls : cls.name = name
    · subst hcls
      rw [membersNamed_cons_self, ← hmembers, ← hname cls, membersNamed_cons_self]
    · rw [membersNamed_cons_of_ne hcls, membersNamed_cons_of_ne (by rwa [hname]), ih]

/-- The members of the class of a name, linked to it. -/
def linkedNamed (classes : List ApiClass) (name : String) : List Member :=
  (membersNamed classes name).map (Member.inClass name)

theorem map_inClass_map_inClass (name : String) (members : List Member) :
    (members.map (Member.inClass name)).map (Member.inClass name) = members.map (Member.inClass name) := by
  rw [List.map_map]
  exact List.map_congr_left fun member _ => Member.inClass_inClass name name member

theorem names_joinClass (classes : List ApiClass) (cls : ApiClass) :
    (joinClass classes cls).map (·.name) =
      classes.map (·.name) ++ [cls.name].filter fun name => name ∉ classes.map (·.name) := by
  unfold joinClass
  split
  · rename_i hany
    have hmem : cls.name ∈ classes.map (·.name) := (Atop.any_name classes cls.name).1 hany
    have hkeeps : ∀ other : ApiClass, (if other.name = cls.name then other.join cls else other).name = other.name := by
      intro other
      split <;> rfl
    rw [List.map_map, List.filter_singleton]
    simp [Function.comp_def, hkeeps, hmem]
  · rename_i hany
    have hmem : cls.name ∉ classes.map (·.name) := mt (Atop.any_name classes cls.name).2 hany
    rw [List.map_append, List.filter_singleton]
    simp [hmem]

theorem linkedNamed_joinClass (classes : List ApiClass) (cls : ApiClass) (name : String) :
    linkedNamed (joinClass classes cls) name =
      (membersNamed classes name ++ membersNamed [cls] name).map (Member.inClass name) := by
  unfold linkedNamed joinClass
  split
  · rename_i hany
    have hmem : cls.name ∈ classes.map (·.name) := (Atop.any_name classes cls.name).1 hany
    clear hany
    by_cases hname : cls.name = name
    · subst hname
      rw [membersNamed_cons_self]
      induction classes with
      | nil => cases hmem
      | cons other classes ih =>
        rw [List.map_cons]
        by_cases hother : other.name = cls.name
        · have hjoined : (other.join cls).name = cls.name := hother
          rw [if_pos hother, ← hjoined, membersNamed_cons_self, hjoined, ← hother, membersNamed_cons_self]
          exact map_inClass_map_inClass other.name (other.members ++ cls.members)
        · rw [List.map_cons, List.mem_cons] at hmem
          rw [if_neg hother, membersNamed_cons_of_ne hother, membersNamed_cons_of_ne hother,
            ih (hmem.resolve_left (Ne.symm hother))]
    · have hnone : membersNamed [cls] name = [] := membersNamed_cons_of_ne hname
      rw [hnone, List.append_nil]
      congr 1
      clear hmem
      induction classes with
      | nil => rfl
      | cons other classes ih =>
        rw [List.map_cons]
        by_cases hother : other.name = name
        · subst hother
          rw [if_neg (Ne.symm hname), membersNamed_cons_self, membersNamed_cons_self]
        · rw [membersNamed_cons_of_ne hother, ← ih]
          refine membersNamed_cons_of_ne ?_
          split
          · exact hother
          · exact hother
  · rename_i hany
    have hmem : cls.name ∉ classes.map (·.name) := mt (Atop.any_name classes cls.name).2 hany
    rw [membersNamed_append]
    split
    · rename_i hname
      have hne : cls.name ≠ name := fun heq => hmem (heq ▸ hname)
      have hnone : membersNamed [cls] name = [] := membersNamed_cons_of_ne hne
      rw [hnone, List.append_nil]
    · rename_i hname
      rw [membersNamed_of_not_mem hname, List.nil_append]

/-- Joining classes of distinct names to others puts new ones behind, and members behind members. -/
theorem foldl_joinClass {added : List ApiClass} (hadded : (added.map (·.name)).Nodup) (classes : List ApiClass) :
    (added.foldl joinClass classes).map (·.name) =
        classes.map (·.name) ++ (added.map (·.name)).filter (fun name => name ∉ classes.map (·.name)) ∧
      ∀ name, linkedNamed (added.foldl joinClass classes) name =
        (membersNamed classes name ++ membersNamed added name).map (Member.inClass name) := by
  induction added generalizing classes with
  | nil =>
    refine ⟨by simp, fun name => ?_⟩
    rw [List.foldl_nil, linkedNamed]
    simp [membersNamed]
  | cons cls added ih =>
    rw [List.map_cons, List.nodup_cons] at hadded
    obtain ⟨hnames, hmembers⟩ := ih hadded.2 (joinClass classes cls)
    rw [List.foldl_cons]
    refine ⟨?_, fun name => ?_⟩
    · -- a name that comes later is no name of the class joined here
      have hlater : (added.map (·.name)).filter (fun name => name ∉ (joinClass classes cls).map (·.name)) =
          (added.map (·.name)).filter fun name => name ∉ classes.map (·.name) := by
        refine List.filter_congr fun name hname => ?_
        have hne : name ≠ cls.name := fun heq => hadded.1 (heq ▸ hname)
        rw [names_joinClass]
        simp [hne]
      rw [hnames, hlater, names_joinClass, List.map_cons, List.append_assoc, ← List.filter_append]
      rfl
    · have hcons : membersNamed (cls :: added) name = membersNamed [cls] name ++ membersNamed added name := by
        by_cases hname : cls.name = name
        · subst hname
          rw [membersNamed_cons_self, membersNamed_cons_self, membersNamed_of_not_mem hadded.1, List.append_nil]
        · have hnone : membersNamed [cls] name = [] := membersNamed_cons_of_ne hname
          rw [membersNamed_cons_of_ne hname, hnone, List.nil_append]
      have hjoined := linkedNamed_joinClass classes cls name
      rw [hmembers, List.map_append, hcons, ← List.append_assoc, List.map_append, ← hjoined]
      rfl

/-! ## Reading together and merging -/

namespace Drafts

/-- The members of a class as they are once all documents are read. -/
def finishMembers (name : String) (members : List Member) : List Member :=
  (members.map fun member => { member with args := optionsLast member.args }).map (Member.inClass name)

theorem names_finish (drafts : Drafts) : drafts.finish.classes.map (·.name) = drafts.map (·.name) := by
  rw [finish, List.map_map]
  rfl

theorem finishMembers_nil (name : String) : finishMembers name [] = [] := rfl

theorem membersNamed_finish (drafts : Drafts) (name : String) :
    membersNamed drafts.finish.classes name = finishMembers name (membersNamed drafts name) := by
  unfold finish
  apply membersNamed_map (g := finishMembers)
  · intro cls
    rfl
  · intro cls
    rfl
  · exact finishMembers_nil

theorem finishMembers_append (name : String) (members more : List Member) :
    finishMembers name (members ++ more) = finishMembers name members ++ finishMembers name more := by
  rw [finishMembers, List.map_append, List.map_append]
  rfl

theorem map_inClass_finishMembers (name : String) (members : List Member) :
    (finishMembers name members).map (Member.inClass name) = finishMembers name members :=
  map_inClass_map_inClass name _

end Drafts

/-! ## Merged models -/

theorem names_relink (model : Model) : model.relink.classes.map (·.name) = model.classes.map (·.name) := by
  rw [Model.relink, List.map_map]
  rfl

theorem membersNamed_relink (model : Model) (name : String) :
    membersNamed model.relink.classes name = linkedNamed model.classes name :=
  @membersNamed_map ApiClass.relink (fun name members => members.map (Member.inClass name))
    (fun _ => rfl) (fun _ => rfl) (fun _ => rfl) model.classes name

section

variable {first second : Model}

/-- The classes of a merged model: those of the first, then those that only the second has. -/
theorem names_merge (hfirst : (first.classes.map (·.name)).Nodup) (hsecond : (second.classes.map (·.name)).Nodup) :
    (first.merge second).classes.map (·.name) = first.classes.map (·.name) ++
      (second.classes.map (·.name)).filter fun name => name ∉ first.classes.map (·.name) := by
  have halone : (first.classes.foldl joinClass []).map (·.name) = first.classes.map (·.name) := by
    rw [(foldl_joinClass hfirst []).1]
    simp
  rw [Model.merge, names_relink, List.foldl_append, (foldl_joinClass hsecond _).1, halone]

/-- The members of a merged class: those of the first model, then those of the second. -/
theorem membersNamed_merge (hfirst : (first.classes.map (·.name)).Nodup)
    (hsecond : (second.classes.map (·.name)).Nodup) (name : String) :
    membersNamed (first.merge second).classes name =
      (membersNamed first.classes name ++ membersNamed second.classes name).map (Member.inClass name) := by
  have halone : linkedNamed (first.classes.foldl joinClass []) name =
      (membersNamed first.classes name).map (Member.inClass name) :=
    (foldl_joinClass hfirst []).2 name
  rw [Model.merge, membersNamed_relink, List.foldl_append, (foldl_joinClass hsecond _).2, List.map_append,
    List.map_append, ← halone]
  rfl

end

/-- Drafts read on top of others finish as the two models merged do: the classes have the same names
in the same order, and each has the same members. -/
theorem Atop.memberLists_finish {base own both : Drafts} (h : Atop base own both)
    (hbase : Sound base) (hown : Sound own) :
    memberLists both.finish.classes = memberLists (base.finish.merge own.finish).classes := by
  have hfirst : (base.finish.classes.map (·.name)).Nodup := by
    rw [Drafts.names_finish]
    exact hbase.distinct
  have hsecond : (own.finish.classes.map (·.name)).Nodup := by
    rw [Drafts.names_finish]
    exact hown.distinct
  have hnames : both.finish.classes.map (·.name) = (base.finish.merge own.finish).classes.map (·.name) := by
    rw [names_merge hfirst hsecond, Drafts.names_finish, Drafts.names_finish, Drafts.names_finish, h.names]
  have hmembers : ∀ name, membersNamed both.finish.classes name =
      membersNamed (base.finish.merge own.finish).classes name := by
    intro name
    rw [membersNamed_merge hfirst hsecond, Drafts.membersNamed_finish, Drafts.membersNamed_finish,
      Drafts.membersNamed_finish, ← Drafts.finishMembers_append, Drafts.map_inClass_finishMembers, h.members]
  have hdistinct : (both.finish.classes.map (·.name)).Nodup := by
    rw [Drafts.names_finish, h.names, List.nodup_append']
    refine ⟨hbase.distinct, hown.distinct.filter _, fun name hname hnew => ?_⟩
    exact of_decide_eq_true (List.mem_filter.1 hnew).2 hname
  rw [memberLists_eq hdistinct, memberLists_eq (hnames ▸ hdistinct), hnames]
  exact List.map_congr_left fun name _ => by rw [hmembers]

/-- A document that can be read on its own can be read after another, and both together give what the
two models merged give. -/
theorem Model.merge_ofDocuments {before after : List (List Markup.Node)} {first second : Model}
    (hfirst : Model.ofDocuments before = .ok first) (hsecond : Model.ofDocuments after = .ok second) :
    ∃ model, Model.ofDocuments (before ++ after) = .ok model ∧
      memberLists model.classes = memberLists (first.merge second).classes := by
  obtain ⟨base, hbase, hfirst⟩ := bind_eq_ok.1 hfirst
  obtain ⟨own, hown, hsecond⟩ := bind_eq_ok.1 hsecond
  cases hfirst
  cases hsecond
  have hsoundBase : Sound base := foldlM_preserves (fun _ _ _ => Drafts.sound_feed) sound_nil hbase
  have hsoundOwn : Sound own := foldlM_preserves (fun _ _ _ => Drafts.sound_feed) sound_nil hown
  rw [Drafts.foldlM_feed] at hown
  obtain ⟨both, hboth, hatop⟩ := (Atop.nil base).foldlM_declare hown
  refine ⟨both.finish, ?_, hatop.memberLists_finish hsoundBase hsoundOwn⟩
  have hread : (before ++ after).foldlM Drafts.feed [] = .ok both := by
    rw [List.foldlM_append]
    refine bind_eq_ok.2 ⟨base, hbase, ?_⟩
    rw [Drafts.foldlM_feed]
    exact hboth
  exact bind_eq_ok.2 ⟨both, hread, rfl⟩

/-- Two sources read together: whenever each can be read alone, reading the second after the first
succeeds, and gives the classes and members that merging the two models gives. -/
theorem Model.parse_together {before after : String} {first second : Model}
    (hfirst : Model.parse before = .ok first) (hsecond : Model.parse after = .ok second) :
    ∃ nodes nodes' model, Markup.parse before = .ok nodes ∧ Markup.parse after = .ok nodes' ∧
      Model.ofDocuments [nodes, nodes'] = .ok model ∧
      memberLists model.classes = memberLists (first.merge second).classes := by
  obtain ⟨nodes, hnodes, hfirst⟩ := bind_eq_ok.1 hfirst
  obtain ⟨nodes', hnodes', hsecond⟩ := bind_eq_ok.1 hsecond
  obtain ⟨model, hmodel, hlists⟩ := Model.merge_ofDocuments hfirst hsecond
  exact ⟨nodes, nodes', model, hnodes, hnodes', hmodel, hlists⟩

/-- A class with a method `A.a` that takes these arguments. -/
def Model.ofMethod (args : List Member) : Model :=
  ⟨[ApiClass.ofMembers "A" none [{ Member.ofName .method "a" (some (ApiType.plain "void")) with args }]]⟩

/-- A flag as it is documented for a method. -/
def flagArg : Member :=
  Member.property "x" { ApiType.plain "boolean" with expression := some "[boolean]" } true

theorem Model.parse_flagMethod :
    Model.parse "# class: A\n## method: A.a\n### param: A.a.x\n- `x` <[boolean]>\n" =
      .ok (Model.ofMethod [flagArg]) := by
  refine bind_eq_ok.2 ⟨[.heading 1 "class: A" [.heading 2 "method: A.a" [.heading 3 "param: A.a.x"
    [.item .dash "`x` <[boolean]>" []]]]], ?_, by decide +kernel⟩
  exact (Markup.parse_of_toList String.toList_ofList).trans rfl

/-- A method of one name in both sources: the parameter stays with the method that it is documented for. -/
theorem Model.parse_together_overload :
    let before := "# class: A\n## method: A.a\n"
    let after := "# class: A\n## method: A.a\n### param: A.a.x\n- `x` <[boolean]>\n"
    let merged := (Model.ofMethod []).merge (Model.ofMethod [flagArg])
    Model.parse before = .ok (Model.ofMethod []) ∧ Model.parse after = .ok (Model.ofMethod [flagArg]) ∧
      (memberLists merged.classes).map (fun cls => (cls.1, cls.2.map (·.args.length))) = [("A", [0, 1])] ∧
      ∃ nodes nodes' model, Markup.parse before = .ok nodes ∧ Markup.parse after = .ok nodes' ∧
        Model.ofDocuments [nodes, nodes'] = .ok model ∧
        memberLists model.classes = memberLists merged.classes := by
  have hfirst : Model.parse "# class: A\n## method: A.a\n" = .ok (Model.ofMethod []) := by decide +kernel
  exact ⟨hfirst, Model.parse_flagMethod, by decide +kernel, Model.parse_together hfirst Model.parse_flagMethod⟩

end RefPages
