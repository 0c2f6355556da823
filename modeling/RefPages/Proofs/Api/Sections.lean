/-
The members of a class, read off its documents: each heading of the second level begins a section,
and each heading of the third level belongs to the last section of its method before it. Reading
keeps to the sections one heading after another, so that a member of the model is what its section
says, whatever stands between the headings.
-/
import RefPages.Proofs.Api.Declared
import RefPages.Proofs.Api.Produced

namespace RefPages

/-! ## Sections of a class -/

/-- A member as its heading declares it, with the arguments and options documented for it. -/
structure MemberSection where
  member : Member
  docs : List ArgumentDoc

theorem Member.with_own_args {member : Member} {args : List Member} (h : member.args = args) :
    { member with args } = member := by
  cases member
  cases h
  rfl

namespace MemberSection

/-- The sections with an argument in the last section of its method. -/
def addArgument (doc : ArgumentDoc) : List MemberSection → List MemberSection
  | [] => []
  | first :: sections =>
    if sections.any (·.member.name = doc.method) then first :: addArgument doc sections
    else if first.member.name = doc.method then
      { first with docs := first.docs ++ [doc] } :: sections
    else first :: sections

/-- The sections of a class with what one more declaration says. -/
def feed (className : String) (sections : List MemberSection) (declaration : Declaration) :
    List MemberSection :=
  match declaration.level with
  | 2 =>
    match MemberDoc.read declaration.text declaration.content with
    | .ok doc => if doc.className = className then sections ++ [⟨doc.member, []⟩] else sections
    | .error _ => sections
  | 3 =>
    match ArgumentDoc.read declaration.text declaration.content with
    | .ok doc => if doc.className = className then addArgument doc sections else sections
    | .error _ => sections
  | _ => sections

/-- The sections of a class in the order of their headings. -/
def ofClass (className : String) (declarations : List Declaration) : List MemberSection :=
  declarations.foldl (feed className) []

/-- The member is as the section says: it has the arguments documented there. -/
def Gives (part : MemberSection) (member : Member) : Prop :=
  ∃ args, part.docs.foldlM (fun args doc => doc.addToArgs args) [] = .ok args ∧
    member = { part.member with args }

theorem Gives.name_eq {part : MemberSection} {member : Member} (h : part.Gives member) :
    member.name = part.member.name := by
  obtain ⟨args, -, rfl⟩ := h
  rfl

theorem ofClass_append (className : String) (read : List Declaration) (declaration : Declaration) :
    ofClass className (read ++ [declaration]) = feed className (ofClass className read) declaration := by
  simp [ofClass]

theorem mem_addArgument {new doc : ArgumentDoc} {sections : List MemberSection} {part : MemberSection}
    (hpart : part ∈ addArgument new sections) (hdoc : doc ∈ part.docs) :
    doc = new ∨ ∃ before ∈ sections, doc ∈ before.docs := by
  induction sections with
  | nil => cases hpart
  | cons first sections ih =>
    have hrest : part ∈ sections → doc = new ∨ ∃ before ∈ first :: sections, doc ∈ before.docs :=
      fun hmem => .inr ⟨part, List.mem_cons_of_mem _ hmem, hdoc⟩
    rw [addArgument] at hpart
    split at hpart
    · rcases List.mem_cons.1 hpart with rfl | hpart
      · exact .inr ⟨part, List.mem_cons_self, hdoc⟩
      · rcases ih hpart with rfl | ⟨before, hmem, hdoc⟩
        · exact .inl rfl
        · exact .inr ⟨before, List.mem_cons_of_mem _ hmem, hdoc⟩
    · split at hpart
      · rcases List.mem_cons.1 hpart with rfl | hpart
        · rcases List.mem_append.1 hdoc with hdoc | hdoc
          · exact .inr ⟨first, List.mem_cons_self, hdoc⟩
          · exact .inl (List.mem_singleton.1 hdoc)
        · exact hrest hpart
      · rcases List.mem_cons.1 hpart with rfl | hpart
        · exact .inr ⟨part, List.mem_cons_self, hdoc⟩
        · exact hrest hpart

theorem member_of_mem_addArgument {doc : ArgumentDoc} {sections : List MemberSection} {part : MemberSection}
    (hpart : part ∈ addArgument doc sections) : ∃ before ∈ sections, part.member = before.member := by
  induction sections with
  | nil => cases hpart
  | cons first sections ih =>
    rw [addArgument] at hpart
    split at hpart
    · rcases List.mem_cons.1 hpart with rfl | hpart
      · exact ⟨part, List.mem_cons_self, rfl⟩
      · obtain ⟨before, hbefore, hmember⟩ := ih hpart
        exact ⟨before, List.mem_cons_of_mem _ hbefore, hmember⟩
    · split at hpart
      · rcases List.mem_cons.1 hpart with rfl | hpart
        · exact ⟨first, List.mem_cons_self, rfl⟩
        · exact ⟨part, List.mem_cons_of_mem _ hpart, rfl⟩
      · exact ⟨part, hpart, rfl⟩

/-- What a section says of its member is what a heading says. -/
theorem read_of_mem {className : String} {declarations : List Declaration} {part : MemberSection}
    (hpart : part ∈ ofClass className declarations) :
    ∃ heading content doc, MemberDoc.read heading content = .ok doc ∧ part.member = doc.member := by
  induction declarations using List.reverseRecOn generalizing part with
  | nil => cases hpart
  | append_singleton read declaration ih =>
    rw [ofClass_append, feed] at hpart
    split at hpart
    · split at hpart
      · rename_i doc hdoc
        split at hpart
        · rcases List.mem_append.1 hpart with hpart | hpart
          · exact ih hpart
          · rw [List.mem_singleton.1 hpart]
            exact ⟨_, _, doc, hdoc, rfl⟩
        · exact ih hpart
      · exact ih hpart
    · split at hpart
      · split at hpart
        · obtain ⟨before, hbefore, hmember⟩ := member_of_mem_addArgument hpart
          rw [hmember]
          exact ih hbefore
        · exact ih hpart
      · exact ih hpart
    · exact ih hpart

/-- What a section says of arguments is what headings say. -/
theorem read_of_mem_docs {className : String} {declarations : List Declaration}
    {part : MemberSection} (hpart : part ∈ ofClass className declarations) {doc : ArgumentDoc}
    (hdoc : doc ∈ part.docs) :
    ∃ declaration ∈ declarations, ArgumentDoc.read declaration.text declaration.content = .ok doc := by
  induction declarations using List.reverseRecOn generalizing part with
  | nil => cases hpart
  | append_singleton read declaration ih =>
    have hbefore : ∀ before ∈ ofClass className read, doc ∈ before.docs →
        ∃ declaration' ∈ read ++ [declaration],
          ArgumentDoc.read declaration'.text declaration'.content = .ok doc := by
      intro before hmem hdoc
      obtain ⟨declaration', hdeclaration, hread⟩ := ih hmem hdoc
      exact ⟨declaration', List.mem_append_left _ hdeclaration, hread⟩
    rw [ofClass_append, feed] at hpart
    split at hpart
    · split at hpart
      · split at hpart
        · rcases List.mem_append.1 hpart with hpart | hpart
          · exact hbefore part hpart hdoc
          · rw [List.mem_singleton.1 hpart] at hdoc
            cases hdoc
        · exact hbefore part hpart hdoc
      · exact hbefore part hpart hdoc
    · split at hpart
      · rename_i new hnew
        split at hpart
        · rcases mem_addArgument hpart hdoc with rfl | ⟨before, hmem, hdoc⟩
          · exact ⟨declaration, List.mem_append_right _ List.mem_cons_self, hnew⟩
          · exact hbefore before hmem hdoc
        · exact hbefore part hpart hdoc
      · exact hbefore part hpart hdoc
    · exact hbefore part hpart hdoc

end MemberSection

/-! ## Changing one element -/

section

variable {α : Type} {test : α → Bool} {change : α → Except Fault α}

theorem changeFirst_append (as bs : List α) :
    changeFirst test change (as ++ bs) =
      if as.any test then (changeFirst test change as).map (· ++ bs)
      else (changeFirst test change bs).map (as ++ ·) := by
  induction as with
  | nil => cases h : changeFirst test change bs <;> simp [h, Except.map]
  | cons a as ih =>
    rw [List.cons_append, changeFirst, changeFirst]
    by_cases ha : test a = true
    · rw [if_pos ha, if_pos ha]
      cases h : change a <;> simp [ha, Except.map]
    · rw [if_neg ha, if_neg ha, ih, List.any_cons, Bool.eq_false_of_not_eq_true ha, Bool.false_or]
      split
      · cases h : changeFirst test change as <;> simp [Except.map]
      · cases h : changeFirst test change bs <;> simp [Except.map]

theorem changeLast_cons (a : α) (as : List α) :
    changeLast test change (a :: as) =
      if as.any test then (changeLast test change as).map (a :: ·)
      else if test a then (change a).map (· :: as)
      else .ok (a :: as) := by
  rw [changeLast, changeLast, List.reverse_cons, changeFirst_append, List.any_reverse]
  split
  · cases h : changeFirst test change as.reverse <;> simp [Except.map]
  · rw [changeFirst]
    split
    · cases h : change a <;> simp [Except.map]
    · simp [changeFirst, Except.map]

/-- With distinct keys, changing the element of a key changes it and leaves all others. -/
theorem mem_changeFirst {key : α → String} {wanted : String} {as bs : List α}
    (hdistinct : (as.map key).Nodup)
    (h : changeFirst (fun a => decide (key a = wanted)) change as = .ok bs) {b : α} (hb : b ∈ bs) :
    b ∈ as ∧ key b ≠ wanted ∨ ∃ a ∈ as, key a = wanted ∧ change a = .ok b := by
  induction as generalizing bs with
  | nil =>
    cases h
    cases hb
  | cons a as ih =>
    rw [List.map_cons, List.nodup_cons] at hdistinct
    rw [changeFirst] at h
    split at h
    · rename_i hkey
      replace hkey : key a = wanted := of_decide_eq_true hkey
      obtain ⟨changed, hchanged, rfl⟩ := map_eq_ok.1 h
      rcases List.mem_cons.1 hb with rfl | hb
      · exact .inr ⟨a, List.mem_cons_self, hkey, hchanged⟩
      · refine .inl ⟨List.mem_cons_of_mem _ hb, ?_⟩
        rintro rfl
        exact hdistinct.1 (hkey ▸ List.mem_map_of_mem hb)
    · rename_i hkey
      replace hkey : key a ≠ wanted := by simpa using hkey
      obtain ⟨rest, hrest, rfl⟩ := map_eq_ok.1 h
      rcases List.mem_cons.1 hb with rfl | hb
      · exact .inl ⟨List.mem_cons_self, hkey⟩
      · rcases ih hdistinct.2 hrest hb with ⟨hmem, hne⟩ | ⟨before, hmem, hbefore⟩
        · exact .inl ⟨List.mem_cons_of_mem _ hmem, hne⟩
        · exact .inr ⟨before, List.mem_cons_of_mem _ hmem, hbefore⟩

/-- A change that keeps the key of an element keeps all keys. -/
theorem map_changeFirst {key : α → String} {as bs : List α}
    (hkey : ∀ a b, change a = .ok b → key b = key a) (h : changeFirst test change as = .ok bs) :
    bs.map key = as.map key := by
  have hrelated : List.Forall₂ (fun a b => key b = key a) as bs :=
    changeFirst_related (R := fun a b => key b = key a) (fun _ => rfl) hkey h
  clear h
  induction hrelated with
  | nil => rfl
  | cons hhead _ ih => rw [List.map_cons, List.map_cons, hhead, ih]

/-- A change that succeeds is a change of a class that there is. -/
theorem Drafts.change_eq_ok {drafts drafts' : Drafts} {name heading : String}
    {change : ApiClass → Except Fault ApiClass} (h : drafts.change name heading change = .ok drafts') :
    name ∈ drafts.map (·.name) ∧ changeFirst (fun cls => decide (cls.name = name)) change drafts = .ok drafts' := by
  unfold Drafts.change at h
  split at h
  · rename_i hany
    obtain ⟨cls, hcls, hname⟩ := List.any_eq_true.1 hany
    exact ⟨List.mem_map.2 ⟨cls, hcls, of_decide_eq_true hname⟩, h⟩
  · cases h

end

/-! ## Reading keeps to the sections -/

/-- The drafts are what the sections of their classes say. -/
structure Follows (read : List Declaration) (drafts : Drafts) : Prop extends Sound drafts where
  given : ∀ cls ∈ drafts,
    List.Forall₂ MemberSection.Gives (MemberSection.ofClass cls.name read) cls.members
  absent : ∀ name ∉ drafts.map (·.name), MemberSection.ofClass name read = []

namespace Follows

open MemberSection

variable {read : List Declaration} {drafts drafts' : Drafts} {declaration : Declaration}

/-- The argument goes to the member whose section it is added to. -/
theorem given_addArgument {doc : ArgumentDoc} {sections : List MemberSection}
    {members members' : List Member} (h : List.Forall₂ Gives sections members)
    (hchange : changeLast (·.name = doc.method) doc.addToMethod members = .ok members') :
    List.Forall₂ Gives (addArgument doc sections) members' := by
  have hany : ∀ {sections : List MemberSection} {members : List Member}, List.Forall₂ Gives sections members →
      members.any (·.name = doc.method) = sections.any (·.member.name = doc.method) := by
    intro sections members h
    induction h with
    | nil => rfl
    | cons hhead _ ih => rw [List.any_cons, List.any_cons, ih, hhead.name_eq]
  induction h generalizing members' with
  | nil =>
    cases hchange
    exact .nil
  | @cons part member sections members hhead htail ih =>
    rw [changeLast_cons, hany htail, hhead.name_eq] at hchange
    rw [addArgument]
    split at hchange
    · rename_i hlater
      rw [if_pos hlater]
      obtain ⟨rest, hrest, rfl⟩ := map_eq_ok.1 hchange
      exact .cons hhead (ih hrest)
    · rename_i hlater
      rw [if_neg hlater]
      split at hchange
      · rename_i hname
        rw [if_pos (by simpa using hname)]
        obtain ⟨changed, hchanged, rfl⟩ := map_eq_ok.1 hchange
        obtain ⟨args, hargs, rfl⟩ := hhead
        obtain ⟨args', hargs', hchanged⟩ := bind_eq_ok.1 hchanged
        cases hchanged
        refine .cons ⟨args', ?_, rfl⟩ htail
        rw [List.foldlM_append, hargs]
        exact bind_eq_ok.2 ⟨args, rfl, bind_eq_ok.2 ⟨args', hargs', rfl⟩⟩
      · rename_i hname
        rw [if_neg (by simpa using hname)]
        cases hchange
        exact .cons hhead htail

/-- A heading that changes one class keeps the drafts to the sections, when it changes the sections
of this class in the same way and no others. -/
theorem change {name heading : String} {update : ApiClass → Except Fault ApiClass}
    (h : Follows read drafts) (hsound : Sound drafts')
    (hfeed : ∀ other ≠ name, feed other (ofClass other read) declaration = ofClass other read)
    (hupdate : ∀ cls cls', update cls = .ok cls' → cls'.name = cls.name)
    (hgiven : ∀ cls cls', cls.name = name → update cls = .ok cls' →
      List.Forall₂ Gives (ofClass name read) cls.members →
      List.Forall₂ Gives (feed name (ofClass name read) declaration) cls'.members)
    (hchange : drafts.change name heading update = .ok drafts') :
    Follows (read ++ [declaration]) drafts' := by
  obtain ⟨hmem, hfirst⟩ := Drafts.change_eq_ok hchange
  have hnames := map_changeFirst hupdate hfirst
  refine ⟨hsound, fun cls hcls => ?_, fun other hother => ?_⟩
  · rw [ofClass_append]
    rcases mem_changeFirst h.distinct hfirst hcls with ⟨hbefore, hne⟩ | ⟨before, hbefore, hname, hupdated⟩
    · rw [hfeed _ hne]
      exact h.given cls hbefore
    · have hsame := hupdate before cls hupdated
      rw [hsame, hname]
      exact hgiven before cls hname hupdated (hname ▸ h.given before hbefore)
  · rw [hnames] at hother
    rw [ofClass_append, hfeed other (fun heq => hother (heq ▸ hmem)), h.absent other hother]

theorem readClass (h : Follows read drafts) (hlevel : declaration.level = 1)
    (hread : drafts.readClass declaration.text declaration.content = .ok drafts') :
    Follows (read ++ [declaration]) drafts' := by
  have hsound := Drafts.sound_readClass h.toSound hread
  have hfeed : ∀ name sections, feed name sections declaration = sections := fun name sections => by
    simp only [feed, hlevel]
  rw [Drafts.readClass_eq] at hread
  obtain ⟨doc, -, hread⟩ := bind_eq_ok.1 hread
  unfold ClassDoc.addTo at hread
  split at hread
  · rename_i hany
    have hchange : drafts.change doc.name declaration.text
        (fun cls => .ok { cls with docs := cls.docs ++ doc.docs }) = .ok drafts' := by
      rw [Drafts.change, if_pos hany, hread]
    refine h.change hsound (fun other _ => hfeed other _) ?_ ?_ hchange
    · rintro cls _ ⟨⟩
      rfl
    · rintro cls _ - ⟨⟩ hgiven
      rwa [hfeed]
  · rename_i hnew
    cases hread
    have hfresh : doc.name ∉ drafts.map (·.name) := by simpa using hnew
    refine ⟨hsound, fun cls hcls => ?_, fun other hother => ?_⟩
    · rw [ofClass_append, hfeed]
      rcases List.mem_append.1 hcls with hcls | hcls
      · exact h.given cls hcls
      · rw [List.mem_singleton.1 hcls]
        have hname : doc.toClass.name = doc.name := rfl
        rw [hname, h.absent _ hfresh]
        exact .nil
    · rw [ofClass_append, hfeed]
      rw [List.map_append, List.mem_append, not_or] at hother
      exact h.absent other hother.1

theorem readMember (h : Follows read drafts) (hlevel : declaration.level = 2)
    (hread : drafts.readMember declaration.text declaration.content = .ok drafts') :
    Follows (read ++ [declaration]) drafts' := by
  have hsound := Drafts.sound_readMember h.toSound hread
  rw [Drafts.readMember_eq] at hread
  obtain ⟨doc, hdoc, hread⟩ := bind_eq_ok.1 hread
  have hfeed : ∀ name sections, feed name sections declaration =
      if doc.className = name then sections ++ [⟨doc.member, []⟩] else sections := fun name sections => by
    simp only [feed, hlevel, hdoc]
  refine h.change hsound (fun other hother => ?_) ?_ ?_ hread
  · rw [hfeed, if_neg hother.symm]
  · rintro cls _ ⟨⟩
    rfl
  · rintro cls _ - ⟨⟩ hgiven
    rw [hfeed, if_pos rfl]
    refine List.rel_append hgiven (.cons ⟨[], rfl, ?_⟩ .nil)
    exact (Member.with_own_args (MemberDoc.args_eq_nil hdoc)).symm

theorem readArgument (h : Follows read drafts) (hlevel : declaration.level = 3)
    (hread : drafts.readArgument declaration.text declaration.content = .ok drafts') :
    Follows (read ++ [declaration]) drafts' := by
  have hsound := Drafts.sound_readArgument h.toSound hread
  rw [Drafts.readArgument_eq] at hread
  obtain ⟨doc, hdoc, hread⟩ := bind_eq_ok.1 hread
  have hfeed : ∀ name sections, feed name sections declaration =
      if doc.className = name then addArgument doc sections else sections := fun name sections => by
    simp only [feed, hlevel, hdoc]
  refine h.change hsound (fun other hother => ?_) ?_ ?_ hread
  · rw [hfeed, if_neg hother.symm]
  · intro cls cls' hcls
    split at hcls
    · obtain ⟨members, -, hcls⟩ := bind_eq_ok.1 hcls
      cases hcls
      rfl
    · cases hcls
  · intro cls cls' _ hcls hgiven
    rw [hfeed, if_pos rfl]
    split at hcls
    · obtain ⟨members, hmembers, hcls⟩ := bind_eq_ok.1 hcls
      cases hcls
      exact given_addArgument hgiven hmembers
    · cases hcls

/-- Reading one more heading keeps to the sections. -/
theorem declare (h : Follows read drafts) (hdeclare : drafts.declare declaration = .ok drafts') :
    Follows (read ++ [declaration]) drafts' := by
  unfold Drafts.declare at hdeclare
  split at hdeclare
  · exact h.readClass ‹_› hdeclare
  · exact h.readMember ‹_› hdeclare
  · exact h.readArgument ‹_› hdeclare
  · rename_i hclass hmember hargument
    cases hdeclare
    have hfeed : ∀ name sections, feed name sections declaration = sections := fun name sections => by
      unfold feed
      split
      · contradiction
      · contradiction
      · rfl
    refine ⟨h.toSound, fun cls hcls => ?_, fun other hother => ?_⟩
    · rw [ofClass_append, hfeed]
      exact h.given cls hcls
    · rw [ofClass_append, hfeed]
      exact h.absent other hother

theorem nil : Follows [] [] := ⟨sound_nil, by simp, fun _ _ => rfl⟩

end Follows

/-! ## Models -/

/-- Reading documents is reading their headings one after another. -/
theorem Drafts.foldlM_feed (documents : List (List Markup.Node)) (drafts : Drafts) :
    documents.foldlM Drafts.feed drafts = (documents.flatMap declarations).foldlM Drafts.declare drafts := by
  induction documents generalizing drafts with
  | nil => rfl
  | cons nodes documents ih =>
    rw [List.foldlM_cons, List.flatMap_cons, List.foldlM_append]
    exact bind_congr ih

/-- The members of a class of the model are what its sections say, linked to the class. -/
theorem Model.given_ofDocuments {documents : List (List Markup.Node)} {model : Model}
    (h : Model.ofDocuments documents = .ok model) {cls : ApiClass} (hcls : cls ∈ model.classes) :
    List.Forall₂
      (fun part member => ∃ args, part.docs.foldlM (fun args doc => doc.addToArgs args) [] = .ok args ∧
        member = Member.inClass cls.name { part.member with args := optionsLast args })
      (MemberSection.ofClass cls.name (documents.flatMap declarations)) cls.members := by
  obtain ⟨drafts, hdrafts, h⟩ := bind_eq_ok.1 h
  cases h
  rw [Drafts.foldlM_feed] at hdrafts
  have hfollows : Follows ([] ++ documents.flatMap declarations) drafts :=
    foldlM_processed (fun _ _ _ _ => Follows.declare) .nil hdrafts
  obtain ⟨draft, hdraft, rfl⟩ := List.mem_map.1 hcls
  rw [ApiClass.updateMembers_members, List.map_map, List.forall₂_map_right_iff]
  refine (hfollows.given draft hdraft).imp ?_
  rintro part member ⟨args, hargs, rfl⟩
  exact ⟨args, hargs, rfl⟩

end RefPages
