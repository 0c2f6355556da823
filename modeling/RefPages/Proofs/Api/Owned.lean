/-
Which member a heading about an argument belongs to: the last member of its name that its class declares before
it. So the headings of a member are those about its name between the member and the next one of that name.
-/
import RefPages.Proofs.Api.Sections

namespace RefPages

/-! ## Headings of a member -/

namespace Declaration

variable {className name : String} {declaration : Declaration} {doc : ArgumentDoc}

/-- The member that a heading declares for a class. -/
def member? (className : String) (declaration : Declaration) : Option Member :=
  if declaration.level = 2 then
    match MemberDoc.read declaration.text declaration.content with
    | .ok doc => if doc.className = className then some doc.member else none
    | .error _ => none
  else none

/-- What a heading says about an argument of the members of a class with a name. -/
def argument? (className name : String) (declaration : Declaration) : Option ArgumentDoc :=
  if declaration.level = 3 then
    match ArgumentDoc.read declaration.text declaration.content with
    | .ok doc => if doc.className = className ∧ doc.method = name then some doc else none
    | .error _ => none
  else none

/-- Whether a heading declares a member of a class with a name. -/
def declares (className name : String) (declaration : Declaration) : Bool :=
  (declaration.member? className).any (·.name = name)

theorem exists_member?_of_declares (h : declaration.declares className name = true) :
    ∃ member, declaration.member? className = some member ∧ member.name = name := by
  unfold declares at h
  cases hmember : declaration.member? className with
  | none =>
    rw [hmember] at h
    cases h
  | some member =>
    rw [hmember] at h
    exact ⟨member, rfl, of_decide_eq_true h⟩

theorem member?_of_argument (hlevel : declaration.level = 3) : declaration.member? className = none := by
  rw [member?, if_neg (by omega)]

theorem argument?_of_read (hlevel : declaration.level = 3)
    (hread : ArgumentDoc.read declaration.text declaration.content = .ok doc) :
    declaration.argument? className name =
      if doc.className = className ∧ doc.method = name then some doc else none := by
  rw [argument?, if_pos hlevel, hread]

theorem argument?_of_declares {other : String} (h : declaration.declares className other = true) :
    declaration.argument? className name = none := by
  by_cases hlevel : declaration.level = 3
  · rw [declares, member?_of_argument hlevel] at h
    cases h
  · rw [argument?, if_neg hlevel]

end Declaration

/-- What headings say about the arguments of a member, when they follow it: those of its name before the next
member of its name. -/
def docsOf (className name : String) (following : List Declaration) : List ArgumentDoc :=
  (following.takeWhile (!·.declares className name)).filterMap (·.argument? className name)

/-- The members that headings declare for a class, each with what the headings say about its arguments. -/
def sectionsIn (className : String) : List Declaration → List MemberSection
  | [] => []
  | declaration :: following =>
    match declaration.member? className with
    | some member => ⟨member, docsOf className member.name following⟩ :: sectionsIn className following
    | none => sectionsIn className following

section

variable {className name : String} {declaration : Declaration} {following : List Declaration}

theorem docsOf_append (following later : List Declaration) :
    docsOf className name (following ++ later) =
      docsOf className name following ++
        if following.any (·.declares className name) then [] else docsOf className name later := by
  induction following with
  | nil => simp [docsOf]
  | cons declaration following ih =>
    unfold docsOf at ih ⊢
    cases hdeclares : declaration.declares className name with
    | true => simp [hdeclares]
    | false =>
      rw [List.cons_append, List.takeWhile_cons_of_pos (by simp [hdeclares]),
        List.takeWhile_cons_of_pos (by simp [hdeclares]), List.filterMap_cons, List.filterMap_cons, ih,
        List.any_cons, hdeclares, Bool.false_or]
      split <;> rfl

theorem docsOf_singleton (declaration : Declaration) :
    docsOf className name [declaration] = (declaration.argument? className name).toList := by
  unfold docsOf
  cases hdeclares : declaration.declares className name with
  | true =>
    rw [Declaration.argument?_of_declares hdeclares]
    simp [hdeclares]
  | false =>
    rw [List.takeWhile_cons_of_pos (by simp [hdeclares]), List.takeWhile_nil, List.filterMap_cons]
    cases declaration.argument? className name <;> rfl

theorem docsOf_cons_of_none (hmember : declaration.member? className = none)
    (hargument : declaration.argument? className name = none) (following : List Declaration) :
    docsOf className name (declaration :: following) = docsOf className name following := by
  rw [← List.singleton_append, docsOf_append, docsOf_singleton, hargument, List.any_cons, Declaration.declares,
    hmember]
  rfl

theorem docsOf_cons_of_some {doc : ArgumentDoc} (hargument : declaration.argument? className name = some doc)
    (following : List Declaration) :
    docsOf className name (declaration :: following) = doc :: docsOf className name following := by
  have hdeclares : declaration.declares className name = false := by
    by_contra h
    rw [Declaration.argument?_of_declares (Bool.eq_true_of_not_eq_false h)] at hargument
    cases hargument
  rw [← List.singleton_append, docsOf_append, docsOf_singleton, hargument, List.any_cons, hdeclares]
  rfl

/-- A heading about another name says nothing, and so does any behind the next member. -/
theorem docsOf_without {before : List Declaration} (hmember : declaration.member? className = none)
    (h : declaration.argument? className name = none ∨ before.any (·.declares className name) = true)
    (after : List Declaration) :
    docsOf className name (before ++ declaration :: after) = docsOf className name (before ++ after) := by
  rw [docsOf_append, docsOf_append]
  rcases h with hargument | hdeclares
  · rw [docsOf_cons_of_none hmember hargument]
  · rw [if_pos hdeclares, if_pos hdeclares]

theorem sectionsIn_cons_of_some {member : Member} (h : declaration.member? className = some member)
    (following : List Declaration) :
    sectionsIn className (declaration :: following) =
      ⟨member, docsOf className member.name following⟩ :: sectionsIn className following := by
  rw [sectionsIn, h]

theorem sectionsIn_cons_of_none (h : declaration.member? className = none) (following : List Declaration) :
    sectionsIn className (declaration :: following) = sectionsIn className following := by
  rw [sectionsIn, h]

/-- There is a section for a name when a heading declares a member of that name. -/
theorem any_sectionsIn (className name : String) (declarations : List Declaration) :
    (sectionsIn className declarations).any (·.member.name = name) =
      declarations.any (·.declares className name) := by
  induction declarations with
  | nil => rfl
  | cons declaration declarations ih =>
    cases hmember : declaration.member? className with
    | some member =>
      rw [sectionsIn_cons_of_some hmember, List.any_cons, List.any_cons, ih, Declaration.declares, hmember]
      rfl
    | none =>
      rw [sectionsIn_cons_of_none hmember, List.any_cons, ih, Declaration.declares, hmember]
      rfl

end

/-! ## Heading by heading -/

namespace MemberSection

variable {className : String} {declaration : Declaration}

theorem addArgument_of_absent {doc : ArgumentDoc} {sections : List MemberSection}
    (h : sections.any (·.member.name = doc.method) = false) : addArgument doc sections = sections := by
  cases sections with
  | nil => rfl
  | cons first sections =>
    obtain ⟨hfirst, hrest⟩ := Bool.or_eq_false_iff.1 (List.any_cons.symm.trans h)
    rw [addArgument, if_neg (by rw [hrest]; exact Bool.false_ne_true), if_neg (of_decide_eq_false hfirst)]

/-- A heading may add a section, or an argument to a section that there is. -/
theorem feed_cases (className : String) (declaration : Declaration) :
    (∀ sections, feed className sections declaration = sections ++ sectionsIn className [declaration]) ∧
        (∀ name, declaration.argument? className name = none) ∨
      ∃ doc, declaration.member? className = none ∧
        (∀ sections, feed className sections declaration = addArgument doc sections) ∧
        ∀ name, declaration.argument? className name = if doc.method = name then some doc else none := by
  by_cases hmember : declaration.level = 2
  · refine .inl ⟨fun sections => ?_, fun name => by rw [Declaration.argument?, if_neg (by omega)]⟩
    simp only [feed, hmember, sectionsIn, Declaration.member?, if_true]
    cases MemberDoc.read declaration.text declaration.content with
    | error fault => simp
    | ok doc =>
      by_cases hclass : doc.className = className
      · simp [hclass, docsOf]
      · simp [hclass]
  · have hnone : declaration.member? className = none := by rw [Declaration.member?, if_neg hmember]
    rw [sectionsIn_cons_of_none hnone, sectionsIn]
    by_cases hargument : declaration.level = 3
    · cases hread : ArgumentDoc.read declaration.text declaration.content with
      | error fault => exact .inl (by simp [feed, hargument, hread, Declaration.argument?])
      | ok doc =>
        by_cases hclass : doc.className = className
        · exact .inr ⟨doc, hnone, by simp [feed, hargument, hread, hclass, Declaration.argument?]⟩
        · exact .inl (by simp [feed, hargument, hread, hclass, Declaration.argument?])
    · refine .inl ⟨fun sections => ?_, fun name => by rw [Declaration.argument?, if_neg hargument]⟩
      unfold feed
      split
      · contradiction
      · contradiction
      · rw [List.append_nil]

/-- One more heading, seen from a section with sections behind it. -/
theorem feed_cons (part : MemberSection) (sections : List MemberSection) (declaration : Declaration) :
    feed className (part :: sections) declaration =
      { part with
        docs := part.docs ++
          if sections.any (·.member.name = part.member.name) then []
          else (declaration.argument? className part.member.name).toList } ::
        feed className sections declaration := by
  rcases feed_cases className declaration with ⟨hfeed, hargument⟩ | ⟨doc, -, hfeed, hargument⟩
  · rw [hfeed, hfeed, hargument, Option.toList_none, ite_self, List.append_nil, List.cons_append]
  · rw [hfeed, hfeed, hargument, addArgument]
    by_cases hname : part.member.name = doc.method
    · rw [hname, if_pos rfl, if_pos rfl]
      cases hlater : sections.any (·.member.name = doc.method) with
      | true => simp
      | false => simp [addArgument_of_absent hlater]
    · rw [if_neg hname, if_neg (Ne.symm hname), Option.toList_none, ite_self, List.append_nil]
      cases hlater : sections.any (·.member.name = doc.method) with
      | true => simp
      | false => simp [addArgument_of_absent hlater]

/-- The sections of one more heading. -/
theorem sectionsIn_append_singleton (read : List Declaration) (declaration : Declaration) :
    sectionsIn className (read ++ [declaration]) = feed className (sectionsIn className read) declaration := by
  induction read with
  | nil =>
    rcases feed_cases className declaration with ⟨hfeed, -⟩ | ⟨doc, hmember, hfeed, -⟩
    · rw [List.nil_append, sectionsIn, hfeed, List.nil_append]
    · rw [List.nil_append, sectionsIn_cons_of_none hmember, sectionsIn, hfeed, addArgument]
  | cons first read ih =>
    rw [List.cons_append]
    cases hmember : first.member? className with
    | none => rw [sectionsIn_cons_of_none hmember, sectionsIn_cons_of_none hmember, ih]
    | some member =>
      rw [sectionsIn_cons_of_some hmember, sectionsIn_cons_of_some hmember, feed_cons, ih, any_sectionsIn,
        docsOf_append, docsOf_singleton]

/-- The sections that are kept heading by heading are those of all headings. -/
theorem ofClass_eq (className : String) (declarations : List Declaration) :
    ofClass className declarations = sectionsIn className declarations := by
  induction declarations using List.reverseRecOn with
  | nil => rfl
  | append_singleton read declaration ih => rw [ofClass_append, ih, sectionsIn_append_singleton]

end MemberSection

/-! ## The member of a heading -/

section

variable {className : String} {own declaration : Declaration} {member : Member} {doc : ArgumentDoc}
  {earlier later : List Declaration}

theorem getElem?_sectionsIn_append (className : String) (before after : List Declaration) (n : Nat) :
    (sectionsIn className (before ++ after))[(sectionsIn className before).length + n]? =
      (sectionsIn className after)[n]? := by
  induction before with
  | nil => simp [sectionsIn]
  | cons first before ih =>
    rw [List.cons_append]
    cases hmember : first.member? className with
    | none => rw [sectionsIn_cons_of_none hmember, sectionsIn_cons_of_none hmember, ih]
    | some member =>
      rw [sectionsIn_cons_of_some hmember, sectionsIn_cons_of_some hmember, List.length_cons, Nat.succ_add,
        List.getElem?_cons_succ, ih]

/-- A heading belongs to the section of the last member of its name before it. -/
theorem getElem?_sectionsIn_owner (hown : own.member? className = some member)
    (hlater : later.any (·.declares className member.name) = false)
    (hargument : declaration.argument? className member.name = some doc) (earlier after : List Declaration) :
    (sectionsIn className (earlier ++ own :: (later ++ declaration :: after)))[(sectionsIn className earlier).length]? =
      some ⟨member, docsOf className member.name later ++ doc :: docsOf className member.name after⟩ := by
  have hsection := getElem?_sectionsIn_append className earlier (own :: (later ++ declaration :: after)) 0
  rw [Nat.add_zero, sectionsIn_cons_of_some hown, List.getElem?_cons_zero, docsOf_append, hlater,
    if_neg Bool.false_ne_true, docsOf_cons_of_some hargument] at hsection
  exact hsection

/-- A heading about no member before it changes no section. -/
theorem sectionsIn_without (before : List Declaration) (hmember : declaration.member? className = none)
    (hargument : ∀ name, before.any (·.declares className name) = true →
      declaration.argument? className name = none)
    (after : List Declaration) :
    sectionsIn className (before ++ declaration :: after) = sectionsIn className (before ++ after) := by
  induction before with
  | nil => exact sectionsIn_cons_of_none hmember after
  | cons first before ih =>
    have hrest := ih fun name hname => hargument name (by rw [List.any_cons, hname, Bool.or_true])
    rw [List.cons_append, List.cons_append]
    cases hfirst : first.member? className with
    | none => rw [sectionsIn_cons_of_none hfirst, sectionsIn_cons_of_none hfirst, hrest]
    | some member =>
      have hnone : declaration.argument? className member.name = none :=
        hargument member.name (by simp [Declaration.declares, hfirst])
      rw [sectionsIn_cons_of_some hfirst, sectionsIn_cons_of_some hfirst, hrest, docsOf_without hmember (.inl hnone)]

/-- A heading changes no section but that of the last member of its name before it. -/
theorem getElem?_sectionsIn_without (hmember : declaration.member? className = none)
    (hown : own.member? className = some member) (hlater : later.any (·.declares className member.name) = false)
    (hargument : ∀ name ≠ member.name, declaration.argument? className name = none) (after : List Declaration)
    {n : Nat} (hn : n ≠ (sectionsIn className earlier).length) :
    (sectionsIn className (earlier ++ own :: (later ++ declaration :: after)))[n]? =
      (sectionsIn className (earlier ++ own :: (later ++ after)))[n]? := by
  induction earlier generalizing n with
  | nil =>
    -- no member behind the own one has its name
    have hrest : sectionsIn className (later ++ declaration :: after) = sectionsIn className (later ++ after) := by
      refine sectionsIn_without later hmember (fun name hname => hargument name ?_) after
      rintro rfl
      rw [hlater] at hname
      cases hname
    rw [List.nil_append, List.nil_append, sectionsIn_cons_of_some hown, sectionsIn_cons_of_some hown, hrest]
    cases n with
    | zero => exact absurd rfl hn
    | succ n => rfl
  | cons first earlier ih =>
    rw [List.cons_append, List.cons_append]
    cases hfirst : first.member? className with
    | none =>
      rw [sectionsIn_cons_of_none hfirst] at hn
      rw [sectionsIn_cons_of_none hfirst, sectionsIn_cons_of_none hfirst, ih hn]
    | some other =>
      rw [sectionsIn_cons_of_some hfirst, List.length_cons] at hn
      rw [sectionsIn_cons_of_some hfirst, sectionsIn_cons_of_some hfirst]
      cases n with
      | succ n => exact ih (by omega)
      | zero =>
        -- the own member is declared in between, or the heading is about another name
        have hnone : declaration.argument? className other.name = none ∨
            (earlier ++ own :: later).any (·.declares className other.name) = true := by
          by_cases hname : other.name = member.name
          · exact .inr (by simp [Declaration.declares, hown, hname])
          · exact .inl (hargument other.name hname)
        have hdocs := docsOf_without hmember hnone after
        simp only [List.append_assoc, List.cons_append] at hdocs
        rw [List.getElem?_cons_zero, List.getElem?_cons_zero, hdocs]

end

/-! ## Documents that can be read -/

theorem exists_last_of_any {α : Type} {test : α → Bool} {as : List α} (h : as.any test = true) :
    ∃ earlier a later, as = earlier ++ a :: later ∧ test a = true ∧ later.any test = false := by
  induction as with
  | nil => cases h
  | cons a as ih =>
    by_cases hlater : as.any test = true
    · obtain ⟨earlier, last, later, rfl, hlast⟩ := ih hlater
      exact ⟨a :: earlier, last, later, rfl, hlast⟩
    · rw [List.any_cons, Bool.eq_false_of_not_eq_true hlater, Bool.or_false] at h
      exact ⟨[], a, as, rfl, h, Bool.eq_false_of_not_eq_true hlater⟩

/-- A change to the first element that passes a test is a change that such an element can have. -/
theorem exists_mem_of_changeFirst {α : Type} {test : α → Bool} {change : α → Except Fault α} {as bs : List α}
    (hany : as.any test = true) (h : changeFirst test change as = .ok bs) :
    ∃ a ∈ as, test a = true ∧ ∃ b, change a = .ok b := by
  induction as generalizing bs with
  | nil => cases hany
  | cons a as ih =>
    rw [changeFirst] at h
    split at h
    · rename_i htest
      obtain ⟨changed, hchanged, -⟩ := map_eq_ok.1 h
      exact ⟨a, List.mem_cons_self, htest, changed, hchanged⟩
    · rename_i htest
      obtain ⟨rest, hrest, -⟩ := map_eq_ok.1 h
      rw [List.any_cons, Bool.eq_false_of_not_eq_true htest, Bool.false_or] at hany
      obtain ⟨found, hfound, hrest⟩ := ih hany hrest
      exact ⟨found, List.mem_cons_of_mem _ hfound, hrest⟩

/-- A heading of the third level that can be read is about a member that a heading before it declares. -/
theorem Follows.declares {read : List Declaration} {drafts drafts' : Drafts} {declaration : Declaration}
    (h : Follows read drafts) (hlevel : declaration.level = 3) (hdeclare : drafts.declare declaration = .ok drafts') :
    ∃ doc, ArgumentDoc.read declaration.text declaration.content = .ok doc ∧
      read.any (·.declares doc.className doc.method) = true := by
  have hargument : drafts.declare declaration = drafts.readArgument declaration.text declaration.content := by
    simp only [Drafts.declare, hlevel]
  rw [hargument, Drafts.readArgument_eq] at hdeclare
  obtain ⟨doc, hdoc, hadd⟩ := bind_eq_ok.1 hdeclare
  obtain ⟨hname, hfirst⟩ := Drafts.change_eq_ok hadd
  obtain ⟨cls, hcls, htest, changed, hchanged⟩ := exists_mem_of_changeFirst (by simpa using hname) hfirst
  refine ⟨doc, hdoc, ?_⟩
  split at hchanged
  · rename_i hany
    obtain ⟨member, hmember, hmethod⟩ := List.any_eq_true.1 hany
    obtain ⟨part, hpart, hgives⟩ := related_of_mem_right (h.given cls hcls) hmember
    rw [of_decide_eq_true htest, MemberSection.ofClass_eq] at hpart
    rw [← any_sectionsIn, List.any_eq_true]
    exact ⟨part, hpart, by rw [← hgives.name_eq, hmethod]⟩
  · cases hchanged

theorem Model.declares_ofDocuments {documents : List (List Markup.Node)} {model : Model}
    (h : Model.ofDocuments documents = .ok model) {before after : List Declaration} {declaration : Declaration}
    (hread : documents.flatMap declarations = before ++ declaration :: after) (hlevel : declaration.level = 3) :
    ∃ doc, ArgumentDoc.read declaration.text declaration.content = .ok doc ∧
      before.any (·.declares doc.className doc.method) = true := by
  obtain ⟨drafts, hdrafts, -⟩ := bind_eq_ok.1 h
  rw [Drafts.foldlM_feed, hread, List.foldlM_append] at hdrafts
  obtain ⟨first, hfirst, hrest⟩ := bind_eq_ok.1 hdrafts
  obtain ⟨second, hsecond, -⟩ := bind_eq_ok.1 hrest
  have hfollows : Follows ([] ++ before) first := foldlM_processed (fun _ _ _ _ => Follows.declare) .nil hfirst
  exact hfollows.declares hlevel hsecond

/-- Members are only declared for classes of the model. -/
theorem Model.exists_class_ofDocuments {documents : List (List Markup.Node)} {model : Model}
    (h : Model.ofDocuments documents = .ok model) (className : String)
    (hsections : sectionsIn className (documents.flatMap declarations) ≠ []) :
    ∃ cls ∈ model.classes, cls.name = className := by
  obtain ⟨drafts, hdrafts, h⟩ := bind_eq_ok.1 h
  cases h
  rw [Drafts.foldlM_feed] at hdrafts
  have hfollows : Follows ([] ++ documents.flatMap declarations) drafts :=
    foldlM_processed (fun _ _ _ _ => Follows.declare) .nil hdrafts
  have hname : className ∈ drafts.map (·.name) := by
    by_contra habsent
    have hnone := hfollows.absent className habsent
    rw [List.nil_append, MemberSection.ofClass_eq] at hnone
    exact hsections hnone
  obtain ⟨draft, hdraft, rfl⟩ := List.mem_map.1 hname
  exact ⟨_, List.mem_map.2 ⟨draft, hdraft, rfl⟩, rfl⟩

end RefPages
