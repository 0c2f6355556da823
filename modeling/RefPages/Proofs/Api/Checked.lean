/-
References checked. A text is taken apart into the matches of a pattern, from left to right and without
overlaps, and what is between them. Resolving fails at the first match that names nothing, also when it has a
target of its own; otherwise matches with a target are kept and the others give way to the text of their link.
-/
import Mathlib
import RefPages.Api.Link
import RefPages.Proofs.Api.Targeted

namespace RefPages

open Text

/-! ## The matches in a text -/

namespace Reference

/-- The text begins with the reference: a kind, a name, and a target in parentheses whenever one follows. -/
structure Matches (ref : Reference) (text : List Char) : Prop where
  names : Names ref.kind ref.name
  written : ref.written = core ref.kind ref.name ++ target ref.href
  inside : ∀ href, ref.href = some href → ')' ∉ href
  starts : ref.written <+: text
  longest : ref.href = none → ∀ href, ')' ∉ href → ¬ref.written ++ target (some href) <+: text

theorem href?_eq_none_iff {cs : List Char} : href? cs = none ↔ ∀ href, ')' ∉ href → ¬target (some href) <+: cs := by
  constructor
  · rintro h href hclose ⟨rest, rfl⟩
    rw [target, List.append_assoc, List.singleton_append, href?_append hclose] at h
    cases h
  · intro h
    cases hhref : href? cs with
    | none => rfl
    | some href =>
      obtain ⟨hclose, rest, rfl⟩ := href?_eq_some hhref
      exact absurd ⟨rest, by simp [target]⟩ (h href hclose)

theorem matches_iff {ref : Reference} {text : List Char} : ref.Matches text ↔ read? text = some ref := by
  rw [read?_eq_some_iff]
  constructor
  · rintro ⟨hnames, hwritten, hinside, ⟨rest, rfl⟩, hlongest⟩
    refine ⟨hnames, target ref.href ++ rest, by rw [hwritten, List.append_assoc], ?_, hwritten⟩
    cases hhref : ref.href with
    | none =>
      refine (href?_eq_none_iff.2 fun href hclose hprefix => hlongest hhref href hclose ?_).symm
      exact (List.prefix_append_right_inj _).2 hprefix
    | some href =>
      rw [target, List.append_assoc, List.singleton_append, href?_append (hinside href hhref)]
  · rintro ⟨hnames, rest, rfl, hhref, hwritten⟩
    refine ⟨hnames, hwritten, fun href hsome => ?_, ?_, fun hnone href hclose => ?_⟩
    · rw [hsome] at hhref
      exact (href?_eq_some hhref.symm).1
    · rw [hwritten, List.prefix_append_right_inj]
      cases hown : ref.href with
      | none => exact List.nil_prefix
      | some href =>
        rw [hown] at hhref
        obtain ⟨-, more, rfl⟩ := href?_eq_some hhref.symm
        exact ⟨more, by simp [target]⟩
    · rw [hnone] at hhref hwritten
      simp only [target, List.append_nil] at hwritten
      rw [hwritten, List.prefix_append_right_inj]
      exact href?_eq_none_iff.1 hhref.symm href hclose

end Reference

/-- A text taken apart from left to right: where a reference begins it is one part and the next is looked for
behind it, and any other character is a part of its own. -/
inductive Scanned : List Char → List (Piece Reference) → Prop
  | done : Scanned [] []
  | found {ref : Reference} {rest : List Char} {pieces : List (Piece Reference)}
    (h : ref.Matches (ref.written ++ rest)) (hrest : Scanned rest pieces) :
    Scanned (ref.written ++ rest) (.reference ref :: pieces)
  | passed {c : Char} {cs : List Char} {pieces : List (Piece Reference)}
    (h : ∀ ref : Reference, ¬ref.Matches (c :: cs)) (hrest : Scanned cs pieces) :
    Scanned (c :: cs) (.plain c :: pieces)

theorem scanned_memberPieces (text : List Char) : Scanned text (memberPieces text) := by
  induction hlength : text.length using Nat.strong_induction_on generalizing text with
  | _ n ih =>
    subst hlength
    cases hread : Reference.read? text with
    | some ref =>
      obtain ⟨rest, rfl⟩ := Reference.eq_written_append hread
      have hshorter : rest.length < (ref.written ++ rest).length := by
        have := List.length_pos_iff.2 (Reference.written_ne_nil hread)
        simp; omega
      rw [memberPieces_written_append hread]
      exact .found (Reference.matches_iff.2 hread) (ih _ hshorter rest rfl)
    | none =>
      cases text with
      | nil => exact .done
      | cons c cs =>
        rw [memberPieces, piecesFrom_cons_none hread]
        refine .passed (fun ref hmatches => ?_) (ih _ (by simp) cs rfl)
        rw [Reference.matches_iff, hread] at hmatches
        cases hmatches

/-- There is one way to take a text apart. -/
theorem scanned_iff {text : List Char} {pieces : List (Piece Reference)} :
    Scanned text pieces ↔ pieces = memberPieces text := by
  constructor
  · intro h
    induction h with
    | done => rfl
    | found h _ ih => rw [memberPieces_written_append (Reference.matches_iff.1 h), ih]
    | @passed c cs pieces h _ ih =>
      have hread : Reference.read? (c :: cs) = none :=
        Option.eq_none_iff_forall_not_mem.2 fun ref hsome => h ref (Reference.matches_iff.2 hsome)
      rw [ih, memberPieces, memberPieces, piecesFrom_cons_none hread]
  · rintro rfl
    exact scanned_memberPieces text

/-! ## References that name nothing -/

/-- The keys that have a value. -/
theorem lastValue?_eq_none_iff {α : Type} {key : String} {entries : List (String × α)} :
    lastValue? key entries = none ↔ key ∉ entries.map (·.1) := by
  simp only [lastValue?, Option.map_eq_none_iff, List.getLast?_eq_none_iff, List.filter_eq_nil_iff, decide_eq_true_eq,
    List.mem_map, not_exists, not_and]

namespace Reference

section

variable (render : LinkRenderer) (table : LinkTable) (context : Option LinkContext)

/-- The reference names nothing: its kind is none that there is, no member of this kind has the name, or the
method that the text belongs to has no parameter or no option of the name. -/
inductive Fails (ref : Reference) : Fault → Prop
  | unknownKind (hkind : String.ofList ref.kind ∉ ["event", "method", "property", "param", "option"]) :
    Fails ref (.unknownLinkKind (String.ofList ref.written))
  | undefinedMember (kind : MemberKind) (hkind : String.ofList ref.kind = kind.word)
    (hname : kind.word ++ ": " ++ String.ofList ref.name ∉ table.known) :
    Fails ref (.undefinedMember (String.ofList ref.written))
  | undefinedParam (method : LinkContext) (hmethod : context = some method)
    (hkind : String.ofList ref.kind = "param") (hname : String.ofList ref.name ∉ method.params.map (·.1)) :
    Fails ref (.undefinedParam (String.ofList ref.written) method.method)
  | undefinedOption (method : LinkContext) (hmethod : context = some method)
    (hkind : String.ofList ref.kind = "option") (hname : String.ofList ref.name ∉ method.options.map (·.1)) :
    Fails ref (.undefinedParam (String.ofList ref.written) method.method)

/-- The name that is shown for a parameter or an option. Outside of methods it is the name itself. -/
def label? (names : LinkContext → List (String × String)) (ref : Reference) : Option String :=
  match context with
  | some method => lastValue? (String.ofList ref.name) (names method)
  | none => some (String.ofList ref.name)

/-- The text that the renderer has for what the reference names, unless it declines. -/
def linkText? (ref : Reference) : Option String :=
  if String.ofList ref.kind = "param" then (label? context LinkContext.params ref).bind (render <| .toParam ·)
  else if String.ofList ref.kind = "option" then (label? context LinkContext.options ref).bind (render <| .toOption ·)
  else lastValue? (String.ofList ref.kind ++ ": " ++ String.ofList ref.name) table.members

/-- What stands for a reference that names something: itself when it has a target, the text of the link
otherwise, and itself again when there is none. -/
def shown (ref : Reference) : List Char :=
  if ref.Bare then ((linkText? render table context ref).map String.toList).getD ref.written else ref.written

variable {render table context} {ref : Reference} {fault : Fault}

theorem exists_kind_word {word : String} (h : word = "event" ∨ word = "method" ∨ word = "property") :
    ∃ kind : MemberKind, word = kind.word := by
  rcases h with rfl | rfl | rfl
  · exact ⟨.event, rfl⟩
  · exact ⟨.method, rfl⟩
  · exact ⟨.property, rfl⟩

/-! ### By kind -/

theorem fails_member_iff {kind : MemberKind} (hkind : String.ofList ref.kind = kind.word) :
    ref.Fails table context fault ↔
      kind.word ++ ": " ++ String.ofList ref.name ∉ table.known ∧
        fault = .undefinedMember (String.ofList ref.written) := by
  constructor
  · rintro (hother | ⟨other, hother, hname⟩ | ⟨method, hmethod, hother, hname⟩ | ⟨method, hmethod, hother, hname⟩)
    · cases kind <;> simp [hkind, MemberKind.word] at hother
    · rw [← hother, hkind] at hname
      exact ⟨hname, rfl⟩
    · cases kind <;> simp [hkind, MemberKind.word] at hother
    · cases kind <;> simp [hkind, MemberKind.word] at hother
  · rintro ⟨hname, rfl⟩
    exact .undefinedMember kind hkind hname

theorem fails_param_iff (hkind : String.ofList ref.kind = "param") :
    ref.Fails table context fault ↔ ∃ method, context = some method ∧
      String.ofList ref.name ∉ method.params.map (·.1) ∧
        fault = .undefinedParam (String.ofList ref.written) method.method := by
  constructor
  · rintro (hother | ⟨other, hother, hname⟩ | ⟨method, hmethod, hother, hname⟩ | ⟨method, hmethod, hother, hname⟩)
    · simp [hkind] at hother
    · cases other <;> simp [hkind, MemberKind.word] at hother
    · exact ⟨method, hmethod, hname, rfl⟩
    · simp [hkind] at hother
  · rintro ⟨method, hmethod, hname, rfl⟩
    exact .undefinedParam method hmethod hkind hname

theorem fails_option_iff (hkind : String.ofList ref.kind = "option") :
    ref.Fails table context fault ↔ ∃ method, context = some method ∧
      String.ofList ref.name ∉ method.options.map (·.1) ∧
        fault = .undefinedParam (String.ofList ref.written) method.method := by
  constructor
  · rintro (hother | ⟨other, hother, hname⟩ | ⟨method, hmethod, hother, hname⟩ | ⟨method, hmethod, hother, hname⟩)
    · simp [hkind] at hother
    · cases other <;> simp [hkind, MemberKind.word] at hother
    · simp [hkind] at hother
    · exact ⟨method, hmethod, hname, rfl⟩
  · rintro ⟨method, hmethod, hname, rfl⟩
    exact .undefinedOption method hmethod hkind hname

theorem fails_unknown_iff (hkind : String.ofList ref.kind ∉ ["event", "method", "property", "param", "option"]) :
    ref.Fails table context fault ↔ fault = .unknownLinkKind (String.ofList ref.written) := by
  constructor
  · rintro (- | ⟨other, hother, hname⟩ | ⟨method, hmethod, hother, hname⟩ | ⟨method, hmethod, hother, hname⟩)
    · rfl
    · cases other <;> simp [hother, MemberKind.word] at hkind
    · simp [hother] at hkind
    · simp [hother] at hkind
  · rintro rfl
    exact .unknownKind hkind

/-- A name of a parameter or an option is looked up in the method. -/
theorem shownName_eq_ok {names : LinkContext → List (String × String)} {label : String} :
    shownName context names ref = .ok label ↔ label? context names ref = some label := by
  unfold shownName label?
  cases context with
  | none => simp
  | some method =>
    dsimp only
    cases lastValue? (String.ofList ref.name) (names method) <;> simp

theorem shownName_eq_error {names : LinkContext → List (String × String)} :
    shownName context names ref = .error fault ↔ ∃ method, context = some method ∧
      String.ofList ref.name ∉ (names method).map (·.1) ∧
        fault = .undefinedParam (String.ofList ref.written) method.method := by
  unfold shownName
  cases context with
  | none => simp
  | some method =>
    simp only [← lastValue?_eq_none_iff, Option.some.injEq, exists_eq_left']
    cases lastValue? (String.ofList ref.name) (names method) <;> simp [eq_comm]

theorem toList_getD (text : Option String) :
    (text.getD (String.ofList ref.written)).toList = (text.map String.toList).getD ref.written := by
  cases text <;> simp

theorem resolveName_eq_error : resolveName render table context ref = .error fault ↔ ref.Fails table context fault := by
  unfold resolveName
  dsimp only
  split
  · rename_i hmember
    obtain ⟨kind, hkind⟩ := exists_kind_word hmember
    rw [fails_member_iff hkind, hkind]
    split
    · rename_i hknown
      simp [List.contains_iff_mem.1 hknown]
    · rename_i hknown
      rw [List.contains_iff_mem] at hknown
      simp [hknown, eq_comm]
  · split
    · rename_i hparam
      rw [fails_param_iff hparam, ← shownName_eq_error, bind_pure_eq_error]
    · split
      · rename_i hoption
        rw [fails_option_iff hoption, ← shownName_eq_error, bind_pure_eq_error]
      · rename_i hmember hparam hoption
        simp only [not_or] at hmember
        rw [fails_unknown_iff (by simp [hmember, hparam, hoption])]
        simp [eq_comm]

theorem resolveName_eq_ok {new : List Char} (h : resolveName render table context ref = .ok new) :
    new = ((linkText? render table context ref).map String.toList).getD ref.written := by
  unfold resolveName at h
  unfold linkText?
  dsimp only at h
  split at h
  · rename_i hmember
    obtain ⟨kind, hkind⟩ := exists_kind_word hmember
    split at h
    · cases h
      have hparam : String.ofList ref.kind ≠ "param" := by cases kind <;> simp [hkind, MemberKind.word]
      have hoption : String.ofList ref.kind ≠ "option" := by cases kind <;> simp [hkind, MemberKind.word]
      rw [if_neg hparam, if_neg hoption, toList_getD]
    · cases h
  · split at h
    · rename_i hparam
      obtain ⟨label, hlabel, h⟩ := bind_eq_ok.1 h
      cases h
      rw [if_pos hparam, shownName_eq_ok.1 hlabel, Option.bind_some, toList_getD]
    · split at h
      · rename_i hparam hoption
        obtain ⟨label, hlabel, h⟩ := bind_eq_ok.1 h
        cases h
        rw [if_neg hparam, if_pos hoption, shownName_eq_ok.1 hlabel, Option.bind_some, toList_getD]
      · cases h

/-- A reference that names nothing is not resolved, with or without a target. -/
theorem resolve_eq_error : resolve render table context ref = .error fault ↔ ref.Fails table context fault := by
  have hname : resolveName render table context ref = .error fault ↔ ref.Fails table context fault :=
    resolveName_eq_error
  rw [← hname, resolve, bind_pure_eq_error]

theorem resolve_eq_shown (h : ∀ fault, ¬ref.Fails table context fault) :
    resolve render table context ref = .ok (ref.shown render table context) := by
  cases hname : resolveName render table context ref with
  | error fault => exact absurd (resolveName_eq_error.1 hname) (h fault)
  | ok new =>
    rw [resolve, hname, resolveName_eq_ok hname]
    rfl

end

end Reference

/-! ## The parts of a text replaced -/

section

variable {α ε : Type} {replacement : α → Except ε (List Char)} {pieces : List (Piece α)}

/-- The first reference that cannot be replaced gives the fault. -/
theorem tryReplace_eq_error {fault : ε} :
    tryReplace replacement pieces = .error fault ↔ ∃ before ref after, pieces = before ++ .reference ref :: after ∧
      (∀ other, .reference other ∈ before → ∃ new, replacement other = .ok new) ∧ replacement ref = .error fault := by
  induction pieces with
  | nil =>
    constructor
    · intro h
      cases h
    · rintro ⟨before, ref, after, h, -⟩
      simp at h
  | cons piece pieces ih =>
    cases piece with
    | plain c =>
      rw [tryReplace, bind_pure_eq_error, ih]
      constructor
      · rintro ⟨before, ref, after, rfl, hbefore, hfault⟩
        exact ⟨.plain c :: before, ref, after, rfl, by simpa using hbefore, hfault⟩
      · rintro ⟨before, ref, after, h, hbefore, hfault⟩
        cases before with
        | nil => simp at h
        | cons first before =>
          obtain ⟨-, rfl⟩ := List.cons.inj h
          exact ⟨before, ref, after, rfl, fun other hother => hbefore other (List.mem_cons_of_mem _ hother), hfault⟩
    | reference own =>
      rw [tryReplace, bind_eq_error]
      constructor
      · rintro (hfault | ⟨new, hnew, h⟩)
        · exact ⟨[], own, pieces, rfl, by simp, hfault⟩
        · obtain ⟨before, ref, after, rfl, hbefore, hfault⟩ := ih.1 (bind_pure_eq_error.1 h)
          refine ⟨.reference own :: before, ref, after, rfl, fun other hother => ?_, hfault⟩
          rcases List.mem_cons.1 hother with hsame | hother
          · cases hsame
            exact ⟨new, hnew⟩
          · exact hbefore other hother
      · rintro ⟨before, ref, after, h, hbefore, hfault⟩
        cases before with
        | nil =>
          cases h
          exact .inl hfault
        | cons first before =>
          obtain ⟨rfl, rfl⟩ := List.cons.inj h
          obtain ⟨new, hnew⟩ := hbefore own List.mem_cons_self
          have hlater : ∀ other, .reference other ∈ before → ∃ new, replacement other = .ok new :=
            fun other hother => hbefore other (List.mem_cons_of_mem _ hother)
          have hrest := ih.2 ⟨before, ref, after, rfl, hlater, hfault⟩
          exact .inr ⟨new, hnew, bind_pure_eq_error.2 hrest⟩

/-- Where all is replaced, every reference can be. -/
theorem exists_of_tryReplace {out : List Char} (h : tryReplace replacement pieces = .ok out) {ref : α}
    (href : .reference ref ∈ pieces) : ∃ new, replacement ref = .ok new := by
  induction pieces generalizing out with
  | nil => cases href
  | cons piece pieces ih =>
    cases piece with
    | plain c =>
      obtain ⟨rest, hrest, -⟩ := bind_eq_ok.1 h
      exact ih hrest (by simpa using href)
    | reference own =>
      obtain ⟨new, hnew, h⟩ := bind_eq_ok.1 h
      obtain ⟨rest, hrest, -⟩ := bind_eq_ok.1 h
      rcases List.mem_cons.1 href with hsame | href
      · cases hsame
        exact ⟨new, hnew⟩
      · exact ih hrest href

theorem tryReplace_eq_replace {shown : α → List Char}
    (h : ∀ ref, .reference ref ∈ pieces → replacement ref = .ok (shown ref)) :
    tryReplace replacement pieces = .ok (replace shown pieces) := by
  induction pieces with
  | nil => rfl
  | cons piece pieces ih =>
    have hrest := ih fun ref href => h ref (List.mem_cons_of_mem _ href)
    cases piece with
    | plain c =>
      rw [tryReplace, hrest]
      rfl
    | reference ref =>
      rw [tryReplace, hrest, h ref List.mem_cons_self]
      rfl

end

/-! ## What a model and a method have -/

theorem word_append_inj {kind other : MemberKind} {name name' : String}
    (h : kind.word ++ ": " ++ name = other.word ++ ": " ++ name') : kind = other ∧ name = name' := by
  have hchars := congrArg String.toList h
  simp only [String.toList_append] at hchars
  cases kind <;> cases other <;> simp [MemberKind.word] at hchars ⊢ <;> exact String.toList_inj.1 hchars

theorem mem_known_iff {links : LinkRenderer} {model : Model} {kind : MemberKind} {name : String} :
    kind.word ++ ": " ++ name ∈ (LinkTable.ofModel links model).known ↔
      ∃ cls ∈ model.classes, ∃ member ∈ cls.members, member.kind = kind ∧ member.qualifiedName = name := by
  simp only [LinkTable.ofModel, List.mem_map, List.mem_flatMap]
  constructor
  · rintro ⟨member, ⟨cls, hcls, hmember⟩, hkey⟩
    exact ⟨cls, hcls, member, hmember, word_append_inj hkey⟩
  · rintro ⟨cls, hcls, member, hmember, rfl, rfl⟩
    exact ⟨member, ⟨cls, hcls, hmember⟩, rfl⟩

/-- The text for a member is the last that the renderer gives for one of its kind and name. -/
theorem lastValue?_ofModel {links : LinkRenderer} {model : Model} {kind : MemberKind} {name : String} :
    lastValue? (kind.word ++ ": " ++ name) (LinkTable.ofModel links model).members =
      (((model.classes.flatMap (·.members)).filter fun member =>
        member.kind = kind ∧ member.qualifiedName = name).filterMap fun member =>
          links (.toMember member)).getLast? := by
  simp only [LinkTable.ofModel, lastValue?]
  induction model.classes.flatMap (·.members) using List.reverseRecOn with
  | nil => rfl
  | append_singleton members member ih =>
    have hkey : member.referenceKey = kind.word ++ ": " ++ name ↔ member.kind = kind ∧ member.qualifiedName = name :=
      ⟨word_append_inj, fun ⟨hkind, hname⟩ => by rw [Member.referenceKey, hkind, hname]⟩
    simp only [List.filterMap_append, List.filter_append, List.getLast?_append, Option.map_or, ih]
    by_cases hsame : member.kind = kind ∧ member.qualifiedName = name
    · cases hlink : links (.toMember member) <;> simp [hlink, hsame, hkey]
    · cases hlink : links (.toMember member) <;> simp [hlink, hsame, hkey]

theorem mem_params_iff {method : Member} {name : String} :
    name ∈ (LinkContext.ofMethod method).params.map (·.1) ↔ ∃ arg ∈ method.args, arg.name = name := by
  simp [LinkContext.ofMethod]

theorem mem_options_iff {method : Member} {name : String} :
    name ∈ (LinkContext.ofMethod method).options.map (·.1) ↔
      ∃ option ∈ method.optionProperties, option.name = name ∨ option.overloadOf = some name := by
  simp only [LinkContext.ofMethod, List.map_append, List.mem_append, List.map_map, List.mem_map, List.mem_filterMap,
    Option.map_eq_some_iff, Function.comp_apply]
  constructor
  · rintro (⟨-, ⟨option, hoption, own, hown, rfl⟩, rfl⟩ | ⟨option, hoption, rfl⟩)
    · exact ⟨option, hoption, .inr hown⟩
    · exact ⟨option, hoption, .inl rfl⟩
  · rintro ⟨option, hoption, rfl | hown⟩
    · exact .inr ⟨option, hoption, rfl⟩
    · exact .inl ⟨(name, name), ⟨option, hoption, name, hown, rfl⟩, rfl⟩

/-! ## Resolved texts -/

/-- A text is resolved match by match. The first match that names nothing, with or without a target, gives the
fault. When there is none, the matches are replaced by what is shown for them, and then references to classes
are resolved. Members are those of the model by kind, class and name; parameters and options are those of the
method, where an option can also be named by the one that it was made from. -/
theorem resolveText_checked (render : LinkRenderer) (table : LinkTable) (context : Option LinkContext) (text : String) :
    (∃! pieces, Scanned text.toList pieces) ∧
      (∀ pieces, Scanned text.toList pieces →
        (∀ fault, resolveText render table context text = .error fault ↔
          ∃ before ref after, pieces = before ++ .reference ref :: after ∧
            (∀ other, .reference other ∈ before → ∀ fault, ¬other.Fails table context fault) ∧
              ref.Fails table context fault) ∧
        ∀ new, resolveText render table context text = .ok new ↔
          (∀ ref, .reference ref ∈ pieces → ∀ fault, ¬ref.Fails table context fault) ∧
            new = String.ofList (replace (resolveClass table)
              (classPieces (replace (Reference.shown render table context) pieces)))) ∧
      (∀ (links : LinkRenderer) (model : Model) (kind : MemberKind) (name : String),
        (kind.word ++ ": " ++ name ∈ (LinkTable.ofModel links model).known ↔
          ∃ cls ∈ model.classes, ∃ member ∈ cls.members, member.kind = kind ∧ member.qualifiedName = name) ∧
        lastValue? (kind.word ++ ": " ++ name) (LinkTable.ofModel links model).members =
          (((model.classes.flatMap (·.members)).filter fun member =>
            member.kind = kind ∧ member.qualifiedName = name).filterMap fun member =>
              links (.toMember member)).getLast?) ∧
      ∀ (method : Member) (name : String),
        (name ∈ (LinkContext.ofMethod method).params.map (·.1) ↔ ∃ arg ∈ method.args, arg.name = name) ∧
          (name ∈ (LinkContext.ofMethod method).options.map (·.1) ↔
            ∃ option ∈ method.optionProperties, option.name = name ∨ option.overloadOf = some name) := by
  refine ⟨⟨memberPieces text.toList, scanned_memberPieces _, fun _ => scanned_iff.1⟩, ?_,
    fun links model kind name => ⟨mem_known_iff, lastValue?_ofModel⟩,
    fun method name => ⟨mem_params_iff, mem_options_iff⟩⟩
  intro pieces hpieces
  obtain rfl := scanned_iff.1 hpieces
  have hfails : ∀ ref : Reference, (∃ new, resolve render table context ref = .ok new) ↔
      ∀ fault, ¬ref.Fails table context fault := by
    intro ref
    constructor
    · rintro ⟨new, hnew⟩ fault hfails
      rw [Reference.resolve_eq_error.2 hfails] at hnew
      cases hnew
    · intro h
      exact ⟨_, Reference.resolve_eq_shown h⟩
  constructor
  · intro fault
    rw [resolveText, bind_pure_eq_error, tryReplace_eq_error]
    simp only [hfails, Reference.resolve_eq_error]
  · intro new
    rw [resolveText, bind_eq_ok]
    constructor
    · rintro ⟨members, hmembers, hnew⟩
      have hnone : ∀ ref, .reference ref ∈ memberPieces text.toList → ∀ fault, ¬ref.Fails table context fault :=
        fun ref href => (hfails ref).1 (exists_of_tryReplace hmembers href)
      rw [tryReplace_eq_replace fun ref href => Reference.resolve_eq_shown (hnone ref href)] at hmembers
      cases hmembers
      cases hnew
      exact ⟨hnone, rfl⟩
    · rintro ⟨hnone, rfl⟩
      exact ⟨_, tryReplace_eq_replace fun ref href => Reference.resolve_eq_shown (hnone ref href), rfl⟩

example :
    let render : LinkRenderer
      | .toClass cls => some ("<" ++ cls.name ++ ">")
      | .toMember member => some (member.qualifiedName ++ "()")
      | _ => none
    let model : Model := ⟨[ApiClass.ofMembers "A" none [Member.ofName .method "b" none]]⟩
    resolveText render (.ofModel render model) none "[A] has [`method: A.b`], see [`method: A.b`](#b) and [C]." =
      .ok "<A> has A.b(), see [`method: A.b`](#b) and [C]." := by
  cbv

/-- Two references that name nothing, the first of them with a target. -/
def misspelledText : String := "See [`widget: x`](#x), not [`method: A.b`]."

/-- The first reference in the text. -/
def widgetReference : Reference := ⟨"[`widget: x`](#x)".toList, "widget".toList, "x".toList, some "#x".toList⟩

/-- The other reference in the text. -/
def methodReference : Reference := ⟨"[`method: A.b`]".toList, "method".toList, "A.b".toList, none⟩

/-- The parts of the text. -/
def misspelledPieces : List (Piece Reference) :=
  "See ".toList.map .plain ++ .reference widgetReference ::
    (", not ".toList.map .plain ++ [.reference methodReference, .plain '.'])

/-- The fault is that of the first reference, whose kind is unknown, although it has a target and the other names
no member. -/
theorem resolveText_checked_widget :
    Scanned misspelledText.toList misspelledPieces ∧
      resolveText (fun _ => none) (.ofModel (fun _ => none) ⟨[]⟩) none misspelledText =
        .error (.unknownLinkKind "[`widget: x`](#x)") := by
  have hscanned : Scanned misspelledText.toList misspelledPieces := scanned_iff.2 (by cbv)
  have hchecked := resolveText_checked (fun _ => none) (.ofModel (fun _ => none) ⟨[]⟩) none misspelledText
  have hfails : widgetReference.Fails (.ofModel (fun _ => none) ⟨[]⟩) none (.unknownLinkKind "[`widget: x`](#x)") :=
    .unknownKind (by decide)
  exact ⟨hscanned, ((hchecked.2.1 _ hscanned).1 _).2 ⟨_, widgetReference, _, rfl, by simp, hfails⟩⟩

end RefPages
