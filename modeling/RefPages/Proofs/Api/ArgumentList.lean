/-
The list of arguments that headings make. Headings about one argument make one argument, where the first
of them stands: the first says what it is, a later one gives its form in the languages that it names, and
options become properties of the argument that all of them belong to.
-/
import RefPages.Proofs.Api.Arguments

namespace RefPages

/-! ## Values for all languages -/

namespace PerLang

variable {α : Type}

/-- The values that a function gives for the languages. -/
def ofFn (value? : Lang → Option α) : PerLang α := ⟨value? .js, value? .python, value? .java, value? .csharp⟩

@[simp] theorem get?_ofFn (value? : Lang → Option α) (lang : Lang) : (ofFn value?).get? lang = value? lang := by
  cases lang <;> rfl

/-- Values are known from those for each language. -/
theorem eq_ofFn {values : PerLang α} {value? : Lang → Option α} (h : ∀ lang, values.get? lang = value? lang) :
    values = ofFn value? := by
  obtain ⟨js, python, java, csharp⟩ := values
  rw [ofFn, ← h .js, ← h .python, ← h .java, ← h .csharp]
  rfl

end PerLang

theorem LangRules.with_own_overrides {rules : LangRules} {overrides : PerLang Member}
    (h : rules.overrides = overrides) : { rules with overrides } = rules := by
  cases rules
  cases h
  rfl

theorem Member.with_own_type {member : Member} {type : Option ApiType} (h : member.type = type) :
    { member with type } = member := by
  cases member
  cases h
  rfl

/-! ## Headings about one argument -/

namespace ArgumentDoc

/-- The argument as the first heading about it says; an option makes an argument for options. -/
def start (doc : ArgumentDoc) : Member :=
  if doc.isOption then Member.property "options" (ApiType.object []) false else doc.arg

/-- The option that a heading adds. -/
def option? (doc : ArgumentDoc) : Option Member :=
  if doc.isOption then some { doc.arg with required := false } else none

/-- The type with further properties. -/
def withOptions (docs : List ArgumentDoc) (type : ApiType) : ApiType :=
  (docs.filterMap option?).foldl (fun type option => type.addProperty option) type

/-- The argument that headings about it make, the first of them and all later ones. Of those that name a
language the last gives the form that the argument has there. -/
def argument (first : ArgumentDoc) (later : List ArgumentDoc) : Member :=
  { first.start with
    type := first.start.type.map (withOptions (first :: later))
    langs := { first.start.langs with overrides := .ofFn (lastFor? later) } }

/-- The headings that are about another argument. -/
def others (first : ArgumentDoc) (docs : List ArgumentDoc) : List ArgumentDoc :=
  docs.filter (·.about ≠ first.about)

/-- The arguments that headings make, in the order of the first headings about them. -/
def arguments : List ArgumentDoc → List Member
  | [] => []
  | first :: docs => first.argument (docs.filter (·.about = first.about)) :: arguments (first.others docs)
termination_by docs => docs.length
decreasing_by exact Nat.lt_succ_of_le (List.length_filter_le _ docs)

variable {first doc : ArgumentDoc} {docs later : List ArgumentDoc}

theorem name_start (doc : ArgumentDoc) : doc.start.name = doc.about := by
  unfold start about
  split <;> rfl

@[simp] theorem name_argument (first : ArgumentDoc) (later : List ArgumentDoc) :
    (first.argument later).name = first.about := name_start first

theorem withOptions_append (docs : List ArgumentDoc) (doc : ArgumentDoc) (type : ApiType) :
    withOptions (docs ++ [doc]) type =
      doc.option?.toList.foldl (fun type option => type.addProperty option) (withOptions docs type) := by
  unfold withOptions
  rw [List.filterMap_append, List.foldl_append]
  cases h : doc.option? <;> simp [h]

/-- Options become properties behind those that the type has. -/
theorem properties_withOptions (docs : List ArgumentDoc) (type : ApiType) :
    (withOptions docs type).properties.getD [] = type.properties.getD [] ++ docs.filterMap option? := by
  induction docs using List.reverseRecOn with
  | nil => simp [withOptions]
  | append_singleton docs doc ih =>
    rw [withOptions_append, List.filterMap_append]
    cases h : doc.option? with
    | none => simp [h, ih]
    | some option => simp [h, ApiType.addProperty, ih]

/-- The argument that one more heading about it makes of it. -/
def change (doc : ArgumentDoc) (arg : Member) : Except Fault Member :=
  if doc.isOption then .ok { arg with type := arg.type.map (ApiType.addProperty { doc.arg with required := false }) }
  else
    match doc.arg.langs.only with
    | none => .error (.overrideWithoutLang doc.heading)
    | some langs =>
      .ok { arg with
        langs := { arg.langs with
          overrides := langs.foldl (fun all lang => all.insert lang doc.arg) arg.langs.overrides } }

/-- The first heading about an argument makes the argument. -/
theorem argument_nil (hoverrides : doc.arg.langs.overrides = .empty) :
    doc.argument [] = { doc.start with type := doc.start.type.map (withOptions [doc]) } := by
  have hforms : PerLang.ofFn (lastFor? []) = doc.start.langs.overrides := by
    unfold start
    split
    · rfl
    · rw [hoverrides]
      rfl
  rw [argument, LangRules.with_own_overrides hforms.symm]

theorem addToArgs_nil (hoverrides : doc.arg.langs.overrides = .empty) : doc.addToArgs [] = .ok [doc.argument []] := by
  rw [argument_nil hoverrides, addToArgs, start]
  by_cases hoption : doc.isOption = true
  · rw [if_pos hoption, if_pos hoption]
    simp [addOption, changeFirst, Member.property, Member.ofName, withOptions, option?, hoption, Except.map]
  · have hsame : withOptions [doc] = id := by
      funext type
      simp [withOptions, option?, hoption]
    rw [if_neg hoption, if_neg hoption, hsame, Member.with_own_type (by rw [Option.map_id]; rfl)]
    rfl

/-- A heading about the first argument changes it. -/
theorem addToArgs_cons_of_eq {arg : Member} (h : arg.name = doc.about) (args : List Member) :
    doc.addToArgs (arg :: args) = (doc.change arg).map (· :: args) := by
  unfold addToArgs change
  by_cases hoption : doc.isOption = true
  · have hname : arg.name = "options" := by rw [h, about, if_pos hoption]
    simp [hoption, addOption, changeFirst, hname]
  · have hname : arg.name = doc.arg.name := by rw [h, about, if_neg hoption]
    cases honly : doc.arg.langs.only with
    | none => simp [hoption, addParam, changeFirst, hname, honly]
    | some langs => simp [hoption, addParam, changeFirst, hname, honly]

/-- A heading about another argument leaves the first as it is. -/
theorem addToArgs_cons_of_ne {arg : Member} (h : arg.name ≠ doc.about) (args : List Member) :
    doc.addToArgs (arg :: args) = (doc.addToArgs args).map (arg :: ·) := by
  unfold addToArgs
  by_cases hoption : doc.isOption = true
  · have hname : arg.name ≠ "options" := by rwa [about, if_pos hoption] at h
    rw [if_pos hoption, if_pos hoption]
    unfold addOption
    by_cases hany : args.any (·.name = "options") = true
    · simp only [List.any_cons, hname, decide_false, Bool.false_or, hany, if_true, changeFirst, if_false,
        Bool.false_eq_true]
    · simp only [List.any_cons, hname, decide_false, Bool.false_or, hany, if_false, List.cons_append, changeFirst,
        Bool.false_eq_true]
  · have hname : arg.name ≠ doc.arg.name := by rwa [about, if_neg hoption] at h
    rw [if_neg hoption, if_neg hoption]
    unfold addParam
    by_cases hany : args.any (·.name = doc.arg.name) = true
    · simp only [List.any_cons, hname, decide_false, Bool.false_or, hany, if_true, changeFirst, if_false,
        Bool.false_eq_true]
    · simp only [List.any_cons, hname, decide_false, Bool.false_or, hany, if_false, List.cons_append, changeFirst,
        Bool.false_eq_true]
      rfl

/-- One more heading about an argument: an option, or a form for languages, of which there must be some. -/
theorem change_argument {arg : Member} (h : doc.change (first.argument later) = .ok arg) :
    arg = first.argument (later ++ [doc]) ∧ (doc.isOption = false → doc.arg.langs.only ≠ none) := by
  unfold change at h
  by_cases hoption : doc.isOption = true
  · rw [if_pos hoption] at h
    cases h
    have hforms : lastFor? (later ++ [doc]) = lastFor? later := by
      funext lang
      have hnames : doc.names lang = false := by
        unfold names
        split
        · rw [hoption, Bool.not_true, Bool.false_and]
        · rfl
      rw [lastFor?_append, hnames, if_neg Bool.false_ne_true]
    refine ⟨?_, fun hparam => absurd (hoption.symm.trans hparam) (by decide)⟩
    have htype : (first.argument later).type.map (ApiType.addProperty { doc.arg with required := false }) =
        first.start.type.map (withOptions (first :: (later ++ [doc]))) := by
      rw [← List.cons_append]
      show (first.start.type.map _).map _ = _
      rw [Option.map_map]
      congr 1
      funext type
      rw [withOptions_append, option?, if_pos hoption]
      rfl
    rw [htype, argument, argument, hforms]
  · rw [if_neg hoption] at h
    split at h
    · cases h
    · rename_i langs honly
      cases h
      refine ⟨?_, fun _ => by rw [honly]; exact nofun⟩
      have hforms : langs.foldl (fun all lang => all.insert lang doc.arg) (first.argument later).langs.overrides =
          .ofFn (lastFor? (later ++ [doc])) := by
        refine PerLang.eq_ofFn fun lang => ?_
        have hnames : doc.names lang = langs.contains lang := by
          simp only [names, honly, Bool.eq_false_of_not_eq_true hoption, Bool.not_false, Bool.true_and]
        rw [PerLang.get?_foldl_insert, lastFor?_append, hnames, argument, PerLang.get?_ofFn]
      have htype : withOptions (first :: later) = withOptions (first :: (later ++ [doc])) := by
        funext type
        rw [← List.cons_append, withOptions_append, option?, if_neg hoption]
        rfl
      rw [hforms, argument, argument, htype]

/-! ## All headings of a method -/

/-- A second heading about a parameter names the languages that it is for. -/
def MayFollow (doc earlier : ArgumentDoc) : Prop :=
  earlier.about = doc.about → doc.isOption = false → doc.arg.langs.only ≠ none

/-- One more heading makes of the arguments of the headings before it those of all of them. -/
theorem addToArgs_arguments {args : List Member} (hoverrides : doc.arg.langs.overrides = .empty)
    (h : doc.addToArgs (arguments docs) = .ok args) :
    args = arguments (docs ++ [doc]) ∧ ∀ earlier ∈ docs, doc.MayFollow earlier := by
  induction docs using arguments.induct generalizing args with
  | case1 =>
    rw [arguments, addToArgs_nil hoverrides] at h
    cases h
    exact ⟨by simp [arguments, others], List.forall_mem_nil _⟩
  | case2 first docs ih =>
    rw [arguments] at h
    rw [List.cons_append, arguments, List.filter_append, List.filter_singleton, List.forall_mem_cons]
    have hothers : first.others (docs ++ [doc]) = first.others docs ++ [doc].filter (·.about ≠ first.about) :=
      List.filter_append ..
    -- the first argument is changed or passed over; in that case the heading is one of the others
    by_cases hsame : first.about = doc.about
    · rw [addToArgs_cons_of_eq (by rw [name_argument, hsame])] at h
      obtain ⟨arg, harg, rfl⟩ := map_eq_ok.1 h
      obtain ⟨rfl, honly⟩ := change_argument harg
      exact ⟨by simp [hothers, hsame], fun _ => honly, fun _ _ _ => honly⟩
    · rw [addToArgs_cons_of_ne (by rwa [name_argument])] at h
      obtain ⟨rest, hrest, rfl⟩ := map_eq_ok.1 h
      obtain ⟨rfl, honly⟩ := ih hrest
      refine ⟨by simp [hothers, Ne.symm hsame], fun heq => absurd heq hsame, fun earlier hearlier heq => ?_⟩
      refine honly earlier (List.mem_filter.2 ⟨hearlier, ?_⟩) heq
      simpa [heq] using Ne.symm hsame

/-- The arguments that headings add one after another, and what has to hold of the headings. -/
theorem eq_arguments_of_foldlM {args : List Member} (hoverrides : ∀ doc ∈ docs, doc.arg.langs.overrides = .empty)
    (h : docs.foldlM (fun args doc => doc.addToArgs args) [] = .ok args) :
    args = arguments docs ∧ docs.Pairwise fun earlier doc => doc.MayFollow earlier := by
  induction docs using List.reverseRecOn generalizing args with
  | nil =>
    cases h
    exact ⟨by rw [arguments], .nil⟩
  | append_singleton docs doc ih =>
    rw [List.foldlM_append] at h
    obtain ⟨before, hbefore, h⟩ := bind_eq_ok.1 h
    obtain ⟨after, hafter, h⟩ := bind_eq_ok.1 h
    cases h
    obtain ⟨rfl, hpairs⟩ := ih (fun other hother => hoverrides other (List.mem_append_left _ hother)) hbefore
    obtain ⟨rfl, hfollows⟩ :=
      addToArgs_arguments (hoverrides doc (List.mem_append_right _ List.mem_cons_self)) hafter
    refine ⟨rfl, List.pairwise_append.2 ⟨hpairs, List.pairwise_singleton _ _, ?_⟩⟩
    intro earlier hearlier other hother
    rw [List.mem_singleton.1 hother]
    exact hfollows earlier hearlier

theorem names_arguments (docs : List ArgumentDoc) :
    (arguments docs).map (·.name) = (docs.map (·.about)).eraseDups := by
  induction docs using arguments.induct with
  | case1 => simp [arguments]
  | case2 first docs ih =>
    rw [arguments, List.map_cons, List.map_cons, name_argument, List.eraseDups_cons, ih, List.filter_map, others]
    congr 4
    funext other
    by_cases hsame : other.about = first.about <;> simp [hsame]

/-- The argument of the headings about it is there. -/
theorem argument_mem {name : String} (h : docs.filter (·.about = name) = first :: later) :
    first.argument later ∈ arguments docs := by
  induction docs using arguments.induct with
  | case1 => cases h
  | case2 head docs ih =>
    rw [arguments]
    by_cases hname : head.about = name
    · rw [List.filter_cons_of_pos (by simpa using hname)] at h
      cases h
      rw [hname]
      exact List.mem_cons_self
    · rw [List.filter_cons_of_neg (by simpa using hname)] at h
      refine List.mem_cons_of_mem _ (ih ?_)
      rw [← h, others, List.filter_filter]
      refine List.filter_congr fun other _ => ?_
      by_cases hother : other.about = name
      · simp [hother, Ne.symm hname]
      · simp [hother]

end ArgumentDoc

end RefPages
