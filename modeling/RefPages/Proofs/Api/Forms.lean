/-
Arguments as one language sees them. Each argument is looked at by itself: the language has it or
not, as its own form or as the common one, and the options of a C# method are expanded. So the
arguments of a member of the filtered model are read off those of the member one by one.
-/
import RefPages.Api.ForLang
import RefPages.Proofs.Api.Linked
import RefPages.Proofs.Api.Arguments

namespace RefPages

/-! ## What a language has of an argument -/

/-- What a language has of an argument. -/
def Member.inSignature? (lang : Lang) (arg : Member) : Option Member :=
  if arg.langs.includes lang then
    let shown := (arg.override? lang).getD (arg.forLang lang)
    if shown.isEmptyOptions then none else some shown
  else none

theorem argsForLang_eq (lang : Lang) (args : List Member) :
    argsForLang lang args = args.filterMap (Member.inSignature? lang) := by
  induction args with
  | nil => rfl
  | cons arg args ih =>
    rw [argsForLang, List.filterMap_cons, Member.inSignature?]
    split
    · dsimp only
      split
      · exact ih
      · rw [ih]
    · exact ih

namespace Member

theorem override?_eq (lang : Lang) (arg : Member) :
    arg.override? lang = (arg.langs.overrides.get? lang).map (Member.forLang lang) := by
  obtain ⟨_, _, _, _, _, _, _, _, _, _, _, _, ⟨_, _, _, js, python, java, csharp⟩, _, _, _, _⟩ := arg
  cases lang
  · cases js <;> rfl
  · cases python <;> rfl
  · cases java <;> rfl
  · cases csharp <;> rfl

/-- A language has an argument when the argument is left to it, in the form of its own if there is one, and as
long as there are options if it is the argument for them. -/
theorem inSignature?_eq_some {lang : Lang} {arg shown : Member} :
    arg.inSignature? lang = some shown ↔ arg.langs.includes lang = true ∧
      ((arg.langs.overrides.get? lang).map (Member.forLang lang)).getD (arg.forLang lang) = shown ∧
      ¬shown.isEmptyOptions = true := by
  unfold inSignature?
  rw [← override?_eq]
  constructor
  · intro h
    split at h
    · rename_i hlang
      dsimp only at h
      split at h
      · cases h
      · rename_i hoptions
        cases h
        exact ⟨hlang, rfl, hoptions⟩
    · cases h
  · rintro ⟨hlang, rfl, hoptions⟩
    rw [if_pos hlang]
    exact if_neg hoptions

theorem forLang_eq (lang : Lang) (member : Member) :
    member.forLang lang =
      { member with
        label := (member.langs.labels.get? lang).getD member.label
        type := (chosenType? lang member.langs.types).orElse fun _ => typeForLang? lang member.type
        args := argsForLang lang member.args } := by
  obtain ⟨_, _, _, _, _, _, _, _, _, _, _, _, ⟨_, _, _, _⟩, _, _, _, _⟩ := member
  rw [forLang]

@[simp] theorem forLang_name (lang : Lang) (member : Member) : (member.forLang lang).name = member.name := by
  rw [forLang_eq]

theorem not_isEmptyOptions {arg : Member} (h : arg.name ≠ "options") : ¬ arg.isEmptyOptions = true := by
  rw [isEmptyOptions, decide_eq_false h, Bool.false_and]
  exact Bool.false_ne_true

end Member

namespace ArgsDistinct

variable {args : List Member} {lang : Lang}

theorem name_inSignature? (h : ArgsDistinct args) {arg shown : Member} (harg : arg ∈ args)
    (hshown : arg.inSignature? lang = some shown) : shown.name = arg.name := by
  obtain ⟨-, rfl, -⟩ := Member.inSignature?_eq_some.1 hshown
  cases hform : arg.langs.overrides.get? lang with
  | none => exact Member.forLang_name lang arg
  | some form => exact (Member.forLang_name lang form).trans (h.forms arg harg lang form hform)

theorem distinct_argsForLang (h : ArgsDistinct args) : ((argsForLang lang args).map (·.name)).Nodup := by
  have hsublist : ∀ args' : List Member, (∀ arg ∈ args', arg ∈ args) →
      ((args'.filterMap (Member.inSignature? lang)).map (·.name)).Sublist (args'.map (·.name)) := by
    intro args' hmem
    induction args' with
    | nil => exact .slnil
    | cons arg args' ih =>
      rw [List.forall_mem_cons] at hmem
      rw [List.filterMap_cons]
      split
      · exact (ih hmem.2).cons _
      · rename_i shown hshown
        rw [List.map_cons, List.map_cons, h.name_inSignature? hmem.1 hshown]
        exact (ih hmem.2).cons_cons _
  rw [argsForLang_eq]
  exact (hsublist args fun _ => id).nodup h.distinct

end ArgsDistinct

namespace Member

/-- The argument with its options expanded, if it is the one for options. -/
def expandArg (style : OverloadStyle) (arg : Member) : Except Fault Member :=
  if arg.name = "options" then
    match arg.type.bind (·.properties) with
    | none => .ok arg
    | some options => do
      let options ← expandOptions style options
      return { arg with type := arg.type.map ({ · with properties := some options }) }
  else .ok arg

theorem expandArg_of_ne {style : OverloadStyle} {arg : Member} (h : arg.name ≠ "options") :
    arg.expandArg style = .ok arg := by
  rw [expandArg, if_neg h]

theorem name_expandArg {style : OverloadStyle} {arg form : Member} (h : arg.expandArg style = .ok form) :
    form.name = arg.name := by
  unfold expandArg at h
  split at h
  · split at h
    · cases h
      rfl
    · obtain ⟨options, -, h⟩ := bind_eq_ok.1 h
      cases h
      rfl
  · cases h
    rfl

/-- With distinct names, expanding the options of the first argument for options is expanding
those of every argument. -/
theorem mapM_expandArg {style : OverloadStyle} {args : List Member} (hdistinct : (args.map (·.name)).Nodup) :
    args.mapM (expandArg style) =
      match firstOptions? args with
      | none => .ok args
      | some options => (expandOptions style options).map (withOptions · args) := by
  induction args with
  | nil => rfl
  | cons arg args ih =>
    rw [List.map_cons, List.nodup_cons] at hdistinct
    rw [List.mapM_cons]
    by_cases hname : arg.name = "options"
    · have hrest : args.mapM (expandArg style) = .ok args := by
        refine mapM_eq_ok.2 (List.forall₂_same.2 fun other hother => expandArg_of_ne ?_)
        rintro heq
        exact hdistinct.1 (hname.trans heq.symm ▸ List.mem_map_of_mem hother)
      have hfirst : firstOptions? (arg :: args) = arg.type.bind (·.properties) := by
        simp [firstOptions?, hname]
      rw [hrest, hfirst, expandArg, if_pos hname]
      cases arg.type.bind (·.properties) with
      | none => rfl
      | some options =>
        dsimp only
        cases expandOptions style options with
        | error fault => rfl
        | ok options' => exact congrArg Except.ok (if_pos hname).symm
    · have hfirst : firstOptions? (arg :: args) = firstOptions? args := by
        simp [firstOptions?, hname]
      rw [expandArg_of_ne hname, hfirst, ih hdistinct.2]
      cases firstOptions? args with
      | none => rfl
      | some options =>
        dsimp only
        cases expandOptions style options with
        | error fault => rfl
        | ok options' => exact congrArg Except.ok (if_neg hname).symm

/-- The argument in the form that a language gives the arguments of a member. -/
def inForm (lang : Lang) (style : OverloadStyle) (member arg : Member) : Except Fault Member :=
  if lang = .csharp ∧ member.isMethod then arg.expandArg style else .ok arg

theorem name_inForm {lang : Lang} {style : OverloadStyle} {member arg form : Member}
    (h : inForm lang style member arg = .ok form) : form.name = arg.name := by
  unfold inForm at h
  split at h
  · exact name_expandArg h
  · cases h
    rfl

/-- The method that the arguments of the member are linked to in a class. -/
def methodIn (className : String) (member : Member) : Option String :=
  if member.isMethod then some (qualify className member.name) else none

theorem inClass_args (className : String) (member : Member) :
    (inClass className member).args = member.args.map (linkArg className (member.methodIn className)) :=
  rfl

theorem inClass_relink (className : String) (member : Member) :
    inClass className member.relink = inClass className member := by
  have hself : member.relink = inClass member.className member := by
    cases member
    rfl
  rw [hself, inClass_inClass]

/-- Expanding the options of a member is expanding those of its arguments one by one. -/
theorem inLang_inClass {lang : Lang} {style : OverloadStyle} {member seen : Member}
    (hargs : ArgsDistinct member.args) (h : member.inLang lang style = .ok seen) :
    ∃ args, (argsForLang lang member.args).mapM (inForm lang style member) = .ok args ∧
      ∀ className, inClass className seen = inClass className { member.forLang lang with args } := by
  have hkind : (member.forLang lang).isMethod = member.isMethod := by rw [forLang_eq]; rfl
  have hown : (member.forLang lang).args = argsForLang lang member.args := by rw [forLang_eq]
  unfold inLang at h
  dsimp only at h
  unfold inForm
  rw [hkind] at h
  split at h
  · rename_i hexpand
    simp only [if_pos hexpand]
    unfold expandOverloads at h
    rw [hown] at h
    rw [mapM_expandArg hargs.distinct_argsForLang]
    cases hoptions : firstOptions? (argsForLang lang member.args) with
    | none =>
      rw [hoptions] at h
      cases h
      exact ⟨_, rfl, fun className => by rw [with_own_args hown]⟩
    | some options =>
      rw [hoptions] at h
      obtain ⟨options', hexpanded, h⟩ := bind_eq_ok.1 h
      cases h
      refine ⟨withOptions options' (argsForLang lang member.args), ?_, fun className => inClass_relink className _⟩
      simp only [hexpanded]
      rfl
  · rename_i hplain
    simp only [if_neg hplain]
    cases h
    refine ⟨_, mapM_eq_ok.2 (List.forall₂_same.2 fun _ _ => rfl), fun className => ?_⟩
    rw [with_own_args hown]

/-- A member in a language has the arguments that the language has, each in its form. -/
theorem inLang_eq_ok {lang : Lang} {style : OverloadStyle} {member seen : Member}
    (hargs : ArgsDistinct member.args) (h : member.inLang lang style = .ok seen) (className : String) :
    ∃ args, List.Forall₂ (fun shown form => inForm lang style member shown = .ok form)
        (argsForLang lang member.args) args ∧
      (seen.inClass className).args = args.map (linkArg className (member.methodIn className)) ∧
      (seen.inClass className).isMethod = member.isMethod ∧
      (seen.inClass className).experimental = member.experimental := by
  obtain ⟨args, hforms, hclass⟩ := inLang_inClass hargs h
  refine ⟨args, mapM_eq_ok.1 hforms, ?_⟩
  rw [hclass className, inClass_args, forLang_eq]
  exact ⟨rfl, rfl, rfl⟩

end Member

/-! ## Models in a language -/

/-- A class in a language has the members that the language has, linked to it. -/
theorem ApiClass.inLang_eq_ok {lang : Lang} {style : OverloadStyle} {cls kept : ApiClass}
    (h : cls.inLang lang style = .ok kept) :
    ∃ seen, List.Forall₂ (fun member seen => Member.inLang lang style member = .ok seen)
        (cls.members.filter (·.langs.includes lang)) seen ∧
      kept.name = cls.name ∧ kept.experimental = cls.experimental ∧
      kept.members = seen.map (Member.inClass cls.name) := by
  obtain ⟨seen, hseen, h⟩ := bind_eq_ok.1 h
  cases h
  exact ⟨seen, mapM_eq_ok.1 hseen, rfl, rfl, rfl⟩

theorem ApiClass.linked_of_inLang {lang : Lang} {style : OverloadStyle} {cls kept : ApiClass}
    (h : cls.inLang lang style = .ok kept) : kept.Linked := by
  obtain ⟨seen, -, h⟩ := bind_eq_ok.1 h
  cases h
  exact ApiClass.linked_relink _

/-- A model in a language has the classes that the language has, as it sees them. -/
theorem Model.inLang_eq_ok {lang : Lang} {style : OverloadStyle} {model filtered : Model}
    (h : model.inLang lang style = .ok filtered) :
    List.Forall₂ (fun cls kept => ApiClass.inLang lang style cls = .ok kept)
      (model.classes.filter (·.langs.includes lang)) filtered.classes := by
  obtain ⟨kept, hkept, h⟩ := bind_eq_ok.1 h
  cases h
  have hseen := mapM_eq_ok.1 hkept
  have hlinked : ∀ cls ∈ kept, cls.Linked := fun cls hcls => by
    obtain ⟨before, -, hbefore⟩ := related_of_mem_right hseen hcls
    exact ApiClass.linked_of_inLang hbefore
  rw [Model.relink_eq_self hlinked]
  exact hseen

end RefPages
