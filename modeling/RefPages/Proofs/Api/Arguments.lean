/-
The arguments of a method as the headings about them say. The first heading about an argument
decides which languages have it; of the later ones, the last that names a language gives the form
that the argument has there.
-/
import RefPages.Proofs.Api.Sections

namespace RefPages

/-! ## Headings about an argument -/

namespace ArgumentDoc

/-- The name of the argument that the heading is about; options all belong to one. -/
def about (doc : ArgumentDoc) : String := if doc.isOption then "options" else doc.arg.name

/-- The rules that the argument gets when this is the first heading about it. -/
def rules (doc : ArgumentDoc) : LangRules := if doc.isOption then .everywhere else doc.arg.langs

/-- Whether the heading gives the form of an argument in a language when it is not the first. -/
def names (doc : ArgumentDoc) (lang : Lang) : Bool :=
  match doc.arg.langs.only with
  | some langs => !doc.isOption && langs.contains lang
  | none => false

/-- The form that the last heading for a language gives. -/
def lastFor? (docs : List ArgumentDoc) (lang : Lang) : Option Member :=
  ((docs.filter (·.names lang)).getLast?).map (·.arg)

theorem lastFor?_append (docs : List ArgumentDoc) (doc : ArgumentDoc) (lang : Lang) :
    lastFor? (docs ++ [doc]) lang = if doc.names lang then some doc.arg else lastFor? docs lang := by
  unfold lastFor?
  rw [List.filter_append, List.filter_singleton]
  cases h : doc.names lang with
  | true =>
    rw [cond_true, List.getLast?_append, List.getLast?_singleton]
    rfl
  | false => rw [cond_false, List.append_nil, if_neg Bool.false_ne_true]

end ArgumentDoc

theorem PerLang.get?_foldl_insert {α : Type} (value : α) (langs : List Lang) (values : PerLang α)
    (lang : Lang) :
    (langs.foldl (fun all lang => all.insert lang value) values).get? lang =
      if langs.contains lang then some value else values.get? lang := by
  induction langs generalizing values with
  | nil => rfl
  | cons first langs ih =>
    rw [List.foldl_cons, ih, PerLang.get?_insert, List.contains_cons]
    by_cases hfirst : lang = first
    · simp [hfirst]
    · simp [hfirst]

/-- The arguments are what the headings about them say: no two have one name, and each begins as
the first heading about it says, with the later ones as its forms in single languages. -/
structure Documented (docs : List ArgumentDoc) (args : List Member) : Prop where
  distinct : (args.map (·.name)).Nodup
  present : ∀ doc ∈ docs, doc.about ∈ args.map (·.name)
  documented : ∀ arg ∈ args, ∃ first later, docs.filter (·.about = arg.name) = first :: later ∧
    arg.langs.only = first.rules.only ∧
    ∀ lang, arg.langs.overrides.get? lang = ArgumentDoc.lastFor? later lang

namespace Documented

variable {docs : List ArgumentDoc} {args args' : List Member} {doc : ArgumentDoc}

theorem nil : Documented [] [] := ⟨List.nodup_nil, by simp, by simp⟩

theorem filter_append_of_ne (docs : List ArgumentDoc) {name : String} (h : name ≠ doc.about) :
    (docs ++ [doc]).filter (·.about = name) = docs.filter (·.about = name) := by
  rw [List.filter_append, List.filter_singleton, decide_eq_false h.symm, cond_false, List.append_nil]

/-- An argument that no heading was about before. -/
theorem append (h : Documented docs args) {arg : Member} (hnew : arg.name ∉ args.map (·.name))
    (habout : doc.about = arg.name) (honly : arg.langs.only = doc.rules.only)
    (hoverrides : arg.langs.overrides = .empty) : Documented (docs ++ [doc]) (args ++ [arg]) := by
  constructor
  · rw [List.map_append, List.map_singleton]
    exact List.nodup_append.2 ⟨h.distinct, List.nodup_singleton _, by
      rintro name hname _ harg rfl
      rw [List.mem_singleton.1 harg] at hname
      exact hnew hname⟩
  · intro other hother
    rw [List.map_append]
    rcases List.mem_append.1 hother with hother | hother
    · exact List.mem_append_left _ (h.present other hother)
    · rw [List.mem_singleton.1 hother, habout]
      exact List.mem_append_right _ List.mem_cons_self
  · intro other hother
    rcases List.mem_append.1 hother with hother | hother
    · have hne : other.name ≠ doc.about := by
        rw [habout]
        intro heq
        exact hnew (heq ▸ List.mem_map_of_mem hother)
      rw [filter_append_of_ne docs hne]
      exact h.documented other hother
    · obtain rfl := List.mem_singleton.1 hother
      refine ⟨doc, [], ?_, honly, fun lang => ?_⟩
      · have hnone : docs.filter (·.about = other.name) = [] := by
          rw [List.filter_eq_nil_iff]
          intro before hbefore heq
          exact hnew (of_decide_eq_true heq ▸ h.present before hbefore)
        rw [List.filter_append, hnone, List.filter_singleton, decide_eq_true habout, cond_true,
          List.nil_append]
      · rw [hoverrides, PerLang.get?_empty]
        rfl

/-- An argument that a heading was about before. -/
theorem change (h : Documented docs args) {update : Member → Except Fault Member}
    (hkeeps : ∀ arg arg', arg.name = doc.about → update arg = .ok arg' →
      arg'.name = arg.name ∧ arg'.langs.only = arg.langs.only ∧
      ∀ lang, arg'.langs.overrides.get? lang =
        if doc.names lang then some doc.arg else arg.langs.overrides.get? lang)
    (habout : doc.about ∈ args.map (·.name))
    (hnames : args'.map (·.name) = args.map (·.name))
    (hchange : changeFirst (·.name = doc.about) update args = .ok args') :
    Documented (docs ++ [doc]) args' := by
  refine ⟨hnames ▸ h.distinct, fun other hother => ?_, fun arg' harg' => ?_⟩
  · rw [hnames]
    rcases List.mem_append.1 hother with hother | hother
    · exact h.present other hother
    · rwa [List.mem_singleton.1 hother]
  · rcases mem_changeFirst h.distinct hchange harg' with ⟨harg, hne⟩ | ⟨arg, harg, hname, hupdate⟩
    · rw [filter_append_of_ne docs hne]
      exact h.documented arg' harg
    · obtain ⟨hsame, honly, hoverrides⟩ := hkeeps arg arg' hname hupdate
      obtain ⟨first, later, hdocs, hfirst, hlater⟩ := h.documented arg harg
      refine ⟨first, later ++ [doc], ?_, honly.trans hfirst, fun lang => ?_⟩
      · rw [hsame, List.filter_append, hdocs, List.filter_singleton, decide_eq_true hname.symm,
          cond_true, List.cons_append]
      · rw [hoverrides, hlater, ArgumentDoc.lastFor?_append]

theorem addOption (h : Documented docs args) (hoption : doc.isOption = true) {option : Member}
    (hadd : RefPages.addOption option args = .ok args') : Documented (docs ++ [doc]) args' := by
  have habout : doc.about = "options" := by rw [ArgumentDoc.about, if_pos hoption]
  have hrules : doc.rules = .everywhere := by rw [ArgumentDoc.rules, if_pos hoption]
  have hlang : ∀ lang, doc.names lang = false := fun lang => by
    unfold ArgumentDoc.names
    split
    · rw [hoption, Bool.not_true, Bool.false_and]
    · rfl
  unfold RefPages.addOption at hadd
  dsimp only at hadd
  split at hadd
  · rename_i hany
    have hmem : doc.about ∈ args.map (·.name) := by simpa [habout] using hany
    rw [← habout] at hadd
    refine h.change ?_ hmem (map_changeFirst ?_ hadd) hadd
    · rintro arg _ - ⟨⟩
      exact ⟨rfl, rfl, fun lang => by rw [hlang, if_neg Bool.false_ne_true]⟩
    · rintro arg _ ⟨⟩
      rfl
  · rename_i hnone
    have hmem : "options" ∉ args.map (·.name) := by simpa using hnone
    rw [changeFirst_append, if_neg hnone] at hadd
    obtain ⟨changed, hchanged, rfl⟩ := map_eq_ok.1 hadd
    cases hchanged
    exact h.append hmem habout (by rw [hrules]; rfl) rfl

theorem addParam (h : Documented docs args) (hparam : doc.isOption = false)
    (hoverrides : doc.arg.langs.overrides = .empty)
    (hadd : RefPages.addParam doc.arg doc.heading args = .ok args') :
    Documented (docs ++ [doc]) args' := by
  have hparam' : ¬ doc.isOption = true := by rw [hparam]; exact Bool.false_ne_true
  have habout : doc.about = doc.arg.name := by rw [ArgumentDoc.about, if_neg hparam']
  have hrules : doc.rules = doc.arg.langs := by rw [ArgumentDoc.rules, if_neg hparam']
  unfold RefPages.addParam at hadd
  split at hadd
  · rename_i hany
    have hmem : doc.about ∈ args.map (·.name) := by simpa [habout] using hany
    rw [← habout] at hadd
    refine h.change ?_ hmem (map_changeFirst ?_ hadd) hadd
    · intro arg arg' _ hchange
      split at hchange
      · cases hchange
      · rename_i langs honly
        cases hchange
        refine ⟨rfl, rfl, fun lang => ?_⟩
        have hlang : doc.names lang = langs.contains lang := by
          simp only [ArgumentDoc.names, honly, hparam, Bool.not_false, Bool.true_and]
        rw [PerLang.get?_foldl_insert, hlang]
    · intro arg arg' hchange
      split at hchange
      · cases hchange
      · cases hchange
        rfl
  · rename_i hnone
    cases hadd
    have hmem : doc.arg.name ∉ args.map (·.name) := by simpa using hnone
    exact h.append hmem habout (by rw [hrules]) hoverrides

theorem addToArgs (h : Documented docs args) (hoverrides : doc.arg.langs.overrides = .empty)
    (hadd : doc.addToArgs args = .ok args') : Documented (docs ++ [doc]) args' := by
  unfold ArgumentDoc.addToArgs at hadd
  split at hadd
  · exact h.addOption ‹_› hadd
  · exact h.addParam (Bool.eq_false_of_not_eq_true ‹_›) hoverrides hadd

/-- The arguments that headings add one after another are what they say. -/
theorem of_foldlM (hoverrides : ∀ doc ∈ docs, doc.arg.langs.overrides = .empty)
    (hargs : docs.foldlM (fun args doc => doc.addToArgs args) [] = .ok args) : Documented docs args := by
  induction docs using List.reverseRecOn generalizing args with
  | nil =>
    cases hargs
    exact nil
  | append_singleton docs doc ih =>
    rw [List.foldlM_append] at hargs
    obtain ⟨before, hbefore, hargs⟩ := bind_eq_ok.1 hargs
    obtain ⟨after, hafter, hargs⟩ := bind_eq_ok.1 hargs
    cases hargs
    refine (ih (fun other hother => hoverrides other (List.mem_append_left _ hother)) hbefore).addToArgs ?_ hafter
    exact hoverrides doc (List.mem_append_right _ List.mem_cons_self)

end Documented

/-! ## Arguments that can be told apart -/

/-- No two of the arguments have one name, in whatever form. -/
structure ArgsDistinct (args : List Member) : Prop where
  distinct : (args.map (·.name)).Nodup
  forms : ∀ arg ∈ args, ∀ lang form, arg.langs.overrides.get? lang = some form → form.name = arg.name

theorem ArgumentDoc.about_of_lastFor? {docs : List ArgumentDoc} {lang : Lang} {form : Member}
    (h : lastFor? docs lang = some form) : ∃ doc ∈ docs, doc.about = form.name ∧ doc.arg = form := by
  obtain ⟨doc, hdoc, rfl⟩ := Option.map_eq_some_iff.1 h
  obtain ⟨hmem, hnames⟩ := List.mem_filter.1 (List.mem_of_getLast? hdoc)
  refine ⟨doc, hmem, ?_, rfl⟩
  unfold ArgumentDoc.names at hnames
  split at hnames
  · rw [Bool.and_eq_true, Bool.not_eq_true'] at hnames
    rw [ArgumentDoc.about, hnames.1, if_neg Bool.false_ne_true]
  · cases hnames

theorem Documented.argsDistinct {docs : List ArgumentDoc} {args : List Member} (h : Documented docs args) :
    ArgsDistinct args := by
  refine ⟨h.distinct, fun arg harg lang form hform => ?_⟩
  obtain ⟨first, later, hdocs, -, hlater⟩ := h.documented arg harg
  rw [hlater] at hform
  obtain ⟨doc, hdoc, habout, -⟩ := ArgumentDoc.about_of_lastFor? hform
  have hmem : doc ∈ docs.filter (·.about = arg.name) := hdocs ▸ List.mem_cons_of_mem first hdoc
  rw [← habout]
  exact of_decide_eq_true (List.mem_filter.1 hmem).2

/-! ## Arguments of the model -/

theorem optionsLast_perm (args : List Member) : (optionsLast args).Perm args := by
  unfold optionsLast
  split
  · rename_i options hfind
    obtain ⟨hoptions, before, after, rfl, hbefore⟩ := List.find?_eq_some_iff_append.1 hfind
    have hnone : ∀ arg ∈ before, ¬ decide (arg.name = "options") = true := fun arg harg => by
      simpa using hbefore arg harg
    rw [List.eraseP_append_right _ hnone, 
      List.eraseP_cons_of_pos (p := fun arg : Member => decide (arg.name = "options")) hoptions, List.append_assoc]
    exact (List.perm_append_singleton options after).append_left before
  · exact .refl _

/-- The arguments of a member are put in order and linked, which keeps all that headings say. -/
theorem Documented.perm {docs : List ArgumentDoc} {args args' : List Member} (h : Documented docs args)
    (hperm : args'.Perm args) : Documented docs args' where
  distinct := (hperm.map _).nodup_iff.2 h.distinct
  present := fun doc hdoc => (hperm.map _).mem_iff.2 (h.present doc hdoc)
  documented := fun arg harg => h.documented arg (hperm.mem_iff.1 harg)

@[simp] theorem Member.linkArg_name (className : String) (method : Option String) (arg : Member) :
    (linkArg className method arg).name = arg.name := by
  unfold linkArg
  dsimp only
  split <;> rfl

@[simp] theorem Member.linkArg_langs (className : String) (method : Option String) (arg : Member) :
    (linkArg className method arg).langs = arg.langs := by
  unfold linkArg
  dsimp only
  split <;> rfl

theorem Documented.link {docs : List ArgumentDoc} {args : List Member} (h : Documented docs args)
    (className : String) (method : Option String) :
    Documented docs (args.map (Member.linkArg className method)) := by
  have hnames : (args.map (Member.linkArg className method)).map (·.name) = args.map (·.name) := by
    simp [Function.comp_def]
  refine ⟨hnames ▸ h.distinct, fun doc hdoc => hnames ▸ h.present doc hdoc, fun linked hlinked => ?_⟩
  obtain ⟨arg, harg, rfl⟩ := List.mem_map.1 hlinked
  rw [Member.linkArg_name, Member.linkArg_langs]
  exact h.documented arg harg

/-- The arguments of every member of a model are what the headings of its section say. -/
theorem Model.documented_ofDocuments {documents : List (List Markup.Node)} {model : Model}
    (h : Model.ofDocuments documents = .ok model) {cls : ApiClass} (hcls : cls ∈ model.classes) :
    List.Forall₂ (fun part member => Documented part.docs member.args)
      (MemberSection.ofClass cls.name (documents.flatMap declarations)) cls.members := by
  have hgiven := Model.given_ofDocuments h hcls
  obtain ⟨hlength, hgiven⟩ := List.forall₂_iff_zip.1 hgiven
  refine List.forall₂_iff_zip.2 ⟨hlength, fun {part member} hmem => ?_⟩
  obtain ⟨args, hargs, rfl⟩ := hgiven hmem
  have hread : ∀ doc ∈ part.docs, doc.arg.langs.overrides = .empty := fun doc hdoc => by
    obtain ⟨declaration, -, hdoc⟩ := MemberSection.read_of_mem_docs (List.of_mem_zip hmem).1 hdoc
    exact ArgumentDoc.overrides_of_read hdoc
  exact ((Documented.of_foldlM hread hargs).perm (optionsLast_perm args)).link _ _

end RefPages
