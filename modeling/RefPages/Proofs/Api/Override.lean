/-
Whether a language gets its own form of an argument. The first heading about an argument decides
which languages have it at all, and only then are later headings consulted. So a form that is
documented for a language takes effect exactly when the first heading leaves the argument to the
language: a form for a language that the first heading leaves out is lost.
-/
import Mathlib
import RefPages.Api.Equality
import RefPages.Proofs.Api.Forms

namespace RefPages

/-! ## One argument -/

section

variable {docs later : List ArgumentDoc} {args : List Member} {first copy : ArgumentDoc} {name : String}
  {lang : Lang}

/-- What a language has of an argument for which a later heading gives its form. -/
theorem Documented.inSignature?_eq (h : Documented docs args)
    (hdocs : docs.filter (·.about = name) = first :: later)
    (hcopy : (later.filter (·.names lang)).getLast? = some copy) {arg : Member} (harg : arg ∈ args)
    (hname : arg.name = name) :
    arg.inSignature? lang =
      if first.rules.includes lang ∧ ¬ (copy.arg.forLang lang).isEmptyOptions then
        some (copy.arg.forLang lang)
      else none := by
  obtain ⟨first', later', hdocs', honly, hforms⟩ := h.documented arg harg
  rw [hname, hdocs, List.cons.injEq] at hdocs'
  obtain ⟨rfl, rfl⟩ := hdocs'
  have hform : arg.override? lang = some (copy.arg.forLang lang) := by
    rw [Member.override?_eq, hforms, ArgumentDoc.lastFor?, hcopy]
    rfl
  have hincludes : arg.langs.includes lang = first.rules.includes lang := by
    rw [LangRules.includes, LangRules.includes, honly]
  rw [Member.inSignature?, hincludes, hform, Option.getD_some]
  by_cases hfirst : first.rules.includes lang = true
  · by_cases hempty : (copy.arg.forLang lang).isEmptyOptions = true
    · simp [hfirst, hempty]
    · simp [hfirst, hempty]
  · simp [hfirst]

/-- What a language has of the argument of a name is what it has of the one argument that headings
are about. -/
theorem Documented.mem_argsForLang (h : Documented docs args)
    (hdocs : docs.filter (·.about = name) = first :: later)
    (hcopy : (later.filter (·.names lang)).getLast? = some copy) {shown : Member} :
    shown ∈ argsForLang lang args ∧ shown.name = name ↔
      (first.rules.includes lang ∧ ¬ (copy.arg.forLang lang).isEmptyOptions) ∧
        shown = copy.arg.forLang lang := by
  have hfirst : first ∈ docs.filter (·.about = name) := hdocs ▸ List.mem_cons_self
  obtain ⟨hmem, habout⟩ := List.mem_filter.1 hfirst
  obtain ⟨arg, harg, hname⟩ := List.mem_map.1 (h.present first hmem)
  replace hname : arg.name = name := hname.trans (of_decide_eq_true habout)
  have hsignature := h.inSignature?_eq hdocs hcopy harg hname
  rw [argsForLang_eq, List.mem_filterMap]
  constructor
  · rintro ⟨⟨other, hother, hshown⟩, hsame⟩
    rw [h.argsDistinct.name_inSignature? hother hshown] at hsame
    have : other = arg := List.inj_on_of_nodup_map h.distinct hother harg (hsame.trans hname.symm)
    rw [this, hsignature] at hshown
    split at hshown
    · cases hshown
      exact ⟨‹_›, rfl⟩
    · cases hshown
  · rintro ⟨hhas, rfl⟩
    rw [if_pos hhas] at hsignature
    exact ⟨⟨arg, harg, hsignature⟩, (h.argsDistinct.name_inSignature? harg hsignature).trans hname⟩

end

/-! ## Models -/

/-- An argument that a later heading documents for a language is in the method of the language's
model exactly when the first heading about it leaves it to the language, a form without any options
aside. If it is there, it is what the last heading for the language says. -/
theorem Model.override_shown_iff {documents : List (List Markup.Node)} {model filtered : Model}
    {lang : Lang} {style : OverloadStyle} (hmodel : Model.ofDocuments documents = .ok model)
    (hfiltered : model.inLang lang style = .ok filtered) {cls : ApiClass} (hcls : cls ∈ model.classes)
    (hclass : cls.langs.includes lang = true) {part : MemberSection} {member : Member}
    (hmember : (part, member) ∈
      (MemberSection.ofClass cls.name (documents.flatMap declarations)).zip cls.members)
    (hlang : member.langs.includes lang = true) {name : String} {first copy : ArgumentDoc}
    {later : List ArgumentDoc} (hdocs : part.docs.filter (·.about = name) = first :: later)
    (hcopy : (later.filter (·.names lang)).getLast? = some copy) :
    ∃ kept ∈ filtered.classes, kept.name = cls.name ∧
      ∃ seen, member.inLang lang style = .ok seen ∧ seen.inClass cls.name ∈ kept.members ∧
        ((∃ arg ∈ (seen.inClass cls.name).args, arg.name = name) ↔
          first.rules.includes lang ∧ ¬ (copy.arg.forLang lang).isEmptyOptions) ∧
        ∀ arg ∈ (seen.inClass cls.name).args, arg.name = name →
          ∃ form, Member.inForm lang style member (copy.arg.forLang lang) = .ok form ∧
            arg = Member.linkArg cls.name (member.methodIn cls.name) form := by
  have hmem : member ∈ cls.members := (List.of_mem_zip hmember).2
  have hdocumented : Documented part.docs member.args :=
    (List.forall₂_iff_zip.1 (Model.documented_ofDocuments hmodel hcls)).2 hmember
  have hshown := fun shown => @Documented.mem_argsForLang _ _ _ _ _ _ _ hdocumented hdocs hcopy shown
  obtain ⟨kept, hkept, hcls⟩ := related_of_mem_left (Model.inLang_eq_ok hfiltered)
    (List.mem_filter.2 ⟨hcls, hclass⟩)
  obtain ⟨members, hmembers, hname, -, hlinked⟩ := ApiClass.inLang_eq_ok hcls
  obtain ⟨seen, hseen, hinLang⟩ := related_of_mem_left hmembers (List.mem_filter.2 ⟨hmem, hlang⟩)
  obtain ⟨args, hforms, hargs, -⟩ := Member.inLang_eq_ok hdocumented.argsDistinct hinLang cls.name
  refine ⟨kept, hkept, hname, seen, hinLang, ?_, ?_, ?_⟩
  · rw [hlinked]
    exact List.mem_map_of_mem hseen
  · rw [hargs]
    constructor
    · rintro ⟨arg, harg, hsame⟩
      obtain ⟨form, hform, rfl⟩ := List.mem_map.1 harg
      obtain ⟨shown, hmem, hshown'⟩ := related_of_mem_right hforms hform
      rw [Member.linkArg_name, Member.name_inForm hshown'] at hsame
      exact ((hshown shown).1 ⟨hmem, hsame⟩).1
    · intro hhas
      obtain ⟨hmem, hsame⟩ := (hshown _).2 ⟨hhas, rfl⟩
      obtain ⟨form, hform, hshown'⟩ := related_of_mem_left hforms hmem
      refine ⟨_, List.mem_map_of_mem hform, ?_⟩
      rw [Member.linkArg_name, Member.name_inForm hshown', hsame]
  · rw [hargs]
    intro arg harg hsame
    obtain ⟨form, hform, rfl⟩ := List.mem_map.1 harg
    obtain ⟨shown, hmem, hshown'⟩ := related_of_mem_right hforms hform
    rw [Member.linkArg_name, Member.name_inForm hshown'] at hsame
    obtain ⟨-, rfl⟩ := (hshown shown).1 ⟨hmem, hsame⟩
    exact ⟨form, hshown', rfl⟩

/-! ## A method whose argument is documented twice -/

deriving instance DecidableEq for ArgumentDoc, MemberSection

/-- The documents of such a method: its argument comes first with these bullets, then for Java. -/
def documentedTwice (bullets : List Markup.Node) : List Markup.Node :=
  [.heading 1 "class: A" [.heading 2 "method: A.a" [
    .heading 3 "param: A.a.x" (bullets ++ [.item .dash "`x` <[string]>" []]),
    .heading 3 "param: A.a.x" [.item .star "langs: java" [], .item .dash "`x` <[int]>" []]]]]

/-- What only one language has. -/
def LangRules.onlyIn (lang : Lang) : LangRules := { LangRules.everywhere with only := some [lang] }

/-- The argument in one of its forms. -/
def twiceArg (type : String) (langs : LangRules) : Member :=
  { Member.property "x" { ApiType.plain type with expression := some ("[" ++ type ++ "]") } true with
    langs }

/-- The model of a method with these arguments. -/
def twiceModel (args : List Member) : Model :=
  ⟨[ApiClass.ofMembers "A" none
    [{ Member.ofName .method "a" (some (ApiType.plain "void")) with args }]]⟩

/-- The section of the method, with rules for the languages that have the argument. -/
def twiceSection (langs : LangRules) : MemberSection where
  member := Member.ofName .method "a" (some (ApiType.plain "void"))
  docs :=
    [⟨"param: A.a.x", "A", "a", false, twiceArg "string" langs⟩,
      ⟨"param: A.a.x", "A", "a", false, twiceArg "int" (.onlyIn .java)⟩]

/-- The argument with its form for Java. -/
def twiceMerged (langs : LangRules) : Member :=
  twiceArg "string"
    { langs with overrides := PerLang.empty.insert .java (twiceArg "int" (.onlyIn .java)) }

/-- An argument for all languages is shown to Java in the form for Java. -/
theorem Model.override_shown_java :
    Model.ofDocuments [documentedTwice []] = .ok (twiceModel [twiceMerged .everywhere]) ∧
      (twiceModel [twiceMerged .everywhere]).inLang .java .separate =
        .ok (twiceModel [twiceArg "int" (.onlyIn .java)]) ∧
      ∃ kept ∈ (twiceModel [twiceArg "int" (.onlyIn .java)]).classes, ∃ member ∈ kept.members,
        ∃ arg ∈ member.args, arg.name = "x" := by
  have hmodel : Model.ofDocuments [documentedTwice []] = .ok (twiceModel [twiceMerged .everywhere]) := by
    decide +kernel
  have hfiltered : (twiceModel [twiceMerged .everywhere]).inLang .java .separate =
      .ok (twiceModel [twiceArg "int" (.onlyIn .java)]) := by
    decide +kernel
  have hsections : MemberSection.ofClass "A" ([documentedTwice []].flatMap declarations) =
      [twiceSection .everywhere] := by
    decide +kernel
  have hdocs : (twiceSection .everywhere).docs.filter (·.about = "x") =
      (twiceSection .everywhere).docs := by
    decide +kernel
  have hnames : (twiceArg "int" (.onlyIn .java)).name ≠ "options" := by decide
  refine ⟨hmodel, hfiltered, ?_⟩
  obtain ⟨kept, hkept, -, seen, -, hseen, hshown, -⟩ :=
    Model.override_shown_iff hmodel hfiltered List.mem_cons_self rfl
      (by
        show _ ∈ (MemberSection.ofClass "A" ([documentedTwice []].flatMap declarations)).zip _
        rw [hsections]
        exact List.mem_cons_self)
      rfl hdocs rfl
  refine ⟨kept, hkept, _, hseen, hshown.2 ⟨rfl, Member.not_isEmptyOptions ?_⟩⟩
  rw [Member.forLang_name]
  exact hnames

/-- An argument for JavaScript alone is lost to Java, whatever is documented for it. -/
theorem Model.override_lost_java :
    let documents := [documentedTwice [.item .star "langs: js" []]]
    Model.ofDocuments documents = .ok (twiceModel [twiceMerged (.onlyIn .js)]) ∧
      MemberSection.ofClass "A" (documents.flatMap declarations) = [twiceSection (.onlyIn .js)] ∧
      (twiceModel [twiceMerged (.onlyIn .js)]).inLang .java .separate = .ok (twiceModel []) ∧
      ∀ cls ∈ (twiceModel []).classes, ∀ member ∈ cls.members, member.args = [] := by
  intro documents
  refine ⟨by decide +kernel, by decide +kernel, by decide +kernel, ?_⟩
  intro cls hcls member hmember
  rw [List.mem_singleton.1 hcls] at hmember
  rw [List.mem_singleton.1 hmember]
  rfl

end RefPages
