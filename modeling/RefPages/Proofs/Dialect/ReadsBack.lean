/-
Types written in JavaScript and read again. The brackets, commas, bars and colons of the text nest as
those of the type do, so that every part is read as it was written; what stands last in a list or in a
union may reach to its end.
-/
import RefPages.Proofs.Api.Spelled

namespace RefPages

open Relation Text TypeExpr ApiType

/-! ## Texts that are read as a type -/

/-- The text is read as the type, also as an entry of a list. -/
structure ReadsBack (text : List Char) (type : ApiType) : Prop where
  begins : ∃ c cs, text = c :: cs ∧ isBlank c = false ∧ c ∉ ['<', '(', '|', ',']
  entry : IsEntry text
  handsOn : type.Closed → HandsOn (outline text)
  unescaped : '\\' ∉ text
  reads : ofExpr false (readFrom [] none text) = .ok type

/-- The text is read as the type, also as an alternative of a union. -/
structure ReadsAlone (text : List Char) (type : ApiType) : Prop where
  union : (readFrom [] none text).union = none
  unionName : (readFrom [] none text).unionName = none
  literal : (readFrom [] none text).isLiteral = type.isLiteral
  bar : type.returns = none → ∀ rest, readFrom [] none (text ++ '|' :: rest) =
    { readFrom [] none text with union := some (readFrom [] none (trim rest)) }

/-! ## Names -/

theorem plain_of_isWordChar {c : Char} (h : isWordChar c = true) :
    c ∉ ['<', '>', '(', ')', '|', ',', '\\', '"'] := by
  intro hc
  simp only [List.mem_cons, List.not_mem_nil, or_false] at hc
  rcases hc with rfl | rfl | rfl | rfl | rfl | rfl | rfl | rfl <;> exact absurd h (by decide)

/-- A text that is read as a name: nothing in it has a meaning of its own. -/
structure IsPlain (text : List Char) : Prop where
  plain : ∀ c ∈ text, c ∉ ['<', '>', '(', ')', '|', ',', '\\']
  trimmed : trim text = text
  begins : ∃ c cs, text = c :: cs ∧ isBlank c = false

/-- A word between brackets or quotes. -/
theorem isPlain_of_word {opening closing : Char} {word : List Char} (h : IsWord word)
    (hends : opening = '[' ∧ closing = ']' ∨ opening = '"' ∧ closing = '"') :
    IsPlain (opening :: (word ++ [closing])) := by
  have hblank : isBlank opening = false ∧ isBlank closing = false := by
    rcases hends with ⟨rfl, rfl⟩ | ⟨rfl, rfl⟩
    · exact ⟨by decide, by decide⟩
    · exact ⟨by decide, by decide⟩
  refine ⟨fun c hc => ?_, trim_between hblank.1 hblank.2 [] word, opening, _, rfl, hblank.1⟩
  rw [List.mem_cons, List.mem_append, List.mem_singleton] at hc
  rcases hc with rfl | hc | rfl
  · rcases hends with ⟨rfl, -⟩ | ⟨rfl, -⟩ <;> decide
  · have := plain_of_isWordChar (h.2 c hc)
    simp_all
  · rcases hends with ⟨-, rfl⟩ | ⟨-, rfl⟩ <;> decide

namespace IsPlain

variable {text : List Char}

theorem readFrom_append (h : IsPlain text) (rest : List Char) :
    readFrom [] none (text ++ rest) = readFrom text none rest := by
  refine readFrom_chars (fun c hc hspecial => h.plain c hc ?_) [] none rest
  simp only [List.mem_cons, List.not_mem_nil, or_false] at hspecial ⊢
  tauto

theorem readFrom_eq (h : IsPlain text) : readFrom [] none text = TypeExpr.named (String.ofList text) := by
  have := h.readFrom_append []
  rw [List.append_nil] at this
  rw [this, readFrom_nil, Option.map_none, Option.getD_none, h.trimmed]
  rfl

theorem outlined (h : IsPlain text) : Outlined text text := by
  refine .of_plain fun c hc hbracket => h.plain c hc ?_
  simp only [List.mem_cons, List.not_mem_nil, or_false] at hbracket ⊢
  tauto

theorem not_mem (h : IsPlain text) {c : Char} (hc : c ∈ ['<', '>', '(', ')', '|', ',', '\\']) : c ∉ text :=
  fun hmem => h.plain c hmem hc

theorem begins_plain (h : IsPlain text) : ∃ c cs, text = c :: cs ∧ isBlank c = false ∧ c ∉ ['<', '(', '|', ','] := by
  obtain ⟨c, cs, rfl, hc⟩ := h.begins
  refine ⟨c, cs, rfl, hc, fun hspecial => h.plain c List.mem_cons_self ?_⟩
  simp only [List.mem_cons, List.not_mem_nil, or_false] at hspecial ⊢
  tauto

theorem handsOn (h : IsPlain text) : HandsOn text :=
  ⟨h.not_mem (by decide), fun hmem => h.not_mem (by decide) (List.mem_of_mem_dropLast hmem)⟩

theorem handsOn_append (h : IsPlain text) (out : List Char) : HandsOn (text ++ out) ↔ HandsOn out := by
  have hplain := h.plain
  clear h
  induction text with
  | nil => rfl
  | cons c cs ih =>
    rw [List.forall_mem_cons] at hplain
    have hbar : c ≠ '|' := by rintro rfl; exact hplain.1 (by decide)
    have hangle : c ≠ '>' := by rintro rfl; exact hplain.1 (by decide)
    exact (handsOn_cons hbar hangle).trans (ih hplain.2)

end IsPlain

theorem isEntry_of_outlined {cs out : List Char} (h : Outlined cs out) (hsingle : ',' ∉ out) :
    IsEntry cs ∧ outline cs = out := by
  have hout := Outlined.outlineFrom_eq_some.2 h
  have houtline : outline cs = out := by rw [outline, hout, Option.getD_some]
  exact ⟨⟨by rw [hout]; rfl, houtline ▸ hsingle⟩, houtline⟩

theorem headType_named (name : String) : headType (TypeExpr.named name) = ApiType.named name := by
  simp [headType, TypeExpr.named]

theorem headType_template (name : String) (first : TypeExpr) (union next : Option TypeExpr) :
    headType { TypeExpr.named name with template := some first, union, next } = do
      let type ← ApiType.named name
      let templates ← entriesOf (some first)
      return { type with templates } := by
  simp [headType, TypeExpr.named]

/-- A name alone. -/
theorem readsBack_plain {text : List Char} {type : ApiType} (h : IsPlain text)
    (hnamed : ApiType.named (String.ofList text) = .ok type) : ReadsBack text type := by
  obtain ⟨hentry, houtline⟩ := isEntry_of_outlined h.outlined (h.not_mem (by decide))
  have hunion : (TypeExpr.named (String.ofList text)).union = none := rfl
  refine ⟨h.begins_plain, hentry, fun _ => ?_, h.not_mem (by decide), ?_⟩
  · rw [houtline]
    exact h.handsOn
  · rw [h.readFrom_eq, ofExpr_single hunion, headType_named, hnamed]

theorem readsAlone_plain {text : List Char} {type : ApiType} (h : IsPlain text)
    (hliteral : isQuoted (String.ofList text) = type.isLiteral) : ReadsAlone text type := by
  have heq := h.readFrom_eq
  refine ⟨by rw [heq]; rfl, by rw [heq]; rfl, by rw [heq]; exact hliteral, fun _ rest => ?_⟩
  rw [h.readFrom_append, readFrom_link (.inl rfl), readLinks_bar, heq, h.trimmed]
  rfl

/-! ## Lists -/

theorem trim_ne_nil {c : Char} (hc : isBlank c = false) (cs : List Char) : trim (c :: cs) ≠ [] := by
  have hstart : trimStart (c :: cs) = c :: cs := List.dropWhile_cons_of_neg (by simp [hc])
  rw [trim, hstart, ← List.singleton_append, trimEnd_append]
  split
  · simp [trimEnd, trimStart, hc]
  · exact List.cons_ne_nil _ _

theorem ofList_trim_ne {c : Char} (hc : isBlank c = false) (cs : List Char) :
    String.ofList (trim (c :: cs)) ≠ "" := by
  intro h
  refine trim_ne_nil hc cs ?_
  rw [← String.toList_ofList (l := trim (c :: cs)), h]
  rfl

/-- What begins with a character of a name is read with a name. -/
theorem name_readFrom_ne {c : Char} (hc : isBlank c = false) {cs out : List Char} (h : Outlined cs out)
    (seen : List Char) (args : Option (List Char × TypeExpr))
    (hargs : ∀ named, args = some named → ∃ more, named.1 = c :: more) : (readFrom (c :: seen) args cs).name ≠ "" := by
  induction h generalizing seen args with
  | nil =>
    rw [readFrom_nil]
    cases args with
    | none => exact ofList_trim_ne hc seen
    | some named =>
      obtain ⟨more, hmore⟩ := hargs named rfl
      rw [Option.map_some, Option.getD_some, hmore]
      exact ofList_trim_ne hc more
  | @char d cs out hplain _ ih =>
    by_cases hlink : d = '|' ∨ d = ','
    · rw [readFrom_link hlink]
      exact ofList_trim_ne hc seen
    · rw [readFrom_char (by simp_all)]
      exact ih (seen ++ [d]) args hargs
  | @angles inside within cs out hinside _ _ _ =>
    rw [readFrom_angles hinside, withTemplate]
    split
    · -- an enum is called by its first literal
      rename_i henum
      obtain ⟨-, hliterals⟩ := Bool.and_eq_true_iff.1 henum
      have hfirst := List.all_eq_true.1 (Bool.and_eq_true_iff.1 hliterals).2
      rw [alternatives_eq, List.forall_mem_cons] at hfirst
      intro hname
      have hquoted : isQuoted (readFrom [] none (trim inside)).name = true := hfirst.1
      rw [show (readFrom [] none (trim inside)).name = "" from hname] at hquoted
      exact absurd hquoted (by decide)
    · exact ofList_trim_ne hc seen
  | @parens inside within cs out hinside _ _ ih =>
    cases cs with
    | nil =>
      rw [readFrom_parens_nil hinside]
      exact ofList_trim_ne hc seen
    | cons d rest =>
      rw [readFrom_parens_cons hinside]
      split
      · exact ofList_trim_ne hc seen
      split
      · exact ofList_trim_ne hc seen
      · refine ih (seen ++ '(' :: (inside ++ [')'])) (some (c :: seen, _)) ?_
        rintro named ⟨⟩
        exact ⟨seen, rfl⟩

theorem ReadsBack.name_ne {text : List Char} {type : ApiType} (h : ReadsBack text type) {rest out : List Char}
    (hrest : Outlined rest out) : (readFrom [] none (text ++ rest)).name ≠ "" := by
  obtain ⟨c, cs, rfl, hc, hspecial⟩ := h.begins
  have houtlined := h.entry.outlined.append hrest
  rw [List.cons_append] at houtlined ⊢
  rw [readFrom_char hspecial]
  generalize outline (c :: cs) ++ out = all, cs ++ rest = ds at houtlined ⊢
  cases houtlined with
  | char _ houtlined => exact name_readFrom_ne hc houtlined [] none nofun
  | angles => simp at hspecial
  | parens => simp at hspecial

theorem dropLast_of_forall₂ {α β : Type} {R : α → β → Prop} {as : List α} {bs : List β} (h : List.Forall₂ R as bs) :
    List.Forall₂ R as.dropLast bs.dropLast := by
  induction h with
  | nil => exact .nil
  | @cons a b as bs hfirst hrest ih =>
    cases hrest with
    | nil => exact .nil
    | cons => exact .cons hfirst ih

section

variable {texts : List (List Char)} {types : List ApiType}

theorem forall₂_trans {α β γ : Type} {R : α → β → Prop} {S : β → γ → Prop} {T : α → γ → Prop}
    (htrans : ∀ a b c, R a b → S b c → T a c) {as : List α} {bs : List β} {cs : List γ} (h : List.Forall₂ R as bs)
    (h' : List.Forall₂ S bs cs) : List.Forall₂ T as cs := by
  induction h generalizing cs with
  | nil =>
    cases h'
    exact .nil
  | cons hfirst _ ih =>
    cases h' with
    | cons hfirst' hrest => exact .cons (htrans _ _ _ hfirst hfirst') (ih hrest)

/-- The entries of a list are read one by one. -/
theorem entries_readsBack (h : List.Forall₂ ReadsBack texts types) (hne : types ≠ [])
    (hclosed : ∀ type ∈ types.dropLast, Closed type) :
    (∃ out, Outlined (listed texts) out) ∧ '\\' ∉ listed texts ∧
      (readFrom [] none (listed texts)).entries.mapM (ofExpr false) = .ok types ∧
      ∀ entry ∈ (readFrom [] none (listed texts)).entries, entry.name ≠ "" := by
  have hback : ∀ cs ∈ texts, ∃ type, ReadsBack cs type := fun cs hcs => by
    obtain ⟨type, -, htype⟩ := related_of_mem_left h hcs
    exact ⟨type, htype⟩
  have hentries : ∀ cs ∈ texts, IsEntry cs := fun cs hcs => (hback cs hcs).elim fun _ htype => htype.entry
  have htexts : texts ≠ [] := by
    rintro rfl
    exact hne (List.forall₂_nil_left_iff.1 h)
  have hon : ∀ cs ∈ texts.dropLast, HandsOn (outline cs) := fun cs hcs => by
    obtain ⟨type, hmem, htype⟩ := related_of_mem_left (dropLast_of_forall₂ h) hcs
    exact htype.handsOn (hclosed type hmem)
  refine ⟨exists_outlined_listed hentries, ?_, ?_, ?_⟩
  · exact not_mem_intercalate (by decide) fun cs hcs => (hback cs hcs).elim fun _ htype => htype.unescaped
  · rw [mapM_eq_ok]
    exact forall₂_trans (fun entry cs type hsame htype => hsame.trans htype.reads)
      (ofExpr_entries hentries htexts hon) h
  · refine (name_entries hentries hon htexts).2 ⟨fun cs hcs => ?_, fun cs hcs => ?_⟩
    · obtain ⟨type, htype⟩ := hback cs (List.mem_of_mem_dropLast hcs)
      exact htype.name_ne (.char (by decide) .nil)
    · obtain ⟨type, htype⟩ := hback cs (List.mem_of_getLast? hcs)
      have := htype.name_ne .nil
      rwa [List.append_nil] at this

end

/-! ## Types with parameters -/

/-- What has a type is taken for no enum. -/
theorem withTemplate_of_type {template : TypeExpr} {type : ApiType} (h : ofExpr false template = .ok type)
    (seen : List Char) (union next : Option TypeExpr) :
    withTemplate seen none template union next =
      { TypeExpr.named (String.ofList (trim seen)) with template := some template, union, next } := by
  rw [withTemplate, not_anonymous h, if_neg Bool.false_ne_true]
  rfl

section

variable {name : List Char} {texts : List (List Char)} {types : List ApiType}

theorem exists_first (h : (readFrom [] none (listed texts)).entries.mapM (ofExpr false) = .ok types) :
    ∃ first, ofExpr false (readFrom [] none (listed texts)) = .ok first := by
  rw [mapM_eq_ok, entries_eq] at h
  obtain ⟨first, -, hfirst, -⟩ := List.forall₂_cons_left_iff.1 h
  exact ⟨first, hfirst⟩

/-- A name with parameters and what follows. -/
theorem readFrom_parameters (hname : IsPlain name) (h : List.Forall₂ ReadsBack texts types) (hne : types ≠ [])
    (hclosed : ∀ type ∈ types.dropLast, Closed type) (rest : List Char) :
    readFrom [] none (name ++ '<' :: (listed texts ++ '>' :: rest)) =
      { TypeExpr.named (String.ofList name) with
        template := some (readFrom [] none (listed texts))
        union := (readLinks rest).1
        next := (readLinks rest).2 } := by
  obtain ⟨⟨out, hout⟩, -, hall, -⟩ := entries_readsBack h hne hclosed
  obtain ⟨first, hfirst⟩ := exists_first hall
  rw [hname.readFrom_append, readFrom_angles hout, readFrom_trim hout, Option.map_none, withTemplate_of_type hfirst,
    hname.trimmed]

theorem readsBack_parameters {type : ApiType} (hname : IsPlain name)
    (hnamed : ApiType.named (String.ofList name) = .ok type) (h : List.Forall₂ ReadsBack texts types)
    (hne : types ≠ []) (hclosed : ∀ type ∈ types.dropLast, Closed type) :
    ReadsBack (name ++ '<' :: (listed texts ++ ['>'])) { type with templates := some types } := by
  obtain ⟨⟨out, hout⟩, hescape, hall, -⟩ := entries_readsBack h hne hclosed
  have houtlined : Outlined (name ++ '<' :: (listed texts ++ ['>'])) (name ++ ['<', '>']) :=
    hname.outlined.append (.angles hout .nil)
  obtain ⟨hentry, houtline⟩ := isEntry_of_outlined houtlined (by
    have := hname.not_mem (show ',' ∈ _ by decide)
    simp_all)
  obtain ⟨c, cs, hbegins, hc, hspecial⟩ := hname.begins_plain
  refine ⟨⟨c, _, by rw [hbegins]; rfl, hc, hspecial⟩, hentry, fun _ => ?_, ?_, ?_⟩
  · rw [houtline, hname.handsOn_append]
    decide
  · have := hname.not_mem (show '\\' ∈ _ by decide)
    simp_all
  · rw [readFrom_parameters hname h hne hclosed, readLinks_nil]
    refine (ofExpr_single rfl).trans ?_
    rw [headType_template]
    refine bind_eq_ok.2 ⟨type, hnamed, bind_eq_ok.2 ⟨types, ?_, rfl⟩⟩
    rw [entriesOf_some, hall]

theorem readsAlone_parameters {type : ApiType} (hname : IsPlain name)
    (hliteral : isQuoted (String.ofList name) = type.isLiteral) (h : List.Forall₂ ReadsBack texts types)
    (hne : types ≠ []) (hclosed : ∀ type ∈ types.dropLast, Closed type) :
    ReadsAlone (name ++ '<' :: (listed texts ++ ['>'])) type := by
  have heq := readFrom_parameters hname h hne hclosed []
  rw [readLinks_nil] at heq
  refine ⟨by rw [heq], by rw [heq]; rfl, by rw [heq]; exact hliteral, fun _ rest => ?_⟩
  rw [List.append_assoc, List.cons_append, List.append_assoc, List.singleton_append,
    readFrom_parameters hname h hne hclosed, readLinks_bar, heq]

/-! ## Functions -/

/-- Arguments that all have a name are kept. -/
theorem argumentsOf_readsBack (h : List.Forall₂ ReadsBack texts types) (hne : types ≠ [])
    (hclosed : ∀ type ∈ types.dropLast, Closed type) :
    argumentsOf (some (readFrom [] none (listed texts))) = .ok types := by
  obtain ⟨-, -, hall, hnames⟩ := entries_readsBack h hne hclosed
  rw [argumentsOf_some, List.filter_eq_self.2 (by simpa using hnames), hall]

theorem readsBack_function (hname : IsPlain name) (h : List.Forall₂ ReadsBack texts types) (hne : types ≠ [])
    (hclosed : ∀ type ∈ types.dropLast, Closed type) :
    ReadsBack (name ++ '(' :: (listed texts ++ [')'])) { plain "function" with args := some types } := by
  obtain ⟨⟨out, hout⟩, hescape, -, -⟩ := entries_readsBack h hne hclosed
  have houtlined : Outlined (name ++ '(' :: (listed texts ++ [')'])) (name ++ ['(', ')']) :=
    hname.outlined.append (.parens hout .nil)
  obtain ⟨hentry, houtline⟩ := isEntry_of_outlined houtlined (by
    have := hname.not_mem (show ',' ∈ _ by decide)
    simp_all)
  obtain ⟨c, cs, hbegins, hc, hspecial⟩ := hname.begins_plain
  refine ⟨⟨c, _, by rw [hbegins]; rfl, hc, hspecial⟩, hentry, fun _ => ?_, ?_, ?_⟩
  · rw [houtline, hname.handsOn_append]
    decide
  · have := hname.not_mem (show '\\' ∈ _ by decide)
    simp_all
  · rw [hname.readFrom_append, readFrom_parens_nil hout, readFrom_trim hout]
    refine (ofExpr_function _ _ none none).trans ?_
    refine bind_eq_ok.2 ⟨types, argumentsOf_readsBack h hne hclosed, bind_eq_ok.2 ⟨none, ?_, rfl⟩⟩
    rw [ofExpr?]

theorem readsAlone_function (hname : IsPlain name) (hliteral : isQuoted (String.ofList name) = false)
    (h : List.Forall₂ ReadsBack texts types) (hne : types ≠ []) (hclosed : ∀ type ∈ types.dropLast, Closed type) :
    ReadsAlone (name ++ '(' :: (listed texts ++ [')'])) { plain "function" with args := some types } := by
  obtain ⟨⟨out, hout⟩, -, -, -⟩ := entries_readsBack h hne hclosed
  have heq : readFrom [] none (name ++ '(' :: (listed texts ++ [')'])) =
      { TypeExpr.named (String.ofList name) with args := some (readFrom [] none (listed texts)) } := by
    rw [hname.readFrom_append, readFrom_parens_nil hout, readFrom_trim hout, hname.trimmed]
  have hfunction : isQuoted "function" = false := by decide
  refine ⟨by rw [heq]; rfl, by rw [heq]; rfl, by rw [heq]; exact hliteral.trans hfunction.symm, fun _ rest => ?_⟩
  rw [List.append_assoc, List.cons_append, List.append_assoc, List.singleton_append, hname.readFrom_append,
    readFrom_parens_link hout (.inl rfl), readLinks_bar, readFrom_trim hout, hname.trimmed, heq]
  rfl

variable {result : List Char} {returns : ApiType}

theorem readsBack_result (hname : IsPlain name) (h : List.Forall₂ ReadsBack texts types) (hne : types ≠ [])
    (hclosed : ∀ type ∈ types.dropLast, Closed type) (hresult : ReadsBack result returns) :
    ReadsBack (name ++ '(' :: (listed texts ++ ')' :: ':' :: result))
      { plain "function" with args := some types, returns := some returns } := by
  obtain ⟨⟨out, hout⟩, hescape, -, -⟩ := entries_readsBack h hne hclosed
  have houtlined : Outlined (name ++ '(' :: (listed texts ++ ')' :: ':' :: result))
      (name ++ '(' :: ')' :: ':' :: outline result) :=
    hname.outlined.append (.parens hout (.char (by decide) hresult.entry.outlined))
  obtain ⟨hentry, houtline⟩ := isEntry_of_outlined houtlined (by
    have := hname.not_mem (show ',' ∈ _ by decide)
    have := hresult.entry.single
    simp_all)
  obtain ⟨c, cs, hbegins, hc, hspecial⟩ := hname.begins_plain
  refine ⟨⟨c, _, by rw [hbegins]; rfl, hc, hspecial⟩, hentry, fun hshut => ?_, ?_, ?_⟩
  · rw [houtline, hname.handsOn_append, handsOn_parens, handsOn_cons (by decide) (by decide)]
    exact hresult.handsOn ((closed_iff.1 hshut).2 returns rfl)
  · have := hname.not_mem (show '\\' ∈ _ by decide)
    have := hresult.unescaped
    simp_all
  · rw [hname.readFrom_append, readFrom_parens_returns hout, readFrom_trim hout, readFrom_trim hresult.entry.outlined]
    refine (ofExpr_function _ _ _ _).trans ?_
    refine bind_eq_ok.2 ⟨types, argumentsOf_readsBack h hne hclosed, bind_eq_ok.2 ⟨some returns, ?_, rfl⟩⟩
    rw [ofExpr?, ofExpr_next, hresult.reads]
    rfl

theorem readsAlone_result (hname : IsPlain name) (hliteral : isQuoted (String.ofList name) = false)
    (h : List.Forall₂ ReadsBack texts types) (hne : types ≠ []) (hclosed : ∀ type ∈ types.dropLast, Closed type) :
    ReadsAlone (name ++ '(' :: (listed texts ++ ')' :: ':' :: result))
      { plain "function" with args := some types, returns := some returns } := by
  obtain ⟨⟨out, hout⟩, -, -, -⟩ := entries_readsBack h hne hclosed
  have heq := (hname.readFrom_append _).trans (readFrom_parens_returns hout name none result)
  refine ⟨by rw [heq]; rfl, by rw [heq]; rfl, ?_, fun hnone => nomatch hnone⟩
  have hfunction : isQuoted "function" = false := by decide
  rw [heq, hname.trimmed]
  exact hliteral.trans hfunction.symm

end

/-! ## Unions -/

/-- Texts with bars between them. -/
def barred (texts : List (List Char)) : List Char := ['|'].intercalate texts

theorem barred_cons (cs : List Char) {texts : List (List Char)} (hne : texts ≠ []) :
    barred (cs :: texts) = cs ++ '|' :: barred texts := by
  rw [barred, List.intercalate_cons_of_ne_nil hne, List.append_assoc]
  rfl

/-- The text is read as the type, wherever it stands in a union. -/
def ReadsAmong (text : List Char) (type : ApiType) : Prop := ReadsBack text type ∧ ReadsAlone text type

theorem ReadsAmong.headType_eq {text : List Char} {type : ApiType} (h : ReadsAmong text type) :
    headType (readFrom [] none text) = .ok type := by
  rw [← ofExpr_single h.2.union]
  exact h.1.reads

section

variable {texts : List (List Char)} {types : List ApiType}

theorem exists_outlined_barred (h : List.Forall₂ ReadsAmong texts types) :
    ∃ out, Outlined (barred texts) out ∧ ',' ∉ out := by
  induction h with
  | nil => exact ⟨[], .nil, by simp⟩
  | @cons cs type texts types hfirst hrest ih =>
    have hentry := hfirst.1.entry
    by_cases hnil : texts = []
    · subst hnil
      rw [barred, List.intercalate_singleton]
      exact ⟨_, hentry.outlined, hentry.single⟩
    · obtain ⟨out, hout, hsingle⟩ := ih
      rw [barred_cons cs hnil]
      refine ⟨_, hentry.outlined.append (.char (by decide) hout), ?_⟩
      have := hentry.single
      simp_all

/-- An alternative before others is linked to them. -/
theorem readFrom_barred_cons {text : List Char} {type : ApiType} (hfirst : ReadsAmong text type)
    (h : List.Forall₂ ReadsAmong texts types) (hne : texts ≠ []) (hreturns : type.returns = none) :
    readFrom [] none (barred (text :: texts)) =
      { readFrom [] none text with union := some (readFrom [] none (barred texts)) } := by
  obtain ⟨out, hout, -⟩ := exists_outlined_barred h
  rw [barred_cons text hne, hfirst.2.bar hreturns, readFrom_trim hout]

/-- The alternatives are read one by one, and as literals when they are. -/
theorem alternatives_readsBack (h : List.Forall₂ ReadsAmong texts types) (hne : types ≠ [])
    (hresult : ∀ type ∈ types.dropLast, type.returns = none) :
    alternativesOf (some (readFrom [] none (barred texts))) = .ok types ∧
      (readFrom [] none (barred texts)).alternatives.all TypeExpr.isLiteral = types.all ApiType.isLiteral := by
  induction h with
  | nil => exact absurd rfl hne
  | @cons cs type texts types hfirst hrest ih =>
    by_cases hnil : texts = []
    · subst hnil
      cases hrest
      rw [barred, List.intercalate_singleton, alternatives_eq, hfirst.2.union]
      refine ⟨alternativesOf_some.2 (.inr ⟨hfirst.2.unionName, type, [], hfirst.headType_eq, ?_, rfl⟩), ?_⟩
      · rw [hfirst.2.union, alternativesOf]
      · rw [List.all_cons, List.all_cons, hfirst.2.literal]
        rfl
    · have htypes : types ≠ [] := by
        rintro rfl
        exact hnil (List.forall₂_nil_right_iff.1 hrest)
      rw [List.dropLast_cons_of_ne_nil htypes, List.forall_mem_cons] at hresult
      obtain ⟨hothers, hliterals⟩ := ih htypes hresult.2
      rw [readFrom_barred_cons hfirst hrest hnil hresult.1, alternatives_eq]
      refine ⟨alternativesOf_some.2 (.inr ⟨hfirst.2.unionName, type, types, hfirst.headType_eq, hothers, rfl⟩), ?_⟩
      rw [List.all_cons, List.all_cons, hliterals]
      exact congrArg (· && _) hfirst.2.literal

theorem readsBack_union {first : ApiType} {others : List ApiType}
    (h : List.Forall₂ ReadsAmong texts (first :: others)) (hne : others ≠ [])
    (hresult : ∀ type ∈ (first :: others).dropLast, type.returns = none)
    (hmixed : ∃ type ∈ first :: others, type.isLiteral = false) :
    ReadsBack (barred texts) (ofAlternatives "" (first :: others)) := by
  obtain ⟨out, hout, hsingle⟩ := exists_outlined_barred h
  obtain ⟨hentry, -⟩ := isEntry_of_outlined hout hsingle
  obtain ⟨-, hliterals⟩ := alternatives_readsBack h (List.cons_ne_nil _ _) hresult
  have hescape : '\\' ∉ barred texts := not_mem_intercalate (by decide) fun cs hcs => by
    obtain ⟨type, -, htype⟩ := related_of_mem_left h hcs
    exact htype.1.unescaped
  cases h with
  | @cons text _ texts _ hfirst hrest =>
    have htexts : texts ≠ [] := by
      rintro rfl
      exact hne (List.forall₂_nil_left_iff.1 hrest)
    rw [List.dropLast_cons_of_ne_nil hne, List.forall_mem_cons] at hresult
    obtain ⟨hothers, -⟩ := alternatives_readsBack hrest hne hresult.2
    have heq := readFrom_barred_cons hfirst hrest htexts hresult.1
    obtain ⟨c, cs, hbegins, hc, hspecial⟩ := hfirst.1.begins
    refine ⟨⟨c, _, by rw [barred_cons text htexts, hbegins]; rfl, hc, hspecial⟩, hentry, fun hclosed => ?_, hescape, ?_⟩
    · cases (closed_iff.1 hclosed).1
    · have hunion : (readFrom [] none (barred (text :: texts))).union = some (readFrom [] none (barred texts)) := by
        rw [heq]
      have hname : (readFrom [] none (barred (text :: texts))).unionName = none := by
        rw [heq]
        exact hfirst.2.unionName
      have hhead : headType (readFrom [] none (barred (text :: texts))) = .ok first := by
        rw [heq]
        exact hfirst.headType_eq
      refine (ofExpr_union hunion).2 ⟨first, others, hhead, hothers, ?_, ?_⟩
      · -- not all of them are literals, and so none of the expressions is an enum
        obtain ⟨type, hmem, hnot⟩ := hmixed
        have hall : (first :: others).all ApiType.isLiteral = false := by
          rw [← Bool.not_eq_true, List.all_eq_true]
          intro hall
          rw [hall type hmem] at hnot
          cases hnot
        rw [TypeExpr.isLiteralUnion, hliterals, hall, Bool.and_false, Bool.and_false]
      · rw [hname]
        rfl

end

end RefPages
