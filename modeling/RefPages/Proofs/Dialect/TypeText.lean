/-
The text of a type in JavaScript. Every name is written in brackets or is a literal, and arguments,
parameters, results and alternatives stand where the reader looks for them: a type that JavaScript can
spell is read from its text as it was.
-/
import RefPages.Api.Equality
import RefPages.Dialect.TypeText
import RefPages.Proofs.Dialect.ReadsBack

namespace RefPages

open Relation Text TypeExpr ApiType

/-! ## Names -/

theorem isPlain_bracketed {name : String} (h : IsWord name.toList) : IsPlain (bracketed name).toList := by
  have hchars : (bracketed name).toList = '[' :: (name.toList ++ [']']) := by simp [bracketed]
  rw [hchars]
  exact isPlain_of_word h (.inl ⟨rfl, rfl⟩)

theorem isPlain_quoted {name : String} (h : IsQuotedName name) : IsPlain name.toList := by
  obtain ⟨word, hword, hname⟩ := h
  rw [hname]
  exact isPlain_of_word hword (.inr ⟨rfl, rfl⟩)

theorem withoutBrackets_bracketed (name : String) : withoutBrackets (bracketed name) = name := by
  have hchars : (bracketed name).toList = '[' :: (name.toList ++ [']']) := by simp [bracketed]
  have htrim : trim ('[' :: (name.toList ++ [']'])) = '[' :: (name.toList ++ [']']) :=
    trim_between (by decide) (by decide) [] name.toList
  have hafter : after? ['['] ('[' :: (name.toList ++ [']'])) = some (name.toList ++ [']']) :=
    after?_eq_some_iff.2 rfl
  have hbefore : before? [']'] (name.toList ++ [']']) = some name.toList := before?_eq_some_iff.2 rfl
  rw [withoutBrackets, hchars, htrim]
  simp only [hafter, Option.getD_some, hbefore, String.ofList_toList]

theorem named_of_withoutBrackets {text name : String} (h : withoutBrackets text = name) (hnumber : name ≠ "number") :
    ApiType.named text = .ok (ofName name) := by
  rw [ApiType.named, h]
  exact if_neg hnumber

theorem isQuoted_of_isWord {name : String} (h : IsWord name.toList) : isQuoted name = false := by
  rw [← Bool.not_eq_true, isQuoted_iff]
  rintro ⟨word, hword⟩
  rw [hword] at h
  exact plain_of_isWordChar (h.2 '"' List.mem_cons_self) (by decide)

theorem isQuoted_bracketed (name : String) : isQuoted (bracketed name) = false := by
  rw [← Bool.not_eq_true, isQuoted_iff]
  rintro ⟨word, hword⟩
  have hchars : (bracketed name).toList = '[' :: (name.toList ++ [']']) := by simp [bracketed]
  rw [hchars] at hword
  exact absurd (List.cons.inj hword).1 (by decide)

theorem toList_listed (texts : List String) : (", ".intercalate texts).toList = listed (texts.map String.toList) :=
  String.toList_intercalate

theorem toList_barred (texts : List String) : ("|".intercalate texts).toList = barred (texts.map String.toList) :=
  String.toList_intercalate

/-- The text is read as the type, also as an alternative of a union when the type is none itself. -/
def Spells (text : List Char) (type : ApiType) : Prop :=
  ReadsBack text type ∧ (type.union = none → ReadsAlone text type)

theorem spells_ofName {name : String} (hname : IsName name) (hnumber : name ≠ "number") :
    Spells (bracketed name).toList (ofName name) := by
  have hplain := isPlain_bracketed hname.1
  refine ⟨readsBack_plain hplain ?_, fun _ => readsAlone_plain hplain ?_⟩
  · rw [String.ofList_toList]
    exact named_of_withoutBrackets (withoutBrackets_bracketed name) hnumber
  · rw [String.ofList_toList, isQuoted_bracketed]
    exact (isQuoted_of_isWord hname.1).symm

theorem spells_literal {name : String} (hname : IsQuotedName name) : Spells name.toList (plain name) := by
  have hplain := isPlain_quoted hname
  have hnumber : name ≠ "number" := by
    rintro rfl
    exact absurd hname.isQuoted (by decide)
  refine ⟨readsBack_plain hplain ?_, fun _ => readsAlone_plain hplain ?_⟩
  · rw [String.ofList_toList, ← hname.ofName_eq]
    exact named_of_withoutBrackets (withoutBrackets_of_quoted hname.isQuoted) hnumber
  · rw [String.ofList_toList]
    rfl

theorem listed_ne_nil {texts : List (List Char)} {types : List ApiType} (h : List.Forall₂ ReadsBack texts types)
    (hne : types ≠ []) : listed texts ≠ [] := by
  cases h with
  | nil => exact absurd rfl hne
  | @cons text type texts types hfirst _ =>
    obtain ⟨c, cs, hbegins, -⟩ := hfirst.begins
    subst hbegins
    cases texts <;> simp [listed, List.intercalate]

namespace Dialect

section

variable {dialect : Dialect} {direction : Direction} {member : Member}

theorem jsName_eq {name : String} (h : name ∉ ["int", "float", "path"]) : jsName name = bracketed name := by
  unfold jsName
  split <;> simp_all

theorem typeTexts_eq_ok {types : List ApiType} {P : List Char → ApiType → Prop}
    (h : ∀ type ∈ types, ∃ text, dialect.typeText direction member type = .ok text ∧ P text.toList type) :
    ∃ texts, dialect.typeTexts direction member types = .ok texts ∧
      List.Forall₂ P (texts.map String.toList) types := by
  induction types with
  | nil => exact ⟨[], by rw [typeTexts], .nil⟩
  | cons type types ih =>
    rw [List.forall_mem_cons] at h
    obtain ⟨text, htext, hfirst⟩ := h.1
    obtain ⟨texts, htexts, hrest⟩ := ih h.2
    refine ⟨text :: texts, ?_, .cons hfirst hrest⟩
    rw [typeTexts]
    exact bind_eq_ok.2 ⟨text, htext, bind_eq_ok.2 ⟨texts, htexts, rfl⟩⟩

variable (hjs : dialect.lang = .js)

include hjs

theorem keptTexts_eq_ok {types : List ApiType} {P : List Char → ApiType → Prop}
    (h : ∀ type ∈ types, ∃ text, dialect.typeText direction member type = .ok text ∧ P text.toList type) :
    ∃ texts, dialect.keptTexts direction member types = .ok texts ∧
      List.Forall₂ P (texts.map String.toList) types := by
  have hkeeps : ∀ type, dialect.keeps type = true := fun type => by rw [keeps, hasEnums, hjs]; rfl
  induction types with
  | nil => exact ⟨[], by rw [keptTexts], .nil⟩
  | cons type types ih =>
    rw [List.forall_mem_cons] at h
    obtain ⟨text, htext, hfirst⟩ := h.1
    obtain ⟨texts, htexts, hrest⟩ := ih h.2
    refine ⟨text :: texts, ?_, .cons hfirst hrest⟩
    rw [keptTexts, if_pos (hkeeps type)]
    exact bind_eq_ok.2 ⟨text, htext, bind_eq_ok.2 ⟨texts, htexts, rfl⟩⟩

/-- A name is written in brackets, with its parameters behind it. -/
theorem typeText_name {name : String} (hname : IsName name) (hfunction : name ≠ "function")
    (templates : Option (List ApiType)) :
    dialect.typeText direction member { ofName name with templates } = do
      let inner ← dialect.typeTexts? direction member templates
      return bracketed name ++ if templates.isSome then "<" ++ ", ".intercalate inner ++ ">" else "" := by
  have hliteral : isQuoted name = false := isQuoted_of_isWord hname.1
  rw [ofName, plain, typeText]
  simp [ApiType.isLiteral, ApiType.isFunction, hliteral, hfunction, typeName, templateText, hjs, jsName_eq hname.2]
  rfl

/-- A function is written with its arguments and its result. -/
theorem typeText_function (args : Option (List ApiType)) (returns : Option ApiType) :
    dialect.typeText direction member { plain "function" with args, returns } = do
      let texts ← dialect.typeTexts? direction member args
      let result ← dialect.resultText? direction member returns
      return dialect.functionText (", ".intercalate texts) result { plain "function" with args, returns } := by
  have hliteral : isQuoted "function" = false := by decide
  rw [plain, typeText]
  simp [ApiType.isLiteral, ApiType.isFunction, hliteral, callbackInterface?, arityFault?, maxArity?, showsArguments,
    hjs]

/-- The text of a function. -/
theorem functionText_js (args : String) (result : Option String) (type : ApiType) :
    dialect.functionText args result type =
      bracketed "function" ++ (if args = "" then "" else "(" ++ args ++ ")") ++
        match result with
        | some result => ":" ++ result
        | none => "" := by
  obtain ⟨lang, known⟩ := dialect
  cases hjs
  rfl

/-- A name alone is written in brackets, also when it is that of a function. -/
theorem typeText_ofName {name : String} (hname : IsName name) :
    dialect.typeText direction member (ofName name) = .ok (bracketed name) := by
  by_cases hfunction : name = "function"
  · subst hfunction
    refine (typeText_function hjs none none).trans ?_
    rw [typeTexts?, resultText?]
    refine congrArg Except.ok ((functionText_js hjs _ _ _).trans ?_)
    simp
  · refine (typeText_name hjs hname hfunction none).trans ?_
    rw [typeTexts?]
    exact congrArg Except.ok (by simp)

/-- Parameters are written behind the name, with commas between them. -/
theorem spells_parameters {name : String} {types : List ApiType} (hname : IsName name) (hnumber : name ≠ "number")
    (hfunction : name ≠ "function") (hne : types ≠ []) (hclosed : ∀ type ∈ types.dropLast, Closed type)
    (h : ∀ type ∈ types, ∃ text, dialect.typeText direction member type = .ok text ∧ Spells text.toList type) :
    ∃ text, dialect.typeText direction member { ofName name with templates := some types } = .ok text ∧
      Spells text.toList { ofName name with templates := some types } := by
  obtain ⟨texts, htexts, hall⟩ := typeTexts_eq_ok h
  have hback := hall.imp fun _ _ => And.left
  have hplain := isPlain_bracketed hname.1
  have hnamed := named_of_withoutBrackets (withoutBrackets_bracketed name) hnumber
  have hliteral : isQuoted (bracketed name) = isQuoted name := by
    rw [isQuoted_bracketed, isQuoted_of_isWord hname.1]
  refine ⟨bracketed name ++ ("<" ++ ", ".intercalate texts ++ ">"), ?_, ?_⟩
  · rw [typeText_name hjs hname hfunction, typeTexts?, htexts]
    exact congrArg Except.ok (by simp)
  · have htext : (bracketed name ++ ("<" ++ ", ".intercalate texts ++ ">")).toList =
        (bracketed name).toList ++ '<' :: (listed (texts.map String.toList) ++ ['>']) := by
      rw [String.toList_append, String.toList_append, String.toList_append, toList_listed]
      rfl
    rw [htext]
    rw [← String.ofList_toList (s := bracketed name)] at hnamed hliteral
    exact ⟨readsBack_parameters hplain hnamed hback hne hclosed,
      fun _ => readsAlone_parameters hplain hliteral hback hne hclosed⟩

/-- The arguments of a function are written in parentheses, and its result behind a colon. -/
theorem spells_function {types : List ApiType} {returns : Option ApiType} (hne : types ≠ [])
    (hclosed : ∀ type ∈ types.dropLast, Closed type)
    (h : ∀ type ∈ types, ∃ text, dialect.typeText direction member type = .ok text ∧ Spells text.toList type)
    (hreturns : ∀ result, returns = some result →
      ∃ text, dialect.typeText direction member result = .ok text ∧ Spells text.toList result) :
    ∃ text, dialect.typeText direction member { plain "function" with args := some types, returns } = .ok text ∧
      Spells text.toList { plain "function" with args := some types, returns } := by
  obtain ⟨texts, htexts, hall⟩ := typeTexts_eq_ok h
  have hback := hall.imp fun _ _ => And.left
  have hplain : IsPlain (bracketed "function").toList := isPlain_bracketed (by decide)
  have hliteral : isQuoted (String.ofList (bracketed "function").toList) = false := by
    rw [String.ofList_toList, isQuoted_bracketed]
  have hargs : ", ".intercalate texts ≠ "" := by
    intro hempty
    refine listed_ne_nil hback hne ?_
    rw [← toList_listed, hempty]
    rfl
  cases returns with
  | none =>
    refine ⟨bracketed "function" ++ ("(" ++ ", ".intercalate texts ++ ")"), ?_, ?_⟩
    · rw [typeText_function hjs, typeTexts?, htexts, resultText?]
      refine congrArg Except.ok ((functionText_js hjs _ _ _).trans ?_)
      rw [if_neg hargs]
      exact String.append_empty
    · have htext : (bracketed "function" ++ ("(" ++ ", ".intercalate texts ++ ")")).toList =
          (bracketed "function").toList ++ '(' :: (listed (texts.map String.toList) ++ [')']) := by
        rw [String.toList_append, String.toList_append, String.toList_append, toList_listed]
        rfl
      rw [htext]
      exact ⟨readsBack_function hplain hback hne hclosed,
        fun _ => readsAlone_function hplain hliteral hback hne hclosed⟩
  | some result =>
    obtain ⟨resultText, hresultText, hresult⟩ := hreturns result rfl
    refine ⟨bracketed "function" ++ ("(" ++ ", ".intercalate texts ++ ")") ++ (":" ++ resultText), ?_, ?_⟩
    · rw [typeText_function hjs, typeTexts?, htexts, resultText?, showsResult, hjs, hresultText]
      refine congrArg Except.ok ((functionText_js hjs _ _ _).trans ?_)
      rw [if_neg hargs]
    · have htext : (bracketed "function" ++ ("(" ++ ", ".intercalate texts ++ ")") ++ (":" ++ resultText)).toList =
          (bracketed "function").toList ++
            '(' :: (listed (texts.map String.toList) ++ ')' :: ':' :: resultText.toList) := by
        rw [String.toList_append, String.toList_append, String.toList_append, String.toList_append,
          String.toList_append, toList_listed]
        simp
      rw [htext]
      exact ⟨readsBack_result hplain hback hne hclosed hresult.1,
        fun _ => readsAlone_result hplain hliteral hback hne hclosed⟩

/-- JavaScript writes every type that can be spelled so that it is read again. -/
theorem typeText_spells {type : ApiType} (h : Spelled type) :
    ∃ text, dialect.typeText direction member type = .ok text ∧ Spells text.toList type := by
  induction h with
  | name hname hnumber => exact ⟨_, typeText_ofName hjs hname, spells_ofName hname hnumber⟩
  | @literal name hname =>
    refine ⟨name, ?_, spells_literal hname⟩
    rw [plain, typeText]
    exact if_pos hname.isQuoted
  | parameters hname hnumber hfunction hne _ hclosed ih =>
    exact spells_parameters hjs hname hnumber hfunction hne hclosed ih
  | function hne _ hclosed _ ih ihReturns => exact spells_function hjs hne hclosed ih ihReturns
  | @union first others hne _ hlone hresult hmixed ih =>
    have hamong : ∀ type ∈ first :: others,
        ∃ text, dialect.typeText direction member type = .ok text ∧ ReadsAmong text.toList type := by
      intro type htype
      obtain ⟨text, htext, hback, halone⟩ := ih type htype
      exact ⟨text, htext, hback, halone (hlone type htype)⟩
    obtain ⟨texts, htexts, hall⟩ := keptTexts_eq_ok hjs hamong
    refine ⟨"|".intercalate texts, ?_, ?_, (by rintro ⟨⟩)⟩
    · rw [ofAlternatives, plain, typeText, htexts]
      refine congrArg Except.ok ?_
      rw [unionText, hasEnums, hjs]
      rfl
    · rw [toList_barred]
      exact readsBack_union hall hne hresult hmixed

/-- The text of a type does not depend on the expression that it was read from. -/
theorem typeText_bare (type : ApiType) :
    dialect.typeText direction member (bare type) = dialect.typeText direction member type := by
  obtain ⟨name, properties, union, args, returns, templates, expression⟩ := type
  cases union with
  | some union => rw [bare, typeText, typeText]
  | none =>
    rw [bare, typeText, typeText]
    simp only [ApiType.isLiteral, ApiType.isFunction, functionText_js hjs, typeName, hjs]

/-- A type that is read from an expression is written in JavaScript so that it is read again, when all names
in it are words or literals, literals have neither parameters nor arguments, and a function has an argument or
nothing at all. -/
theorem parse_typeText {expression : String} {type : ApiType} (h : parse expression [] = .ok type)
    (hwritable : Throughout Writable type) (henums : PlainEnums (TypeExpr.read (TypeExpr.unescape expression))) :
    ∃ text, dialect.typeText direction member type = .ok text ∧
      parse text [] = .ok { type with expression := some text } := by
  have hspelled := (gives (formed_read _) henums _ (ofExpr_of_parse h) hwritable.bare).1
  obtain ⟨text, htext, hback, -⟩ := @typeText_spells dialect direction member hjs _ hspelled
  refine ⟨text, (typeText_bare hjs type).symm.trans htext, parse_eq_ok.2 ⟨bare type, ?_, rfl⟩⟩
  rw [read_unescape, unescapeChars_eq_self hback.unescaped, readFrom_trim hback.entry.outlined, hback.reads]

end

section

variable {types : List ApiType} {expression : Option String}

theorem throughout_function {returns : Option ApiType} (hne : types ≠ [])
    (htypes : ∀ type ∈ types, Throughout Writable type)
    (hreturns : ∀ result, returns = some result → Throughout Writable result) :
    Throughout Writable { plain "function" with args := some types, returns, expression } := by
  have hname : IsName "function" := by decide
  exact throughout_of_parts ⟨⟨fun _ => .inl hname, forall_none, fun _ => .inl ⟨types, rfl, hne⟩⟩, fun _ => rfl⟩
    (List.forall_mem_nil _) htypes (List.forall_mem_nil _) hreturns

theorem throughout_parameters {name : String} (hname : IsName name) (hfunction : name ≠ "function")
    (htypes : ∀ type ∈ types, Throughout Writable type) :
    Throughout Writable { plain name with templates := some types, expression } := by
  have hliteral : isQuoted name = false := isQuoted_of_isWord hname.1
  refine throughout_of_parts ⟨⟨fun _ => .inl hname, forall_none, fun h => absurd h hfunction⟩, fun h => ?_⟩
    (List.forall_mem_nil _) (List.forall_mem_nil _) htypes forall_none
  cases hliteral.symm.trans h

theorem throughout_union {name : String} (hname : name ≠ "function")
    (hmixed : ∃ alternative ∈ types, alternative.isLiteral = false)
    (htypes : ∀ type ∈ types, Throughout Writable type) :
    Throughout Writable { ofAlternatives name types with expression } := by
  refine throughout_of_parts ⟨⟨(by rintro ⟨⟩), ?_, fun h => absurd h hname⟩, fun _ => rfl⟩ htypes
    (List.forall_mem_nil _) (List.forall_mem_nil _) forall_none
  rintro union ⟨⟩
  exact hmixed

end

theorem plainEnums_named (name : String) (next : Option TypeExpr) : PlainEnums { TypeExpr.named name with next } :=
  plainEnums_of_parts rfl forall_none forall_none forall_none forall_none

/-- A function whose result has parameters, with a literal in the last of them. -/
def callback : ApiType :=
  { plain "function" with
    args := some [plain "a"]
    returns := some { plain "Map" with templates := some [plain "b", ofAlternatives "" [plain "\"c\"", plain "d"]] } }

theorem throughout_callback (expression : Option String) : Throughout Writable { callback with expression } := by
  have hplain : ∀ {name : String}, IsName name → Throughout Writable (plain name) := fun h => throughout_plain (.inl h)
  have hliteral : Throughout Writable (plain "\"c\"") := throughout_plain (.inr ⟨['c'], by decide, rfl⟩)
  have hmixed : Throughout Writable (ofAlternatives "" [plain "\"c\"", plain "d"]) :=
    throughout_union (by decide) ⟨plain "d", by simp, by decide⟩
      (List.forall_mem_cons.2 ⟨hliteral, List.forall_mem_singleton.2 (hplain (by decide))⟩)
  refine throughout_function (List.cons_ne_nil _ _) (List.forall_mem_singleton.2 (hplain (by decide))) ?_
  rintro result ⟨⟩
  exact throughout_parameters (by decide) (by decide)
    (List.forall_mem_cons.2 ⟨hplain (by decide), List.forall_mem_singleton.2 hmixed⟩)

theorem plainEnums_callback :
    PlainEnums (TypeExpr.read (TypeExpr.unescape "function(a):Map<b, \"c\"|d>")) := by
  have hread : TypeExpr.read (TypeExpr.unescape "function(a):Map<b, \"c\"|d>") =
      { TypeExpr.named "function" with
        args := some (TypeExpr.named "a")
        returns := some { TypeExpr.named "Map" with
          template := some { TypeExpr.named "b" with
            next := some { TypeExpr.named "\"c\"" with union := some (TypeExpr.named "d") } } } } := by cbv
  rw [hread]
  refine plainEnums_of_parts rfl forall_none ?_ ?_ forall_none
  · rintro first ⟨⟩
    exact List.forall_mem_singleton.2 (plainEnums_named "a" none)
  · rintro result ⟨⟩
    refine plainEnums_of_parts rfl forall_none forall_none forall_none ?_
    rintro first ⟨⟩
    refine List.forall_mem_cons.2 ⟨plainEnums_named "b" _, List.forall_mem_singleton.2 ?_⟩
    refine plainEnums_of_parts rfl ?_ forall_none forall_none forall_none
    rintro other ⟨⟩
    exact plainEnums_named "d" none

/-- The function is written with brackets around the names and read again. -/
theorem parse_typeText_callback :
    parse "[function]([a]):[Map]<[b], \"c\"|[d]>" [] =
      .ok { callback with expression := some "[function]([a]):[Map]<[b], \"c\"|[d]>" } := by
  have hparse : parse "function(a):Map<b, \"c\"|d>" [] =
      .ok { callback with expression := some "function(a):Map<b, \"c\"|d>" } := by decide +kernel
  obtain ⟨text, htext, hagain⟩ := @parse_typeText ⟨.js, []⟩ .input (Member.property "f" callback true) rfl _ _ hparse
    (throughout_callback _) plainEnums_callback
  have hsame : text = "[function]([a]):[Map]<[b], \"c\"|[d]>" := (Except.ok.inj htext).symm
  rwa [hsame] at hagain

/-- The type is read again from its text in JavaScript. -/
def IsReadBack (type : ApiType) : Prop :=
  ∃ text again, (⟨.js, []⟩ : Dialect).typeText .input (Member.property "x" type true) type = .ok text ∧
    parse text [] = .ok again ∧ bare again = bare type

/-- A function and a literal, which an enum of literals can become. -/
def functionOrLiteral (name : String) : ApiType :=
  ofAlternatives name [{ plain "function" with args := some [plain "b"] }, plain "\"c\""]

theorem throughout_functionOrLiteral (name : String) (expression : Option String) (hname : name ≠ "function") :
    Throughout Writable { functionOrLiteral name with expression } := by
  have hfunction : Throughout Writable { plain "function" with args := some [plain "b"] } :=
    throughout_function (List.cons_ne_nil _ _) (List.forall_mem_singleton.2 (throughout_plain (.inl (by decide))))
      forall_none
  exact throughout_union hname ⟨_, List.mem_cons_self, by decide⟩ (List.forall_mem_cons.2
    ⟨hfunction, List.forall_mem_singleton.2 (throughout_plain (.inr ⟨['c'], by decide, rfl⟩))⟩)

theorem parse_functionOrLiteral :
    parse "[function]([b])|\"c\"" [] =
      .ok { functionOrLiteral "" with expression := some "[function]([b])|\"c\"" } := by
  have hread : TypeExpr.read (TypeExpr.unescape "[function]([b])|\"c\"") =
      { TypeExpr.named "[function]" with
        args := some (TypeExpr.named "[b]")
        union := some (TypeExpr.named "\"c\"") } := by cbv
  refine parse_eq_ok.2 ⟨functionOrLiteral "", ?_, rfl⟩
  rw [hread]
  exact (ofExpr_union rfl).2 ⟨_, [plain "\"c\""], by decide +kernel, by decide +kernel, by decide, rfl⟩

/-- The parameters of a literal are not written, and literals with arguments become functions, whose union
is written without the name that the enum had. -/
theorem not_isReadBack_literals :
    (∃ type, parse "\"a\"<b>" [] = .ok type ∧ Throughout Regular type ∧ ¬IsReadBack type) ∧
      ∃ type, parse "Color<\"a\"(b)|\"c\">" [] = .ok type ∧ Throughout Regular type ∧ ¬IsReadBack type := by
  have hregular : ∀ {type}, Throughout Writable type → Throughout Regular type := fun h =>
    h.mono fun _ => Writable.toRegular
  constructor
  · refine ⟨{ plain "\"a\"" with templates := some [plain "b"], expression := some "\"a\"<b>" },
      by decide +kernel, ?_, ?_⟩
    · exact throughout_of_parts ⟨fun _ => .inr ⟨['a'], by decide, rfl⟩, forall_none, fun h => absurd h (by decide)⟩
        (List.forall_mem_nil _) (List.forall_mem_nil _)
        (List.forall_mem_singleton.2 (hregular (throughout_plain (.inl (by decide))))) forall_none
    · rintro ⟨text, again, htext, hagain, hsame⟩
      have hsource : text = "\"a\"" := (Except.ok.inj htext).symm
      have hread : parse "\"a\"" [] = .ok { plain "\"a\"" with expression := some "\"a\"" } := by decide +kernel
      rw [hsource, hread] at hagain
      cases hagain
      cases congrArg ApiType.templates hsame
  · refine ⟨{ functionOrLiteral "Color" with expression := some "Color<\"a\"(b)|\"c\">" }, by decide +kernel,
      hregular (throughout_functionOrLiteral _ _ (by decide)), ?_⟩
    rintro ⟨text, again, htext, hagain, hsame⟩
    have hsource : text = "[function]([b])|\"c\"" := (Except.ok.inj htext).symm
    rw [hsource, parse_functionOrLiteral] at hagain
    cases hagain
    exact absurd (congrArg ApiType.name hsame) (by decide)

end Dialect

end RefPages
