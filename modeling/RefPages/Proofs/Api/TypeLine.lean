/-
The grammar of type lines. A line is one exactly when it is a name in backticks or a keyword, question
marks, an expression between angle brackets whose own brackets are balanced, and a comment. It can be taken
apart in one way only, since the bracket that ends the expression is the first one that closes more than has
been opened.
-/
import RefPages.Api.TypeLine
import RefPages.Proofs.Text.Trim

namespace RefPages

open Text

/-! ## Brackets -/

namespace TypeExpr

/-- A text closes what it opens and `depth` brackets more, and on the way never more than these. -/
structure Closes (opening closing : Char) (depth : Nat) (cs : List Char) : Prop where
  covered : ∀ start, start <+: cs → start.count closing ≤ depth + start.count opening
  settled : depth + cs.count opening = cs.count closing

section

variable {opening closing : Char} {depth next : Nat} {c : Char} {cs inside rest : List Char}

theorem closes_nil : Closes opening closing depth [] ↔ depth = 0 := by
  constructor
  · intro h
    simpa using h.settled
  · rintro rfl
    refine ⟨fun start hstart => ?_, rfl⟩
    rw [List.prefix_nil.1 hstart]
    rfl

theorem not_closes_closing (hne : opening ≠ closing) : ¬Closes opening closing 0 (closing :: cs) := by
  intro h
  have hfirst := h.covered [closing] (List.prefix_append [closing] cs)
  simp [hne.symm] at hfirst

/-- A character changes how many brackets are left to be closed. -/
theorem closes_cons (hnext : depth + [c].count opening = next + [c].count closing) :
    Closes opening closing depth (c :: cs) ↔ Closes opening closing next cs := by
  have hcount : ∀ (bracket : Char) (start : List Char),
      (c :: start).count bracket = [c].count bracket + start.count bracket :=
    fun bracket start => by rw [← List.singleton_append, List.count_append]
  constructor
  · rintro ⟨hcovered, hsettled⟩
    refine ⟨fun start hstart => ?_, ?_⟩
    · have := hcovered (c :: start) (List.cons_prefix_cons.2 ⟨rfl, hstart⟩)
      rw [hcount, hcount opening] at this
      omega
    · rw [hcount, hcount closing] at hsettled
      omega
  · rintro ⟨hcovered, hsettled⟩
    refine ⟨fun start hstart => ?_, ?_⟩
    · rcases List.prefix_cons_iff.1 hstart with rfl | ⟨more, rfl, hmore⟩
      · exact Nat.zero_le _
      · have := hcovered more hmore
        rw [hcount, hcount opening]
        omega
    · rw [hcount, hcount closing]
      omega

/-- The bracket that is found is the first one that closes more than has been opened. -/
theorem untilClosed?_eq_some_iff (hne : opening ≠ closing) :
    untilClosed? opening closing depth cs = some (inside, rest) ↔
      cs = inside ++ closing :: rest ∧ Closes opening closing depth inside := by
  induction cs generalizing depth inside with
  | nil => simp [untilClosed?]
  | cons c cs ih =>
    -- the bracket is found behind the first character
    have hbehind : ∀ {depth next : Nat}, depth + [c].count opening = next + [c].count closing →
        ¬(c = closing ∧ depth = 0) →
        ((untilClosed? opening closing next cs).map (Prod.map (c :: ·) id) = some (inside, rest) ↔
          c :: cs = inside ++ closing :: rest ∧ Closes opening closing depth inside) := by
      intro depth next hnext hopen
      rw [Option.map_eq_some_iff]
      constructor
      · rintro ⟨⟨inside, rest⟩, hfound, ⟨⟩⟩
        obtain ⟨rfl, hinside⟩ := ih.1 hfound
        exact ⟨rfl, (closes_cons hnext).2 hinside⟩
      · rintro ⟨hcs, hinside⟩
        cases inside with
        | nil => exact absurd ⟨(List.cons.inj hcs).1, closes_nil.1 hinside⟩ hopen
        | cons first inside =>
          obtain ⟨rfl, rfl⟩ := List.cons.inj hcs
          exact ⟨(inside, rest), ih.2 ⟨rfl, (closes_cons hnext).1 hinside⟩, rfl⟩
    simp only [untilClosed?]
    split
    · rename_i hclosing
      subst hclosing
      cases depth with
      | zero =>
        constructor
        · rintro ⟨⟩
          exact ⟨rfl, closes_nil.2 rfl⟩
        · rintro ⟨hcs, hinside⟩
          cases inside with
          | nil => rw [(List.cons.inj hcs).2]
          | cons first inside =>
            rw [← (List.cons.inj hcs).1] at hinside
            exact absurd hinside (not_closes_closing hne)
      | succ depth => exact hbehind (by simp [hne.symm]) (by simp)
    · rename_i hclosing
      split
      · rename_i hopening
        subst hopening
        exact hbehind (by simp [hclosing]) (by simp [hclosing])
      · rename_i hopening
        exact hbehind (by simp [hopening, hclosing]) (by simp [hclosing])

end

end TypeExpr

/-! ## Parts of a line -/

namespace TypeLine

/-- A text with as many opening as closing angle brackets, no beginning of which has more closing ones. -/
structure Balanced (cs : List Char) : Prop where
  covered : ∀ start, start <+: cs → start.count '>' ≤ start.count '<'
  settled : cs.count '<' = cs.count '>'

/-- What a type line begins with: a name in backticks, or one of the keywords. -/
inductive Head where
  | quoted (name : List Char) (plain : '\x60' ∉ name)
  | keyword (word : String) (known : word ∈ keywords)

/-- The name, or the keyword in place of it. -/
def Head.name : Head → List Char
  | quoted name _ => name
  | keyword word _ => word.toList

/-- How the beginning of a type line is written. -/
def Head.text : Head → List Char
  | quoted name _ => '\x60' :: name ++ ['\x60', ' ']
  | keyword word _ => word.toList ++ [':', ' ']

/-- A type line taken apart. -/
structure Spelling where
  head : Head
  /-- The number of question marks. -/
  marks : Nat
  expression : List Char
  balanced : Balanced expression
  comment : List Char

namespace Spelling

/-- The line that is taken apart. -/
def text (spelling : Spelling) : List Char :=
  spelling.head.text ++ List.replicate spelling.marks '?' ++ '<' :: spelling.expression ++ '>' :: spelling.comment

/-- The comment without the blank before it. -/
def remark (spelling : Spelling) : List Char :=
  match spelling.comment with
  | ' ' :: rest => rest
  | comment => comment

/-- What the line says. -/
def parts (spelling : Spelling) : TypeLine where
  name := String.ofList spelling.head.name
  expression := String.ofList spelling.expression
  comment := String.ofList spelling.remark
  optional := spelling.marks ≠ 0

end Spelling

theorem closes_iff_balanced {cs : List Char} : TypeExpr.Closes '<' '>' 0 cs ↔ Balanced cs := by
  constructor
  · rintro ⟨hcovered, hsettled⟩
    simp only [Nat.zero_add] at hcovered hsettled
    exact ⟨hcovered, hsettled⟩
  · rintro ⟨hcovered, hsettled⟩
    refine ⟨?_, ?_⟩
    · simpa only [Nat.zero_add] using hcovered
    · rwa [Nat.zero_add]

/-! ## Reading the parts -/

theorem splitOnce?_singleton {sep : Char} {cs before rest : List Char} :
    splitOnce? [sep] cs = some (before, rest) ↔ cs = before ++ sep :: rest ∧ sep ∉ before := by
  induction cs generalizing before with
  | nil => simp [splitOnce?]
  | cons c cs ih =>
    by_cases hc : sep = c
    · subst hc
      have hsplit : splitOnce? [sep] (sep :: cs) = some ([], cs) := by simp [splitOnce?, after?]
      rw [hsplit]
      constructor
      · rintro ⟨⟩
        exact ⟨rfl, List.not_mem_nil⟩
      · rintro ⟨hcs, hbefore⟩
        cases before with
        | nil => rw [(List.cons.inj hcs).2]
        | cons first before => exact absurd (List.mem_cons.2 (.inl (List.cons.inj hcs).1)) hbefore
    · have hsplit : splitOnce? [sep] (c :: cs) = (splitOnce? [sep] cs).map (Prod.map (c :: ·) id) := by
        rw [splitOnce?, after?, if_neg hc]
        rfl
      rw [hsplit, Option.map_eq_some_iff]
      constructor
      · rintro ⟨⟨before, rest⟩, hfound, ⟨⟩⟩
        obtain ⟨rfl, hbefore⟩ := ih.1 hfound
        exact ⟨rfl, List.not_mem_cons_of_ne_of_not_mem hc hbefore⟩
      · rintro ⟨hcs, hbefore⟩
        cases before with
        | nil => exact absurd (List.cons.inj hcs).1.symm hc
        | cons first before =>
          obtain ⟨rfl, rfl⟩ := List.cons.inj hcs
          exact ⟨(before, rest), ih.2 ⟨rfl, List.not_mem_of_not_mem_cons hbefore⟩, rfl⟩

theorem forall_keywords {P : String → Prop} : (∀ word ∈ keywords, P word) ↔ P "returns" ∧ P "type" ∧ P "argument" := by
  simp [keywords]

/-- A keyword is found when it begins the line, before a colon and a blank. -/
theorem splitName?_eq_some_iff {line name rest : List Char} :
    splitName? line = some (name, rest) ↔ ∃ head : Head, line = head.text ++ rest ∧ head.name = name := by
  constructor
  · intro h
    unfold splitName? at h
    split at h
    · obtain ⟨⟨quoted, behind⟩, hquoted, h⟩ := Option.bind_eq_some_iff.1 h
      obtain ⟨after, hafter, h⟩ := Option.bind_eq_some_iff.1 h
      cases h
      obtain ⟨rfl, hplain⟩ := splitOnce?_singleton.1 hquoted
      obtain rfl := after?_eq_some_iff.1 hafter
      exact ⟨.quoted name hplain, by simp [Head.text], rfl⟩
    · obtain ⟨word, hword, h⟩ := List.exists_of_findSome?_eq_some h
      obtain ⟨after, hafter, h⟩ := Option.map_eq_some_iff.1 h
      cases h
      exact ⟨.keyword word hword, after?_eq_some_iff.1 hafter, rfl⟩
  · rintro ⟨head, rfl, rfl⟩
    cases head with
    | quoted name hplain =>
      have hquoted : splitOnce? ['\x60'] (name ++ '\x60' :: ' ' :: rest) = some (name, ' ' :: rest) :=
        splitOnce?_singleton.2 ⟨rfl, hplain⟩
      simp [Head.text, Head.name, splitName?, hquoted, after?]
    | keyword word hword =>
      have hfound : ∀ word ∈ keywords, splitName? (word.toList ++ [':', ' '] ++ rest) = some (word.toList, rest) := by
        rw [forall_keywords]
        exact ⟨rfl, rfl, rfl⟩
      exact hfound word hword

theorem splitType?_eq_some_iff {cs expression comment : List Char} :
    splitType? cs = some (expression, comment) ↔ cs = '<' :: expression ++ '>' :: comment ∧ Balanced expression := by
  unfold splitType?
  split
  · rw [TypeExpr.untilClosed?_eq_some_iff (by decide), closes_iff_balanced]
    simp
  · rename_i hne
    constructor
    · rintro ⟨⟩
    · rintro ⟨rfl, -⟩
      exact absurd rfl (hne _)

theorem Spelling.remark_eq (spelling : Spelling) :
    spelling.remark = (after? [' '] spelling.comment).getD spelling.comment := by
  unfold remark
  split
  · rename_i rest heq
    rw [heq, show ' ' :: rest = [' '] ++ rest from rfl, after?_append]
    rfl
  · rename_i hblank
    cases hcomment : spelling.comment with
    | nil => rfl
    | cons c rest =>
      have hc : ' ' ≠ c := fun h => hblank rest (by rw [hcomment, h])
      simp [after?, hc]

/-- Marks before something else are passed over. -/
theorem dropWhile_marks (marks : Nat) {cs : List Char} (h : cs.head? ≠ some '?') :
    (List.replicate marks '?' ++ cs).dropWhile (· = '?') = cs := by
  rw [List.dropWhile_append_of_pos fun c hc => decide_eq_true (List.eq_of_mem_replicate hc)]
  cases cs with
  | nil => rfl
  | cons c cs => exact List.dropWhile_cons_of_neg (by simpa using h)

theorem exists_marks (cs : List Char) :
    ∃ marks, cs = List.replicate marks '?' ++ cs.dropWhile (· = '?') ∧ (cs.head? = some '?' ↔ marks ≠ 0) := by
  have hmarks : cs.takeWhile (· = '?') = List.replicate (cs.takeWhile (· = '?')).length '?' :=
    List.eq_replicate_of_mem fun c hc => by simpa using List.mem_takeWhile_imp hc
  refine ⟨_, by rw [← hmarks, List.takeWhile_append_dropWhile], ?_⟩
  cases cs with
  | nil => simp
  | cons c cs => by_cases hc : c = '?' <;> simp [hc]

/-- What is read is what the line spells. -/
theorem read?_eq_some_iff {line : List Char} {parts : TypeLine} :
    read? line = some parts ↔ ∃ spelling : Spelling, spelling.text = line ∧ spelling.parts = parts := by
  constructor
  · intro h
    obtain ⟨⟨name, rest⟩, hname, h⟩ := Option.bind_eq_some_iff.1 h
    obtain ⟨⟨expression, comment⟩, htype, h⟩ := Option.bind_eq_some_iff.1 h
    cases h
    obtain ⟨head, rfl, rfl⟩ := splitName?_eq_some_iff.1 hname
    obtain ⟨hrest, hbalanced⟩ := splitType?_eq_some_iff.1 htype
    obtain ⟨marks, hmarks, hoptional⟩ := exists_marks rest
    let spelling : Spelling := ⟨head, marks, expression, hbalanced, comment⟩
    refine ⟨spelling, ?_, ?_⟩
    · rw [hmarks, hrest]
      simp [spelling, Spelling.text]
    · simp [spelling, Spelling.parts, spelling.remark_eq, hoptional]
  · rintro ⟨spelling, rfl, rfl⟩
    have hname : splitName? spelling.text = some (spelling.head.name,
        List.replicate spelling.marks '?' ++ ('<' :: spelling.expression ++ '>' :: spelling.comment)) :=
      splitName?_eq_some_iff.2 ⟨spelling.head, by simp [Spelling.text], rfl⟩
    have hoptional : (List.replicate spelling.marks '?' ++
        ('<' :: spelling.expression ++ '>' :: spelling.comment)).head? = some '?' ↔ spelling.marks ≠ 0 := by
      cases spelling.marks <;> simp [List.replicate_succ]
    refine Option.bind_eq_some_iff.2 ⟨_, hname, ?_⟩
    refine Option.bind_eq_some_iff.2 ⟨(spelling.expression, spelling.comment), ?_, ?_⟩
    · rw [dropWhile_marks spelling.marks (by simp)]
      exact splitType?_eq_some_iff.2 ⟨rfl, spelling.balanced⟩
    · simp only [hoptional, ← spelling.remark_eq]
      rfl

/-! ## One spelling only -/

theorem Head.append_inj {head head' : Head} {rest rest' : List Char} (h : head.text ++ rest = head'.text ++ rest') :
    head = head' ∧ rest = rest' := by
  have hname : splitName? (head.text ++ rest) = some (head.name, rest) := splitName?_eq_some_iff.2 ⟨head, rfl, rfl⟩
  rw [h, splitName?_eq_some_iff.2 ⟨head', rfl, rfl⟩] at hname
  obtain ⟨hname, hrest⟩ := Prod.mk.inj (Option.some.inj hname)
  refine ⟨?_, hrest.symm⟩
  -- a keyword does not begin with a backtick
  have hquote : ∀ word ∈ keywords, ∀ rest, (word.toList ++ [':', ' '] ++ rest).head? ≠ some '\x60' := by
    rw [forall_keywords]
    simp
  cases head with
  | quoted name hplain =>
    cases head' with
    | quoted name' hplain' =>
      obtain rfl : name' = name := hname
      rfl
    | keyword word hword => exact absurd (congrArg List.head? h).symm (hquote word hword rest')
  | keyword word hword =>
    cases head' with
    | quoted name hplain => exact absurd (congrArg List.head? h) (hquote word hword rest)
    | keyword word' hword' =>
      obtain rfl : word' = word := String.toList_injective hname
      rfl

theorem text_injective : Function.Injective Spelling.text := by
  intro spelling spelling' h
  obtain ⟨head, marks, expression, hbalanced, comment⟩ := spelling
  obtain ⟨head', marks', expression', hbalanced', comment'⟩ := spelling'
  simp only [Spelling.text, List.append_assoc] at h
  obtain ⟨rfl, hrest⟩ := Head.append_inj h
  have htype := congrArg (List.dropWhile (· = '?')) hrest
  rw [dropWhile_marks marks (by simp), dropWhile_marks marks' (by simp)] at htype
  rw [htype] at hrest
  obtain rfl : marks = marks' := by simpa using congrArg List.length (List.append_cancel_right hrest)
  have hparts : splitType? ('<' :: expression ++ '>' :: comment) = some (expression, comment) :=
    splitType?_eq_some_iff.2 ⟨rfl, hbalanced⟩
  rw [htype, splitType?_eq_some_iff.2 ⟨rfl, hbalanced'⟩] at hparts
  cases hparts
  rfl

/-! ## Reading a line -/

/-- A line is read exactly when it is spelled as a type line, which it is in one way at most, and what is read
is what it spells. Every other line is an invalid argument as a whole. -/
theorem read_spells (line : String) :
    (∀ parts, read line = .ok parts ↔ ∃ spelling : Spelling, spelling.text = line.toList ∧ spelling.parts = parts) ∧
      Function.Injective Spelling.text ∧
      ∀ fault, read line = .error fault ↔
        fault = .invalidArgument line ∧ ∀ spelling : Spelling, spelling.text ≠ line.toList := by
  refine ⟨fun parts => ?_, text_injective, fun fault => ?_⟩
  · rw [← read?_eq_some_iff, read]
    cases read? line.toList <;> simp
  · have hnone : read? line.toList = none ↔ ∀ spelling : Spelling, spelling.text ≠ line.toList := by
      rw [Option.eq_none_iff_forall_ne_some]
      simp only [ne_eq, read?_eq_some_iff]
      exact ⟨fun h spelling htext => h _ ⟨spelling, htext, rfl⟩, fun h parts ⟨spelling, htext, _⟩ => h spelling htext⟩
    rw [← hnone, read]
    cases read? line.toList <;> simp [eq_comm]

end TypeLine

end RefPages
