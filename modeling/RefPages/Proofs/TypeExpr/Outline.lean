/-
Type expressions with nested brackets: what the reader takes for the inside of a bracket is what
stands between it and the one that belongs to it, whatever follows. So the reader can be described
by what stands outside of brackets, and white space around an expression makes no difference.
-/
import RefPages.Proofs.Text.Trim
import RefPages.TypeExpr.Read

namespace RefPages.TypeExpr

open RefPages.Text

/-! ## Nested brackets -/

/-- A text whose brackets of both kinds are nested, with what is left of it when everything between
brackets is left out. -/
inductive Outlined : List Char → List Char → Prop
  | nil : Outlined [] []
  | char {c : Char} {cs out : List Char} (hplain : c ∉ ['<', '>', '(', ')']) (h : Outlined cs out) :
      Outlined (c :: cs) (c :: out)
  | angles {inside within cs out : List Char} (hinside : Outlined inside within) (h : Outlined cs out) :
      Outlined ('<' :: (inside ++ '>' :: cs)) ('<' :: '>' :: out)
  | parens {inside within cs out : List Char} (hinside : Outlined inside within) (h : Outlined cs out) :
      Outlined ('(' :: (inside ++ ')' :: cs)) ('(' :: ')' :: out)

/-- The outline with a character before it, which counts when no bracket is open. -/
def keep (stack : List Char) (c : Char) (out : List Char) : List Char := if stack = [] then c :: out else out

@[simp] theorem keep_nil (c : Char) (out : List Char) : keep [] c out = c :: out := rfl

@[simp] theorem keep_cons (d : Char) (stack : List Char) (c : Char) : keep (d :: stack) c = id := rfl

/-- What is left of a text when everything between brackets is left out; `stack` are the brackets
that are still to come, the innermost first. None when brackets are not nested. -/
def outlineFrom : List Char → List Char → Option (List Char)
  | stack, [] => if stack = [] then some [] else none
  | stack, c :: cs =>
    if c = '<' then (outlineFrom ('>' :: stack) cs).map (keep stack c)
    else if c = '(' then (outlineFrom (')' :: stack) cs).map (keep stack c)
    else if c = '>' ∨ c = ')' then
      match stack with
      | [] => none
      | d :: stack => if c = d then (outlineFrom stack cs).map (keep stack c) else none
    else (outlineFrom stack cs).map (keep stack c)

namespace Outlined

variable {cs ds out out' inside within rest : List Char}

theorem append (h : Outlined cs out) (h' : Outlined ds out') : Outlined (cs ++ ds) (out ++ out') := by
  induction h with
  | nil => exact h'
  | char hplain _ ih => exact .char hplain ih
  | angles hinside _ _ ih =>
    rw [List.cons_append, List.append_assoc]
    exact .angles hinside ih
  | parens hinside _ _ ih =>
    rw [List.cons_append, List.append_assoc]
    exact .parens hinside ih

theorem of_plain (h : ∀ c ∈ cs, c ∉ ['<', '>', '(', ')']) : Outlined cs cs := by
  induction cs with
  | nil => exact .nil
  | cons c cs ih =>
    rw [List.forall_mem_cons] at h
    exact .char h.1 (ih h.2)

/-! ### Where a bracket is closed -/

/-- A nested text is passed over, whatever bracket is to be closed behind it. -/
theorem untilClosed?_append (h : Outlined cs out) {opening closing : Char}
    (hpair : opening = '<' ∧ closing = '>' ∨ opening = '(' ∧ closing = ')') (depth : Nat) (rest : List Char) :
    untilClosed? opening closing depth (cs ++ rest) =
      (untilClosed? opening closing depth rest).map fun parts => (cs ++ parts.1, parts.2) := by
  induction h generalizing depth rest with
  | nil => simp
  | @char c cs out hplain _ ih =>
    have hc : c ≠ closing ∧ c ≠ opening := by
      rcases hpair with ⟨rfl, rfl⟩ | ⟨rfl, rfl⟩
      · exact ⟨fun h => hplain (by simp [h]), fun h => hplain (by simp [h])⟩
      · exact ⟨fun h => hplain (by simp [h]), fun h => hplain (by simp [h])⟩
    simp [untilClosed?, hc.1, hc.2, ih, Function.comp_def]
  | @angles inside within cs out _ _ ihInside ih =>
    rcases hpair with ⟨rfl, rfl⟩ | ⟨rfl, rfl⟩
    · -- the bracket opens one more, which the inside leaves open
      simp [untilClosed?, ihInside, ih, Function.comp_def]
    · simp [untilClosed?, ihInside, ih, Function.comp_def]
  | @parens inside within cs out _ _ ihInside ih =>
    rcases hpair with ⟨rfl, rfl⟩ | ⟨rfl, rfl⟩
    · simp [untilClosed?, ihInside, ih, Function.comp_def]
    · simp [untilClosed?, ihInside, ih, Function.comp_def]

theorem bracketed_angles (h : Outlined inside within) (rest : List Char) :
    bracketed '<' '>' (inside ++ '>' :: rest) = (inside, rest) := by
  rw [bracketed, h.untilClosed?_append (.inl ⟨rfl, rfl⟩)]
  simp [untilClosed?]

theorem bracketed_parens (h : Outlined inside within) (rest : List Char) :
    bracketed '(' ')' (inside ++ ')' :: rest) = (inside, rest) := by
  rw [bracketed, h.untilClosed?_append (.inr ⟨rfl, rfl⟩)]
  simp [untilClosed?]

/-! ### Outlines computed -/

theorem outlineFrom_append (h : Outlined cs out) (stack rest : List Char) :
    outlineFrom stack (cs ++ rest) =
      (outlineFrom stack rest).map fun out' => if stack = [] then out ++ out' else out' := by
  induction h generalizing stack rest with
  | nil => simp
  | @char c cs out hplain _ ih =>
    simp only [List.mem_cons, List.not_mem_nil, or_false, not_or] at hplain
    cases stack <;> simp [outlineFrom, hplain, ih, Function.comp_def]
  | @angles inside within cs out _ _ ihInside ih =>
    cases stack <;> simp [outlineFrom, ihInside, ih, Function.comp_def]
  | @parens inside within cs out _ _ ihInside ih =>
    cases stack <;> simp [outlineFrom, ihInside, ih, Function.comp_def]

/-- What stands before the bracket that closes an open one is nested. -/
theorem exists_closing {d : Char} {stack : List Char} (h : outlineFrom (d :: stack) cs = some out) :
    ∃ inside within rest, cs = inside ++ d :: rest ∧ Outlined inside within ∧
      (outlineFrom stack rest).map (keep stack d) = some out := by
  induction hn : cs.length using Nat.strong_induction_on generalizing d stack cs out with
  | h n ih =>
    -- a bracket that opens is closed first, and the one in question is closed behind that
    have hopens : ∀ {e : Char} {rest : List Char}, rest.length < n →
        outlineFrom (e :: d :: stack) rest = some out →
        ∃ inside within inside' within' rest', rest = inside ++ e :: (inside' ++ d :: rest') ∧
          Outlined inside within ∧ Outlined inside' within' ∧
          (outlineFrom stack rest').map (keep stack d) = some out := by
      intro e rest hlength hrest
      obtain ⟨inside, within, behind, rfl, hinside, hbehind⟩ := ih _ hlength hrest rfl
      rw [keep_cons, Option.map_id_fun, id_eq] at hbehind
      have hshorter : behind.length < n := by
        rw [List.length_append, List.length_cons] at hlength
        omega
      obtain ⟨inside', within', rest', rfl, hinside', hrest'⟩ := ih _ hshorter hbehind rfl
      exact ⟨inside, within, inside', within', rest', rfl, hinside, hinside', hrest'⟩
    cases cs with
    | nil => simp [outlineFrom] at h
    | cons c cs =>
      have hlength : cs.length < n := by
        rw [← hn]
        exact Nat.lt_succ_self _
      simp only [outlineFrom, keep_cons, Option.map_id_fun, id_eq] at h
      split at h
      · rename_i hc
        obtain ⟨inside, within, inside', within', rest, rfl, hinside, hinside', hrest⟩ := hopens hlength h
        exact ⟨'<' :: (inside ++ '>' :: inside'), _, rest, by simp [hc], .angles hinside hinside', hrest⟩
      split at h
      · rename_i hc
        obtain ⟨inside, within, inside', within', rest, rfl, hinside, hinside', hrest⟩ := hopens hlength h
        exact ⟨'(' :: (inside ++ ')' :: inside'), _, rest, by simp [hc], .parens hinside hinside', hrest⟩
      split at h
      · split at h
        · rename_i hc
          exact ⟨[], [], cs, by rw [hc, List.nil_append], .nil, hc ▸ h⟩
        · cases h
      · obtain ⟨inside, within, rest, rfl, hinside, hrest⟩ := ih _ hlength h rfl
        exact ⟨c :: inside, c :: within, rest, rfl, .char (by simp_all) hinside, hrest⟩

theorem of_outlineFrom (h : outlineFrom [] cs = some out) : Outlined cs out := by
  induction hn : cs.length using Nat.strong_induction_on generalizing cs out with
  | h n ih =>
    -- what begins with a bracket is its inside, and what follows is outlined by itself
    have hopens : ∀ {c d : Char} {rest : List Char}, rest.length < n →
        (outlineFrom [d] rest).map (keep [] c) = some out →
        ∃ inside within rest' out', rest = inside ++ d :: rest' ∧ Outlined inside within ∧
          Outlined rest' out' ∧ out = c :: d :: out' := by
      intro c d rest hlength hrest
      obtain ⟨out', hout, rfl⟩ := Option.map_eq_some_iff.1 hrest
      obtain ⟨inside, within, rest', rfl, hinside, hrest'⟩ := exists_closing hout
      obtain ⟨out', hout', rfl⟩ := Option.map_eq_some_iff.1 hrest'
      have hshorter : rest'.length < n := by
        rw [List.length_append, List.length_cons] at hlength
        omega
      exact ⟨inside, within, rest', out', rfl, hinside, ih _ hshorter hout' rfl, rfl⟩
    cases cs with
    | nil =>
      cases h
      exact .nil
    | cons c cs =>
      have hlength : cs.length < n := by
        rw [← hn]
        exact Nat.lt_succ_self _
      simp only [outlineFrom] at h
      split at h
      · rename_i hc
        obtain ⟨inside, within, rest, out', rfl, hinside, hrest, rfl⟩ := hopens hlength h
        rw [hc]
        exact .angles hinside hrest
      split at h
      · rename_i hc
        obtain ⟨inside, within, rest, out', rfl, hinside, hrest, rfl⟩ := hopens hlength h
        rw [hc]
        exact .parens hinside hrest
      split at h
      · cases h
      · obtain ⟨out', hout, rfl⟩ := Option.map_eq_some_iff.1 h
        exact .char (by simp_all) (ih _ hlength hout rfl)

/-- A text has an outline when its brackets are nested, and then just one. -/
theorem outlineFrom_eq_some : outlineFrom [] cs = some out ↔ Outlined cs out := by
  refine ⟨of_outlineFrom, fun h => ?_⟩
  simpa [outlineFrom] using h.outlineFrom_append [] []

end Outlined

/-! ## The steps of the reader -/

section

variable {seen inside within rest : List Char} {args : Option (List Char × TypeExpr)} {c d : Char}

theorem readFrom_nil (seen : List Char) (args : Option (List Char × TypeExpr)) :
    readFrom seen args [] =
      { named (String.ofList (trim ((args.map (·.1)).getD seen))) with args := args.map (·.2) } := by
  rw [readFrom]

theorem readFrom_char (h : c ∉ ['<', '(', '|', ',']) (seen : List Char) (args : Option (List Char × TypeExpr))
    (rest : List Char) : readFrom seen args (c :: rest) = readFrom (seen ++ [c]) args rest := by
  simp only [List.mem_cons, List.not_mem_nil, or_false, not_or] at h
  rw [readFrom]
  simp [h]

theorem readFrom_chars {cs : List Char} (h : ∀ c ∈ cs, c ∉ ['<', '(', '|', ',']) (seen : List Char)
    (args : Option (List Char × TypeExpr)) (rest : List Char) :
    readFrom seen args (cs ++ rest) = readFrom (seen ++ cs) args rest := by
  induction cs generalizing seen with
  | nil => rw [List.nil_append, List.append_nil]
  | cons c cs ih =>
    rw [List.forall_mem_cons] at h
    rw [List.cons_append, readFrom_char h.1, ih h.2, List.append_assoc, List.singleton_append]

theorem readLinks_nil : readLinks [] = (none, none) := by
  rw [readLinks]

theorem readLinks_bar (rest : List Char) :
    readLinks ('|' :: rest) = (some (readFrom [] none (trim rest)), none) := by
  rw [readLinks]
  rfl

theorem readLinks_comma (rest : List Char) :
    readLinks (',' :: rest) = (none, some (readFrom [] none (trim rest))) := by
  rw [readLinks]
  rfl

theorem readLinks_other (hbar : c ≠ '|') (hcomma : c ≠ ',') (rest : List Char) :
    readLinks (c :: rest) = (none, none) := by
  rw [readLinks]
  simp [hbar, hcomma]

/-- A bar or a comma ends the expression and links it to another. -/
theorem readFrom_link (h : c = '|' ∨ c = ',') (seen : List Char) (args : Option (List Char × TypeExpr))
    (rest : List Char) :
    readFrom seen args (c :: rest) =
      { named (String.ofList (trim seen)) with
        args := args.map (·.2), union := (readLinks (c :: rest)).1, next := (readLinks (c :: rest)).2 } := by
  rw [readFrom]
  rcases h with rfl | rfl
  · rfl
  · rfl

theorem readFrom_angles (hinside : Outlined inside within) (seen : List Char)
    (args : Option (List Char × TypeExpr)) (rest : List Char) :
    readFrom seen args ('<' :: (inside ++ '>' :: rest)) =
      withTemplate seen (args.map (·.2)) (readFrom [] none (trim inside)) (readLinks rest).1 (readLinks rest).2 := by
  rw [readFrom]
  simp [hinside.bracketed_angles]

theorem readFrom_parens_nil (hinside : Outlined inside within) (seen : List Char)
    (args : Option (List Char × TypeExpr)) :
    readFrom seen args ('(' :: (inside ++ [')'])) =
      { named (String.ofList (trim seen)) with args := some (readFrom [] none (trim inside)) } := by
  have hrest : (bracketed '(' ')' (inside ++ [')'])).2 = [] := by rw [hinside.bracketed_parens]
  rw [readFrom]
  simp only [show ('(' : Char) ≠ '<' by decide, if_true, if_false]
  split
  · rw [hinside.bracketed_parens]
  · rename_i d more h
    rw [hrest] at h
    cases h

/-- What the reader does with what follows an argument list. -/
theorem readFrom_parens_cons (hinside : Outlined inside within) (seen : List Char)
    (args : Option (List Char × TypeExpr)) (d : Char) (rest : List Char) :
    readFrom seen args ('(' :: (inside ++ ')' :: d :: rest)) =
      if d = ':' then
        { named (String.ofList (trim seen)) with
          args := some (readFrom [] none (trim inside))
          returns := some { readFrom [] none (trim rest) with next := none }
          next := (readFrom [] none (trim rest)).next }
      else if d = '|' ∨ d = ',' then
        { named (String.ofList (trim seen)) with
          args := some (readFrom [] none (trim inside))
          union := (readLinks (d :: rest)).1
          next := (readLinks (d :: rest)).2 }
      else
        readFrom (seen ++ '(' :: (inside ++ [')'])) (some (seen, readFrom [] none (trim inside))) (d :: rest) := by
  have hbracketed := hinside.bracketed_parens (d :: rest)
  rw [readFrom]
  simp only [show ('(' : Char) ≠ '<' by decide, if_true, if_false]
  split
  · rename_i h
    rw [hbracketed] at h
    cases h
  · rename_i d' more h
    rw [hbracketed] at h
    cases h
    rw [hbracketed]
    split
    · rfl
    · split
      · rfl
      · simp

theorem readFrom_parens_returns (hinside : Outlined inside within) (seen : List Char)
    (args : Option (List Char × TypeExpr)) (rest : List Char) :
    readFrom seen args ('(' :: (inside ++ ')' :: ':' :: rest)) =
      { named (String.ofList (trim seen)) with
        args := some (readFrom [] none (trim inside))
        returns := some { readFrom [] none (trim rest) with next := none }
        next := (readFrom [] none (trim rest)).next } := by
  rw [readFrom_parens_cons hinside, if_pos rfl]

theorem readFrom_parens_link (hinside : Outlined inside within) (h : d = '|' ∨ d = ',') (seen : List Char)
    (args : Option (List Char × TypeExpr)) (rest : List Char) :
    readFrom seen args ('(' :: (inside ++ ')' :: d :: rest)) =
      { named (String.ofList (trim seen)) with
        args := some (readFrom [] none (trim inside))
        union := (readLinks (d :: rest)).1
        next := (readLinks (d :: rest)).2 } := by
  have hcolon : d ≠ ':' := by rcases h with rfl | rfl <;> decide
  rw [readFrom_parens_cons hinside, if_neg hcolon, if_pos h]

theorem readFrom_parens_more (hinside : Outlined inside within) (h : d ∉ [':', '|', ',']) (seen : List Char)
    (args : Option (List Char × TypeExpr)) (rest : List Char) :
    readFrom seen args ('(' :: (inside ++ ')' :: d :: rest)) =
      readFrom (seen ++ '(' :: (inside ++ [')'])) (some (seen, readFrom [] none (trim inside))) (d :: rest) := by
  simp only [List.mem_cons, List.not_mem_nil, or_false, not_or] at h
  rw [readFrom_parens_cons hinside, if_neg h.1, if_neg (not_or.2 h.2)]

end

/-- An induction over the steps of the reader: what follows the colon behind an argument list is an
expression of its own. -/
theorem Outlined.reader_induction {P : ∀ cs out, Outlined cs out → Prop} (nil : ∀ h, P [] [] h)
    (char : ∀ c cs out h h', c ∉ ['<', '>', '(', ')', '|', ','] → P cs out h → P (c :: cs) (c :: out) h')
    (link : ∀ c cs out h, c = '|' ∨ c = ',' → Outlined cs out → P (c :: cs) (c :: out) h)
    (angles : ∀ inside within cs out h, Outlined inside within → Outlined cs out →
      P ('<' :: (inside ++ '>' :: cs)) ('<' :: '>' :: out) h)
    (parensNil : ∀ inside within h, Outlined inside within → P ('(' :: (inside ++ [')'])) ['(', ')'] h)
    (parensReturns : ∀ inside within cs out h h', Outlined inside within → P cs out h →
      P ('(' :: (inside ++ ')' :: ':' :: cs)) ('(' :: ')' :: ':' :: out) h')
    (parensLink : ∀ d inside within cs out h, d = '|' ∨ d = ',' → Outlined inside within → Outlined cs out →
      P ('(' :: (inside ++ ')' :: d :: cs)) ('(' :: ')' :: d :: out) h)
    (parensMore : ∀ d inside within cs out h h', d ∉ [':', '|', ','] → Outlined inside within →
      P (d :: cs) out h → P ('(' :: (inside ++ ')' :: d :: cs)) ('(' :: ')' :: out) h')
    {cs out : List Char} (h : Outlined cs out) : P cs out h := by
  induction hn : cs.length using Nat.strong_induction_on generalizing cs out with
  | h n ih =>
    cases h with
    | nil => exact nil _
    | @char c cs out hplain h =>
      by_cases hlink : c = '|' ∨ c = ','
      · exact link c cs out _ hlink h
      · exact char c cs out h _ (by simp_all) (ih cs.length (by rw [← hn]; exact Nat.lt_succ_self _) h rfl)
    | @angles inside within cs out hinside h => exact angles inside within cs out _ hinside h
    | @parens inside within cs out hinside h =>
      have hlength : cs.length < n := by
        rw [← hn, List.length_cons, List.length_append, List.length_cons]
        omega
      cases cs with
      | nil =>
        cases h
        exact parensNil inside within _ hinside
      | cons d cs =>
        by_cases hd : d ∈ [':', '|', ',']
        · have hplain : d ∉ ['<', '>', '(', ')'] := by
            intro hbracket
            simp only [List.mem_cons, List.not_mem_nil, or_false] at hd
            rcases hd with rfl | rfl | rfl <;> exact absurd hbracket (by decide)
          cases h with
          | @char _ _ out _ h =>
            by_cases hcolon : d = ':'
            · subst hcolon
              exact parensReturns inside within cs out h _ hinside
                (ih cs.length (Nat.lt_of_succ_lt hlength) h rfl)
            · exact parensLink d inside within cs out _ (by simp_all) hinside h
          | angles => simp at hplain
          | parens => simp at hplain
        · exact parensMore d inside within cs out h _ hd hinside (ih _ hlength h rfl)

/-! ## White space around an expression -/

theorem not_special_of_isBlank {c : Char} (h : isBlank c = true) : c ∉ ['<', '>', '(', ')', ':', '|', ','] := by
  intro hc
  simp only [List.mem_cons, List.not_mem_nil, or_false] at hc
  rcases hc with rfl | rfl | rfl | rfl | rfl | rfl | rfl <;> exact absurd h (by decide)

section

variable {cs out blanks : List Char}

theorem Outlined.of_blanks (h : ∀ c ∈ blanks, isBlank c = true) : Outlined blanks blanks :=
  .of_plain fun c hc hbracket => not_special_of_isBlank (h c hc) (by
    simp only [List.mem_cons, List.not_mem_nil, or_false] at hbracket ⊢
    tauto)

theorem Outlined.of_blanks_append (hblanks : ∀ c ∈ blanks, isBlank c = true) (h : Outlined (blanks ++ cs) out) :
    ∃ out', Outlined cs out' := by
  have hout := outlineFrom_eq_some.2 h
  rw [(Outlined.of_blanks hblanks).outlineFrom_append] at hout
  obtain ⟨out', hout', -⟩ := Option.map_eq_some_iff.1 hout
  exact ⟨out', outlineFrom_eq_some.1 hout'⟩

theorem isSome_outlineFrom_append (hblanks : ∀ c ∈ blanks, isBlank c = true) (stack cs : List Char) :
    (outlineFrom stack (cs ++ blanks)).isSome = (outlineFrom stack cs).isSome := by
  induction cs generalizing stack with
  | nil =>
    have h := (Outlined.of_blanks hblanks).outlineFrom_append stack []
    rw [List.append_nil] at h
    rw [List.nil_append, h, Option.isSome_map]
  | cons c cs ih =>
    simp only [List.cons_append, outlineFrom]
    split
    · rw [Option.isSome_map, Option.isSome_map, ih]
    split
    · rw [Option.isSome_map, Option.isSome_map, ih]
    split
    · cases stack with
      | nil => rfl
      | cons d stack =>
        dsimp only
        split
        · rw [Option.isSome_map, Option.isSome_map, ih]
        · rfl
    · rw [Option.isSome_map, Option.isSome_map, ih]

theorem Outlined.of_append_blanks (hblanks : ∀ c ∈ blanks, isBlank c = true) (h : Outlined (cs ++ blanks) out) :
    ∃ out', Outlined cs out' := by
  have hsome : (outlineFrom [] cs).isSome = true := by
    rw [← isSome_outlineFrom_append hblanks, outlineFrom_eq_some.2 h]
    rfl
  obtain ⟨out', hout'⟩ := Option.isSome_iff_exists.1 hsome
  exact ⟨out', outlineFrom_eq_some.1 hout'⟩

theorem readFrom_blanks (hblanks : ∀ c ∈ blanks, isBlank c = true) (seen : List Char)
    (args : Option (List Char × TypeExpr)) (rest : List Char) :
    readFrom seen args (blanks ++ rest) = readFrom (seen ++ blanks) args rest := by
  refine readFrom_chars (fun c hc hspecial => not_special_of_isBlank (hblanks c hc) ?_) seen args rest
  simp only [List.mem_cons, List.not_mem_nil, or_false] at hspecial ⊢
  tauto

/-- White space that was seen at the beginning does not count. -/
theorem readFrom_seen (hblanks : ∀ c ∈ blanks, isBlank c = true) (h : Outlined cs out) (seen : List Char)
    (args : Option (List Char × TypeExpr)) :
    readFrom (blanks ++ seen) (args.map fun named => (blanks ++ named.1, named.2)) cs = readFrom seen args cs := by
  have hname : ∀ name : List Char, trim (blanks ++ name) = trim name := trim_append hblanks
  have hargs : (args.map fun named => (blanks ++ named.1, named.2)).map (·.2) = args.map (·.2) := by
    rw [Option.map_map]
    rfl
  induction h generalizing seen args with
  | nil => cases args <;> simp [readFrom_nil, hname]
  | @char c cs out hplain _ ih =>
    by_cases hlink : c = '|' ∨ c = ','
    · rw [readFrom_link hlink, readFrom_link hlink, hname, hargs]
    · have hc : c ∉ ['<', '(', '|', ','] := by simp_all
      rw [readFrom_char hc, readFrom_char hc, List.append_assoc, ih _ _ hargs]
  | angles hinside _ _ _ =>
    rw [readFrom_angles hinside, readFrom_angles hinside, withTemplate, withTemplate, hname, hargs]
  | @parens inside within cs out hinside _ _ ih =>
    cases cs with
    | nil => rw [readFrom_parens_nil hinside, readFrom_parens_nil hinside, hname]
    | cons d rest =>
      have hmore := ih (seen ++ '(' :: (inside ++ [')'])) (some (seen, readFrom [] none (trim inside))) (by simp)
      rw [readFrom_parens_cons hinside, readFrom_parens_cons hinside, hname, List.append_assoc, ← hmore]
      rfl

/-- White space behind an expression does not count. -/
theorem readFrom_append_blanks (hblanks : ∀ c ∈ blanks, isBlank c = true) (h : Outlined cs out) (seen : List Char)
    (args : Option (List Char × TypeExpr)) :
    readFrom seen args (cs ++ blanks) = readFrom seen args cs := by
  have hend : ∀ seen args, readFrom seen args blanks = readFrom seen args [] := by
    intro seen args
    have h := readFrom_blanks hblanks seen args []
    rw [List.append_nil] at h
    rw [h, readFrom_nil, readFrom_nil]
    cases args with
    | none => simp [trim_append_blanks hblanks]
    | some named => rfl
  have hlinks : readLinks blanks = readLinks [] := by
    cases blanks with
    | nil => rfl
    | cons b blanks =>
      have hb := not_special_of_isBlank (hblanks b List.mem_cons_self)
      rw [readLinks_nil, readLinks_other (by simp_all) (by simp_all)]
  have hrest : ∀ cs, readLinks (cs ++ blanks) = readLinks cs := by
    intro cs
    cases cs with
    | nil => rw [List.nil_append, hlinks]
    | cons d rest =>
      rw [List.cons_append]
      by_cases hbar : d = '|'
      · rw [hbar, readLinks_bar, readLinks_bar, trim_append_blanks hblanks]
      by_cases hcomma : d = ','
      · rw [hcomma, readLinks_comma, readLinks_comma, trim_append_blanks hblanks]
      · rw [readLinks_other hbar hcomma, readLinks_other hbar hcomma]
  induction h generalizing seen args with
  | nil => exact hend seen args
  | @char c cs out hplain _ ih =>
    by_cases hlink : c = '|' ∨ c = ','
    · have h := hrest (c :: cs)
      rw [List.cons_append] at h
      rw [List.cons_append, readFrom_link hlink, readFrom_link hlink, h]
    · have hc : c ∉ ['<', '(', '|', ','] := by simp_all
      rw [List.cons_append, readFrom_char hc, readFrom_char hc, ih]
  | @angles inside within cs out hinside _ _ _ =>
    rw [List.cons_append, List.append_assoc, List.cons_append, readFrom_angles hinside, readFrom_angles hinside, hrest]
  | @parens inside within cs out hinside _ _ ih =>
    rw [List.cons_append, List.append_assoc, List.cons_append]
    cases cs with
    | nil =>
      cases blanks with
      | nil => rfl
      | cons b blanks =>
        have hb := not_special_of_isBlank (hblanks b List.mem_cons_self)
        rw [List.nil_append, readFrom_parens_more hinside (by simp_all), hend, readFrom_nil,
          readFrom_parens_nil hinside]
        rfl
    | cons d rest =>
      have hmore := ih (seen ++ '(' :: (inside ++ [')'])) (some (seen, readFrom [] none (trim inside)))
      have hd := hrest (d :: rest)
      rw [List.cons_append] at hmore hd
      rw [List.cons_append, readFrom_parens_cons hinside, readFrom_parens_cons hinside, hmore, hd,
        trim_append_blanks hblanks]

/-- White space around an expression does not count. -/
theorem readFrom_trim (h : Outlined cs out) : readFrom [] none (trim cs) = readFrom [] none cs := by
  obtain ⟨before, after, hcs, hbefore, hafter⟩ := exists_blanks cs
  rw [hcs] at h
  obtain ⟨out', hout'⟩ := h.of_blanks_append hbefore
  obtain ⟨core, hcore⟩ := hout'.of_append_blanks hafter
  have hseen := readFrom_seen hbefore hout' [] none
  rw [List.append_nil, Option.map_none] at hseen
  conv_rhs => rw [hcs]
  rw [readFrom_blanks hbefore, List.nil_append, hseen, readFrom_append_blanks hafter hcore]

end

end RefPages.TypeExpr
