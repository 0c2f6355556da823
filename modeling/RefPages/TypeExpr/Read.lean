/-
Reading a type expression: one pass from left to right with a count of brackets. Every text is
an expression; brackets within string literals count like any others.
-/
import RefPages.TypeExpr.Basic
import RefPages.Text.Blank

namespace RefPages.TypeExpr

open RefPages.Text

/-! ## Brackets -/

/-- What precedes and what follows the bracket that closes the one before `cs`; `depth` more
brackets are open. None when it is never closed. -/
def untilClosed? (opening closing : Char) : Nat → List Char → Option (List Char × List Char)
  | _, [] => none
  | depth, c :: cs =>
    if c = closing then
      match depth with
      | 0 => some ([], cs)
      | depth + 1 =>
        (untilClosed? opening closing depth cs).map fun (inside, rest) => (c :: inside, rest)
    else if c = opening then
      (untilClosed? opening closing (depth + 1) cs).map fun (inside, rest) => (c :: inside, rest)
    else (untilClosed? opening closing depth cs).map fun (inside, rest) => (c :: inside, rest)

/-- What stands in a bracket that is never closed: its last character is taken for the closing
one, which only an ASCII character can be. -/
def insideUnclosed (cs : List Char) : List Char :=
  match cs.getLast? with
  | some c => if c.utf8Size = 1 then cs.dropLast else []
  | none => []

/-- What stands in the bracket opened before `cs`, and what follows it. -/
def bracketed (opening closing : Char) (cs : List Char) : List Char × List Char :=
  match untilClosed? opening closing 0 cs with
  | some parts => parts
  | none => (insideUnclosed cs, [])

theorem length_untilClosed? {opening closing : Char} {depth : Nat} {cs inside rest : List Char}
    (h : untilClosed? opening closing depth cs = some (inside, rest)) :
    inside.length + rest.length < cs.length := by
  induction cs generalizing depth inside rest with
  | nil => simp [untilClosed?] at h
  | cons c cs ih =>
    simp only [untilClosed?] at h
    split at h
    · split at h
      · simp only [Option.some.injEq, Prod.mk.injEq] at h
        obtain ⟨rfl, rfl⟩ := h
        simp
      · simp only [Option.map_eq_some_iff, Prod.mk.injEq, Prod.exists] at h
        obtain ⟨inside', rest', h, rfl, rfl⟩ := h
        have := ih h
        simp only [List.length_cons]
        omega
    · split at h <;>
      · simp only [Option.map_eq_some_iff, Prod.mk.injEq, Prod.exists] at h
        obtain ⟨inside', rest', h, rfl, rfl⟩ := h
        have := ih h
        simp only [List.length_cons]
        omega

theorem length_insideUnclosed_le (cs : List Char) : (insideUnclosed cs).length ≤ cs.length := by
  unfold insideUnclosed
  split
  · split <;> simp
  · simp

theorem length_bracketed_le (opening closing : Char) (cs : List Char) :
    (bracketed opening closing cs).1.length + (bracketed opening closing cs).2.length ≤
      cs.length := by
  unfold bracketed
  split
  · next parts h =>
    obtain ⟨inside, rest⟩ := parts
    exact Nat.le_of_lt (length_untilClosed? h)
  · simpa using length_insideUnclosed_le cs

/-! ## Expressions -/

/-- The expression for a name with a parameter list: literals alone make a union that carries
the name, and nothing of what surrounds it but the next entry is kept. -/
def withTemplate (name : List Char) (args : Option TypeExpr) (template : TypeExpr)
    (union next : Option TypeExpr) : TypeExpr :=
  let name := String.ofList (trim name)
  if template.unionName.isNone && template.isLiteralUnion then
    { template with unionName := some name, next }
  else { name, args, returns := none, template := some template, union, next, unionName := none }

mutual

/-- The expression that goes on with `rest` after the text `seen`. `args` holds the last argument
list read and the name before it. -/
def readFrom (seen : List Char) (args : Option (List Char × TypeExpr)) (rest : List Char) :
    TypeExpr :=
  match rest with
  | [] => { named (String.ofList (trim ((args.map (·.1)).getD seen))) with args := args.map (·.2) }
  | c :: cs =>
    if c = '<' then
      have := length_bracketed_le '<' '>' cs
      have := length_trim_le (bracketed '<' '>' cs).1
      let links := readLinks (bracketed '<' '>' cs).2
      withTemplate seen (args.map (·.2)) (readFrom [] none (trim (bracketed '<' '>' cs).1))
        links.1 links.2
    else if c = '(' then
      have := length_bracketed_le '(' ')' cs
      have := length_trim_le (bracketed '(' ')' cs).1
      let inside := readFrom [] none (trim (bracketed '(' ')' cs).1)
      match h : (bracketed '(' ')' cs).2 with
      | [] => { named (String.ofList (trim seen)) with args := some inside }
      | d :: more =>
        have : (bracketed '(' ')' cs).2.length = more.length + 1 := by simp [h]
        if d = ':' then
          have := length_trim_le more
          let returns := readFrom [] none (trim more)
          { named (String.ofList (trim seen)) with
            args := some inside
            returns := some { returns with next := none }
            next := returns.next }
        else if d = '|' ∨ d = ',' then
          let links := readLinks (d :: more)
          { named (String.ofList (trim seen)) with
            args := some inside, union := links.1, next := links.2 }
        else
          readFrom (seen ++ '(' :: (bracketed '(' ')' cs).1 ++ [')']) (some (seen, inside))
            (d :: more)
    else if c = '|' ∨ c = ',' then
      let links := readLinks (c :: cs)
      { named (String.ofList (trim seen)) with
        args := args.map (·.2), union := links.1, next := links.2 }
    else readFrom (seen ++ [c]) args cs
termination_by 2 * rest.length + 1
decreasing_by all_goals simp_wf; try omega

/-- The next alternative or the next entry, as the character after an expression says. -/
def readLinks : List Char → Option TypeExpr × Option TypeExpr
  | [] => (none, none)
  | c :: cs =>
    have := length_trim_le cs
    if c = '|' then (some (readFrom [] none (trim cs)), none)
    else if c = ',' then (none, some (readFrom [] none (trim cs)))
    else (none, none)
termination_by rest => 2 * rest.length
decreasing_by all_goals simp_wf; omega

end

/-- The expression that a text is. -/
def read (text : String) : TypeExpr := readFrom [] none (trim text.toList)

/-- The text with the backslash before each parenthesis left out. -/
def unescapeChars : List Char → List Char
  | [] => []
  | [c] => [c]
  | c :: d :: cs =>
    if c = '\\' ∧ (d = '(' ∨ d = ')') then d :: unescapeChars cs else c :: unescapeChars (d :: cs)

/-- The text with the backslash before each parenthesis left out. -/
def unescape (text : String) : String := String.ofList (unescapeChars text.toList)

end RefPages.TypeExpr
