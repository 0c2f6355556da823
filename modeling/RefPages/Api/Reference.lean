/-
References in running text. A reference to a member names its kind and the member between
brackets and backticks, and may carry a target of its own; a reference to a class is its name in
brackets. References are found from left to right and do not overlap.
-/
import RefPages.Text.Chars
import RefPages.Text.Letter

namespace RefPages

open Text

/-! ## References to members -/

/-- A reference to a member, a parameter or an option. -/
structure Reference where
  /-- The whole reference as it is written. -/
  written : List Char
  kind : List Char
  name : List Char
  /-- What stands in parentheses after the reference. -/
  href : Option (List Char)
  deriving DecidableEq, Repr

namespace Reference

/-- The target in parentheses at the beginning of a text. -/
def href? : List Char → Option (List Char)
  | '(' :: rest =>
    match rest.span (· ≠ ')') with
    | (href, _ :: _) => some href
    | (_, []) => none
  | _ => none

/-- The text of a reference without a target. -/
def core (kind name : List Char) : List Char :=
  ['[', '\x60'] ++ kind ++ [':', ' '] ++ name ++ ['\x60', ']']

/-- The text of a target. -/
def target : Option (List Char) → List Char
  | some href => '(' :: href ++ [')']
  | none => []

/-- The reference that a text begins with. -/
def read? : List Char → Option Reference
  | '[' :: '\x60' :: rest =>
    match rest.span isNameChar with
    | (kind, ':' :: ' ' :: rest) =>
      match rest.span fun c => c ≠ ']' && c ≠ '\x60' with
      | (name, '\x60' :: ']' :: rest) =>
        if kind = [] || name = [] then none
        else some ⟨core kind name ++ target (href? rest), kind, name, href? rest⟩
      | _ => none
    | _ => none
  | _ => none

end Reference

/-! ## Texts with references -/

/-- A part of a text: a reference, or a character outside of all references. -/
inductive Piece (α : Type) where
  | plain (c : Char)
  | reference (ref : α)
  deriving DecidableEq, Repr

/-- The parts of a text in which `read?` finds references `written` at some length; `skip` more
characters belong to the reference before. -/
def piecesFrom {α : Type} (read? : List Char → Option α) (written : α → List Char) :
    Nat → List Char → List (Piece α)
  | _, [] => []
  | skip + 1, _ :: cs => piecesFrom read? written skip cs
  | 0, c :: cs =>
    match read? (c :: cs) with
    | some ref => .reference ref :: piecesFrom read? written ((written ref).length - 1) cs
    | none => .plain c :: piecesFrom read? written 0 cs

/-- The text with every reference in it replaced; the first that cannot be gives the fault. -/
def tryReplace {α ε : Type} (replace : α → Except ε (List Char)) :
    List (Piece α) → Except ε (List Char)
  | [] => .ok []
  | .plain c :: pieces => do
    return c :: (← tryReplace replace pieces)
  | .reference ref :: pieces => do
    let new ← replace ref
    return new ++ (← tryReplace replace pieces)

/-- The parts of a text with references to members. -/
def memberPieces (cs : List Char) : List (Piece Reference) :=
  piecesFrom Reference.read? Reference.written 0 cs

/-! ## References to classes -/

/-- A name in brackets, with the character after it when that makes it a link or a definition. -/
structure ClassReference where
  name : List Char
  follow : Option Char
  deriving DecidableEq, Repr

namespace ClassReference

/-- The reference as it is written. -/
def written (ref : ClassReference) : List Char := '[' :: ref.name ++ ']' :: ref.follow.toList

/-- The reference that a text begins with. -/
def read? : List Char → Option ClassReference
  | '[' :: rest =>
    match rest.span isNameChar with
    | (name, ']' :: rest) =>
      if name = [] then none
      else some ⟨name, rest.head?.filter fun c => c = '(' || c = ':' || c = '['⟩
    | _ => none
  | _ => none

end ClassReference

/-- The parts of a text with references to classes. -/
def classPieces (cs : List Char) : List (Piece ClassReference) :=
  piecesFrom ClassReference.read? ClassReference.written 0 cs

/-- The text with every reference in it replaced. -/
def replace {α : Type} (replacement : α → List Char) : List (Piece α) → List Char
  | [] => []
  | .plain c :: pieces => c :: replace replacement pieces
  | .reference ref :: pieces => replacement ref ++ replace replacement pieces

end RefPages
