import HtmlTemplate.Text.Blank

/-!
# Marker — expressions between double braces

A marker opens with two braces and closes with the first two closing braces after them on the same
line.  `Pieces.ofText` cuts a text at its markers, the leftmost first; `Pieces.text` puts it
together again.
-/

namespace HtmlTemplate

open Text

namespace Marker

/-- The expression up to the closing braces, and what follows them. -/
def readExpression : List Char → Option (List Char × List Char)
  | [] => none
  | '}' :: '}' :: rest => some ([], rest)
  | c :: cs =>
    if c == '\n' then none
    else (readExpression cs).map fun (expression, rest) => (c :: expression, rest)

theorem readExpression_length {cs expression rest : List Char}
    (h : readExpression cs = some (expression, rest)) : rest.length < cs.length := by
  fun_induction readExpression cs generalizing expression with
  | case1 => simp at h
  | case2 =>
    cases h
    exact Nat.lt_succ_of_lt (Nat.lt_succ_self _)
  | case3 => simp at h
  | case4 c cs _ _ ih =>
    obtain ⟨⟨e, r⟩, he, h⟩ := Option.map_eq_some_iff.1 h
    obtain ⟨_, rfl⟩ := Prod.mk.injEq .. ▸ h
    exact Nat.lt_succ_of_lt (ih he)

/-- The first place of an opening pair of braces. -/
def findOpening : List Char → Option Nat
  | [] => none
  | '{' :: '{' :: _ => some 0
  | _ :: cs => (findOpening cs).map (· + 1)

/-- Whether a text holds a pair of opening braces. -/
def hasOpening (cs : List Char) : Bool := (findOpening cs).isSome

end Marker

/-- A text cut at its markers: the literal before each marker with the expression as it is written,
and the literal after the last one. -/
structure Pieces where
  marked : List (List Char × List Char)
  tail : List Char
  deriving DecidableEq, Repr

namespace Pieces

/-- Puts a character in front. -/
def push (c : Char) : Pieces → Pieces
  | ⟨[], tail⟩ => ⟨[], c :: tail⟩
  | ⟨(literal, expression) :: marked, tail⟩ => ⟨(c :: literal, expression) :: marked, tail⟩

/-- Puts a marker in front. -/
def mark (expression : List Char) (p : Pieces) : Pieces := ⟨([], expression) :: p.marked, p.tail⟩

def ofText : List Char → Pieces
  | [] => ⟨[], []⟩
  | '{' :: '{' :: cs =>
    match h : Marker.readExpression cs with
    | some (expression, rest) =>
      have := Marker.readExpression_length h
      (ofText rest).mark expression
    | none => (ofText ('{' :: cs)).push '{'
  | c :: cs => (ofText cs).push c
termination_by cs => cs.length

/-- The text that was cut. -/
def text (p : Pieces) : List Char :=
  p.marked.flatMap (fun (literal, expression) =>
    literal ++ '{' :: '{' :: expression ++ ['}', '}']) ++ p.tail

/-- Literals at the even places and expressions, without the blanks around them, at the odd ones. -/
def alternating (p : Pieces) : List String :=
  p.marked.flatMap (fun (literal, expression) =>
    [String.ofList literal, String.ofList (strip expression)]) ++ [String.ofList p.tail]

/-- The expression, if the text is one marker and nothing else. -/
def single? (p : Pieces) : Option String :=
  match p.marked, p.tail with
  | [([], expression)], [] => some (String.ofList (strip expression))
  | _, _ => none

end Pieces
end HtmlTemplate
