import HtmlTemplate.Directive
import HtmlTemplate.Marker
import HtmlTemplate.Text.Identifier

/-!
# Interpolation — the parts of body text and comments

The literals of a text become literal parts.  An expression that starts like a name or a number is
a value to insert; what any other expression means is up to a directive reader, which knows the
directives.  A pair of opening braces in the last literal was never closed.
-/

namespace HtmlTemplate
namespace Interpolation

open Text

/-- Where a text stands. -/
inductive Position where
  | body
  | comment
  deriving DecidableEq, Repr

/-- The part that inserts the value of a path. -/
def Position.insert : Position → String → Part
  | .body, path => .body path
  | .comment, path => .comment path

/-- Gives the parts of an expression, none if it knows no such directive. -/
abbrev DirectiveReader := List Char → Except Error (List Part)

/-- The directives that every template may use. -/
def builtin : DirectiveReader := fun expression =>
  (Directive.parts expression).mapError Error.semantic

/-- Finds the place of an offset within a text. -/
abbrev Locator := Nat → Option Location

/-- The parts of one expression, whose marker starts at `offset`. -/
def expressionParts (position : Position) (reader : DirectiveReader) (locate : Locator)
    (offset : Nat) (expression : List Char) : Except Error (List Part) :=
  if expression.head?.any isWordChar then .ok [position.insert (String.ofList expression)]
  else do
    let parts ← reader expression
    if parts.isEmpty then
      throw (.template (.unknownDirective (String.ofList expression)) (locate offset))
    return parts

/-- How much of an unclosed marker an error shows. -/
def snippetLength : Nat := 24

/-- The parts of the literal after the last marker. -/
def tailParts (locate : Locator) (offset : Nat) (tail : List Char) : Except Error (List Part) :=
  match Marker.findOpening tail with
  | some n =>
    let snippet := String.ofList ((tail.drop n).take snippetLength)
    .error (.template (.lexical (.unterminatedMarker snippet)) (locate (offset + n)))
  | none => .ok (Part.literal tail)

/-- The parts of a text that was cut at its markers, `offset` characters of it being done. -/
def partsFrom (position : Position) (reader : DirectiveReader) (locate : Locator)
    (tail : List Char) : Nat → List (List Char × List Char) → Except Error (List Part)
  | offset, [] => tailParts locate offset tail
  | offset, (literal, expression) :: marked => do
    let start := offset + literal.length
    let inserted ← expressionParts position reader locate start (strip expression)
    let rest ← partsFrom position reader locate tail (start + expression.length + 4) marked
    return Part.literal literal ++ inserted ++ rest

/-- The parts of a text. -/
def parts (position : Position) (reader : DirectiveReader) (locate : Locator)
    (text : List Char) : Except Error (List Part) :=
  let pieces := Pieces.ofText text
  partsFrom position reader locate pieces.tail 0 pieces.marked

end Interpolation
end HtmlTemplate
