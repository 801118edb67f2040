import HtmlTemplate.Text.Blank

/-!
# Lines — cutting a text at its line breaks, and indenting it
-/

namespace HtmlTemplate
namespace Text

/-- The characters that end a line by themselves. -/
def isLineBreak (c : Char) : Bool :=
  let n := c.toNat
  (0xa ≤ n && n ≤ 0xd) || (0x1c ≤ n && n ≤ 0x1e) || n == 0x85 || n == 0x2028 || n == 0x2029

/-- The lines of a text, each with its line break.  A carriage return and the line feed right after
it are one break. -/
def lines : List Char → List (List Char)
  | [] => []
  | '\r' :: '\n' :: cs => ['\r', '\n'] :: lines cs
  | c :: cs =>
    if isLineBreak c then [c] :: lines cs
    else
      match lines cs with
      | [] => [[c]]
      | line :: rest => (c :: line) :: rest

/-- Puts `margin` in front of a line that holds more than blanks. -/
def indentLine (margin line : List Char) : List Char :=
  if line.all isBlank then line else margin ++ line

def indent (margin : String) (text : String) : String :=
  String.ofList ((lines text.toList).flatMap (indentLine margin.toList))

/-- Every line break of a file, be it a carriage return, a line feed or both, as a line feed. -/
def unifyLineEnds : List Char → List Char
  | [] => []
  | '\r' :: '\n' :: cs => '\n' :: unifyLineEnds cs
  | '\r' :: cs => '\n' :: unifyLineEnds cs
  | c :: cs => c :: unifyLineEnds cs

end Text
end HtmlTemplate
