import HtmlTemplate.Error
import HtmlTemplate.Part
import HtmlTemplate.Text.Blank

/-!
# Directive — markers that open, turn and close blocks

The first character of an expression tells its directive:

* `~path` opens a conditional and `~!path` an inverted one,
* `>path binding` opens a loop, whose binding may be left out,
* `|` goes over to the other body,
* `<` closes the block.
-/

namespace HtmlTemplate
namespace Directive

open Text

/-- The path of a conditional, and whether a `!` before it inverts the test. -/
def test : List Char → List Char × Bool
  | '!' :: path => (strip path, true)
  | path => (strip path, false)

/-- The loop over the first word that binds the second. -/
def loop (expression : List Char) : List (List Char) → Except SemanticFault (List Part)
  | [] => .ok [.loop "" Part.defaultBinding]
  | [path] => .ok [.loop (String.ofList path) Part.defaultBinding]
  | [path, binding] => .ok [.loop (String.ofList path) (String.ofList binding)]
  | _ => .error (.extraLoopWords (String.ofList expression))

/-- The parts of a directive, none if the expression is no directive. -/
def parts : List Char → Except SemanticFault (List Part)
  | '~' :: rest =>
    let (path, inverted) := test rest
    .ok [.conditional (String.ofList path) inverted false]
  | '>' :: rest => loop ('>' :: rest) (words rest)
  | '|' :: _ => .ok [.otherwise]
  | '<' :: _ => .ok [.close]
  | _ => .ok []

end Directive
end HtmlTemplate
