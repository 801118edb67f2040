import HtmlTemplate.Error
import HtmlTemplate.Text.Identifier

/-!
# Path — property paths such as `user.name` or `rows.0.$id`

A path is a sequence of segments with dots between them.  Segments hold ASCII word characters and
`$`; the first one does not start with a digit.
-/

namespace HtmlTemplate
namespace Path

open Text

/-- The texts between the dots. -/
def split : List Char → List (List Char)
  | [] => [[]]
  | c :: cs =>
    if c == '.' then [] :: split cs
    else
      match split cs with
      | [] => [[c]]
      | segment :: rest => (c :: segment) :: rest

def segments (path : String) : List String := (split path.toList).map String.ofList

/-- The characters that a name may start with. -/
def startsName (c : Char) : Bool := c.isAlpha || c == '$' || c == '_'

def isNameChar (c : Char) : Bool := isWordChar c || c == '$'

def isSegment (segment : List Char) : Bool := !segment.isEmpty && segment.all isNameChar

/-- A segment that does not start with a digit. -/
def isName : List Char → Bool
  | [] => false
  | c :: cs => startsName c && cs.all isNameChar

/-- Refuses what is not a path. -/
def check (path : String) : Except SemanticFault Unit :=
  if !(path.toList.head?.any startsName) then .error (.pathStart path)
  else if !(split path.toList).all isSegment then .error (.pathCharacters path)
  else .ok ()

end Path
end HtmlTemplate
