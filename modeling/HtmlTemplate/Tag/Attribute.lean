import HtmlTemplate.Error
import HtmlTemplate.Marker
import HtmlTemplate.Tag

/-!
# Attribute — the parts of one attribute of a literal tag

The rules, of which the first that fits holds:

1. `?key` with one marker as its value is a name that is written when the value is true.  With any
   other value the name is written always, and without a value nothing is.
2. `:key` is short for `key` with a marker of the same name.
3. An attribute without a value is its name.
4. A value without markers is written as it is.
5. A value that is one marker leaves the attribute out when nothing is there to insert.
6. Any other value is a composite of literals and expressions.
-/

namespace HtmlTemplate
namespace Attribute

/-- Rule 1, `name` being the key without its mark. -/
def flagParts (name : String) : AttributeValue → List Part
  | .present => []
  | .text value =>
    match (Pieces.ofText value.toList).single? with
    | some path => [.flag name path]
    | none => [.raw (" " ++ name)]

/-- Rule 2. -/
def shorthandParts (name : String) : Except SemanticFault (List Part) :=
  if name.isEmpty then .error .shorthandWithoutName else .ok [.optional name name]

/-- Rules 3 to 6. -/
def plainParts (key : String) : AttributeValue → List Part
  | .present => [.raw (" " ++ key)]
  | .text value =>
    let pieces := Pieces.ofText value.toList
    match pieces.single? with
    | some path => [.optional key path]
    | none =>
      if pieces.marked.isEmpty then [.raw (" " ++ key ++ "=\"" ++ value ++ "\"")]
      else [.raw (" " ++ key ++ "="), .composite pieces.alternating]

/-- The parts of an attribute, with the blank in front of it. -/
def parts (key : String) (value : AttributeValue) : Except SemanticFault (List Part) :=
  match key.toList with
  | '?' :: name => .ok (flagParts (String.ofList name) value)
  | ':' :: name => shorthandParts (String.ofList name)
  | _ => .ok (plainParts key value)

end Attribute
end HtmlTemplate
