import HtmlTemplate.Error
import HtmlTemplate.Marker
import HtmlTemplate.Tag

/-!
# Options — the attributes that a directive tag takes

A directive tag declares its attributes; `collect` accepts the declared ones alone, each with a
value.  A value may be bare, quoted or between double braces, with the same meaning.
-/

namespace HtmlTemplate

open Text

/-- An attribute of a directive tag.  One without a default may be left out only if it is not
required. -/
structure OptionField where
  name : String
  required : Bool
  default : Option String
  deriving DecidableEq, Repr

namespace Options

/-- The attributes of a loop: what to go through, and the name of the element. -/
def loopFields : List OptionField :=
  [⟨"iter", true, none⟩, ⟨"v", false, some Part.defaultBinding⟩]

/-- The attributes of a conditional: a value to test for truth, or one to test for elements. -/
def conditionalFields : List OptionField := [⟨"i", false, none⟩, ⟨"iter", false, none⟩]

/-- Tags that take no attributes. -/
def noFields : List OptionField := []

/-- The path that a value stands for, none if it holds more or less than one marker. -/
def unwrap? (value : String) : Option String :=
  if !Marker.hasOpening value.toList then some (stripText value)
  else
    match Pieces.ofText value.toList with
    | ⟨[(before, expression)], after⟩ =>
      if before.all isBlank && after.all isBlank then some (String.ofList (strip expression))
      else none
    | _ => none

/-- The path of one attribute. -/
def value (fields : List OptionField) (tag : String) (key : String) (v : AttributeValue) :
    Except Error String :=
  if !fields.any (·.name = key) then .error (.tag tag (some key) .notAllowed)
  else
    match v with
    | .present => .error (.tag tag (some key) .needsValue)
    | .text text =>
      match unwrap? text with
      | some path => .ok path
      | none => .error (.tag tag (some key) (.notOnePath text))

/-- The values that are given, in source order. -/
def given (fields : List OptionField) (tag : String) :
    Attributes → Except Error (List (String × String))
  | [] => .ok []
  | (key, v) :: rest => do
    let path ← value fields tag key v
    return (key, path) :: (← given fields tag rest)

/-- The fields of a tag in the order of their declaration, with the value given or else the
default. -/
def collect (fields : List OptionField) (tag : Tag) :
    Except Error (List (String × Option String)) := do
  let values ← given fields tag.name tag.attributes
  match fields.find? fun field => field.required && (values.lookup field.name).isNone with
  | some field => throw (.tag tag.name (some field.name) .missing)
  | none =>
    return fields.map fun field => (field.name, values.lookup field.name <|> field.default)

/-- The value of a field that was collected. -/
def get (options : List (String × Option String)) (name : String) : Option String :=
  (options.lookup name).join

end Options
end HtmlTemplate
