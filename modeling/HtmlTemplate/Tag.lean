import HtmlTemplate.Part

/-!
# Tag — a tag as it stands in the source

The attributes of a tag are in source order.  An attribute that is written twice stands where it
was written first, with the value that was written last.
-/

namespace HtmlTemplate

/-- What follows an attribute's name: nothing, or a text after the equals sign. -/
inductive AttributeValue where
  | present
  | text (value : String)
  deriving DecidableEq, Repr

/-- Attributes by name, in source order. -/
abbrev Attributes := List (String × AttributeValue)

namespace Attributes

/-- Gives an attribute a value, in the place that it has already or at the end. -/
def set (key : String) (value : AttributeValue) : Attributes → Attributes
  | [] => [(key, value)]
  | (k, v) :: rest => if k = key then (k, value) :: rest else (k, v) :: set key value rest

/-- Adds an attribute without a value.  One without a name is nothing. -/
def setPresent (key : String) (attributes : Attributes) : Attributes :=
  if key.isEmpty then attributes else attributes.set key .present

/-- The attributes of a list of settings, made one after another. -/
def ofList (settings : List (String × AttributeValue)) : Attributes :=
  settings.foldl (fun attributes (key, value) => set key value attributes) []

end Attributes

structure Tag where
  name : String
  attributes : Attributes
  /-- Whether the tag starts with `</`. -/
  isClose : Bool
  /-- Whether the tag ends with `/>`. -/
  isSelfClosing : Bool
  deriving DecidableEq, Repr

namespace Tag

/-- The text that a literal tag starts with. -/
def opening (tag : Tag) : String := (if tag.isClose then "</" else "<") ++ tag.name

/-- The text that a literal tag ends with. -/
def ending (tag : Tag) : String := if tag.isSelfClosing then " />" else ">"

end Tag
end HtmlTemplate
