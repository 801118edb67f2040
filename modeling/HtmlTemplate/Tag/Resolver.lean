import HtmlTemplate.Tag.Handler

/-!
# Resolver — which tags are directives

A resolver either claims a tag, and gives its parts, or leaves it to be written as it is.  A
namespace claims every tag whose name starts with its leading text; a name in it that has no
handler is an error.
-/

namespace HtmlTemplate

/-- Tells whether a tag is a directive: claims it and gives its parts, leaves it to be written as it
is, or refuses it. -/
abbrev TagReader := Tag → Except Error (Option (List Part))

inductive Resolver where
  /-- Claims no tag. -/
  | literal
  /-- Claims the tags whose names start with `leading`. -/
  | space (leading : String) (registry : Registry)

namespace Resolver

/-- The leading text of the built-in tags. -/
def defaultLeading : String := "hc:"

/-- The namespace of a leading text, which must not be empty. -/
def ofLeading (leading : String) (registry : Registry) : Except Error Resolver :=
  if leading.isEmpty then .error .emptyNamespace else .ok (.space leading registry)

/-- The namespace of the built-in tags. -/
def builtin : Resolver := .space defaultLeading Registry.builtin

/-- The parts of a tag, or nothing if the resolver does not claim it. -/
def resolve (resolver : Resolver) : TagReader := fun tag =>
  match resolver with
  | .literal => .ok none
  | .space leading registry =>
    match leading.toList.isPrefixOf? tag.name.toList with
    | none => .ok none
    | some name =>
      match registry.get? (String.ofList name) with
      | none => .error (.tag tag.name none (.unknownName (registry.sortedNames leading)))
      | some handler => some <$> handler.resolve tag

end Resolver
end HtmlTemplate
