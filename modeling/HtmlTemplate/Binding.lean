import HtmlTemplate.Path

/-!
# Binding — names of loop elements, and the variables that hold them

A binding is a path of one segment.  Its variable in the generated code is an underscore and the
binding with every underscore doubled and every `$` written `_d`, so that different bindings have
different variables, and none of them can be the context or a helper.
-/

namespace HtmlTemplate
namespace Binding

open Text

def encodeChar (c : Char) : List Char :=
  if c == '_' then ['_', '_'] else if c == '$' then ['_', 'd'] else [c]

/-- The variable of a binding. -/
def variableOf (binding : String) : String :=
  String.ofList ('_' :: binding.toList.flatMap encodeChar)

/-- Refuses what cannot be bound, and gives the variable of what can. -/
def check (contextName binding : String) : Except SemanticFault String :=
  if binding.toList.contains '.' then .error (.dottedBinding binding)
  else if !Path.isName binding.toList then .error (.invalidBinding binding)
  else if binding = contextName then .error (.bindingIsContext binding)
  else if !isIdentifier (variableOf binding) then .error (.unusableBinding binding)
  else .ok (variableOf binding)

end Binding
end HtmlTemplate
