import HtmlTemplate.Error
import HtmlTemplate.Tag

/-!
# Registry — handlers of directive tags by their names

A handler answers to one or more names.  A registry holds one handler for a name; registering goes
name by name and stops at the first one that is taken.
-/

namespace HtmlTemplate

/-- Turns a directive tag into parts.  `label` names the handler in messages and `listing` is how
it is shown in a list. -/
structure Handler where
  label : String
  listing : String
  names : Option (List String)
  resolve : Tag → Except Error (List Part)

/-- Handlers by name, in the order of their registration. -/
abbrev Registry := List (String × Handler)

namespace Registry

def get? (registry : Registry) (name : String) : Option Handler := registry.lookup name

def names (registry : Registry) : List String := registry.map (·.1)

/-- The names in the order of their code points, each with `leading` in front. -/
def sortedNames (registry : Registry) (leading : String) : List String :=
  (registry.names.map (leading ++ ·)).mergeSort fun a b => !decide (b < a)

/-- Registers a handler under each of the names, up to the first that is taken. -/
def registerNames (handler : Handler) : List String → Registry → Except Error Unit × Registry
  | [], registry => (.ok (), registry)
  | name :: rest, registry =>
    match registry.get? name with
    | some taken => (.error (.nameTaken name taken.label), registry)
    | none => registerNames handler rest (registry ++ [(name, handler)])

def register (registry : Registry) (handler : Handler) : Except Error Unit × Registry :=
  match handler.names with
  | none => (.error (.handlerWithoutNames handler.label), registry)
  | some names => registerNames handler names registry

/-- Registers handlers one after another, up to the first that is refused. -/
def registerAll (registry : Registry) : List Handler → Except Error Unit × Registry
  | [] => (.ok (), registry)
  | handler :: rest =>
    match registry.register handler with
    | (.ok (), registry) => registerAll registry rest
    | refused => refused

end Registry
end HtmlTemplate
