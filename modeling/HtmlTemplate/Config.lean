import HtmlTemplate.Tag.Resolver

/-!
# Config — the options of a compilation, and which of them are in force

A setting is put in force for good by `set`, or by `enter` until the matching `leave`, which brings
back what was in force before, whatever happened in between.
-/

namespace HtmlTemplate

/-- The name of the context parameter, the resolver of tags, the built-in one if there is none,
and the file that errors name. -/
structure Config where
  contextName : String := "context"
  resolver? : Option Resolver := none
  sourceFile : Option String := none

namespace Config

def resolver (c : Config) : Resolver := c.resolver?.getD Resolver.builtin

/-- The value of an option given by its name. -/
inductive Setting where
  | text (value : Option String)
  | resolver (value : Option Resolver)

/-- Changes one option.  A name that is no option's changes nothing. -/
def withSetting (c : Config) (name : String) (setting : Setting) : Config :=
  match name, setting with
  | "context_name", .text (some value) => { c with contextName := value }
  | "tag_resolver", .resolver value => { c with resolver? := value }
  | "source_file", .text value => { c with sourceFile := value }
  | _, _ => c

/-- The configuration that options given by name make. -/
def ofSettings (settings : List (String × Setting)) : Config :=
  settings.foldl (fun c (name, setting) => c.withSetting name setting) {}

end Config

/-- The configuration in force, and those that open sections will bring back, the innermost
first. -/
structure ConfigState where
  current : Config := {}
  saved : List Config := []

namespace ConfigState

def set (s : ConfigState) (c : Config) : ConfigState := { s with current := c }

/-- Puts the default configuration in force. -/
def reset (s : ConfigState) : ConfigState := s.set {}

def enter (s : ConfigState) (c : Config) : ConfigState := ⟨c, s.current :: s.saved⟩

def leave (s : ConfigState) : ConfigState :=
  match s.saved with
  | [] => s
  | previous :: rest => ⟨previous, rest⟩

end ConfigState
end HtmlTemplate
