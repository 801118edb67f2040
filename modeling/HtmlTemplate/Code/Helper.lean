/-!
# Helper — the functions that generated code may call
-/

namespace HtmlTemplate

inductive Helper where
  | renderBody
  | ifDefined
  | ifCheck
  | loop
  | isNonempty
  | lookup
  | markSafe
  deriving DecidableEq, Repr

namespace Helper

def name : Helper → String
  | renderBody => "render_body"
  | ifDefined => "if_defined"
  | ifCheck => "if_check"
  | loop => "loop"
  | isNonempty => "is_nonempty"
  | lookup => "lookup"
  | markSafe => "unsafe"

def all : List Helper := [renderBody, ifDefined, ifCheck, loop, isNonempty, lookup, markSafe]

def ofName? (name : String) : Option Helper := all.find? (·.name = name)

end Helper
end HtmlTemplate
