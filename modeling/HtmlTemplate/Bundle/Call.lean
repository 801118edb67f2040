import HtmlTemplate.Bundle

/-!
# Call — calling the functions of a module

A function takes the context, which may be left out unless the template requires it.
-/

namespace HtmlTemplate

inductive CallFault where
  | noFunction (name : String)
  | missingContext (name contextName : String)
  | extraArguments (name : String) (required : Bool) (count : Nat)
  | render (fault : RenderFault)
  deriving DecidableEq, Repr

namespace CallFault

def message : CallFault → String
  | noFunction name => "name '" ++ name ++ "' is not defined"
  | missingContext name contextName =>
    name ++ "() missing 1 required positional argument: '" ++ Text.normalName contextName ++ "'"
  | extraArguments name required count =>
    name ++ "() takes " ++
      (if required then "1 positional argument" else "from 0 to 1 positional arguments") ++
      " but " ++ toString count ++ " were given"
  | render fault => fault.message

end CallFault

namespace TemplateFunction

/-- The context of a call, none being passed if it may be left out. -/
def contextOf (f : TemplateFunction) : List Value → Except CallFault Value
  | [] =>
    if f.compiled.anyRequired then .error (.missingContext f.name f.compiled.contextName)
    else .ok .none
  | [context] => .ok context
  | arguments => .error (.extraArguments f.name f.compiled.anyRequired arguments.length)

/-- The expression that a call gives the value of. -/
def code (f : TemplateFunction) : Except RenderFault Expr :=
  f.compiled.code.map fun e => .call (.name Helper.markSafe.name) [e]

/-- What a call gives: markup, unless the context has the name of the helper that makes it. -/
def call (f : TemplateFunction) (arguments : List Value) : Except CallFault Value := do
  let context ← f.contextOf arguments
  (f.code >>= fun e => e.render f.compiled.contextName context).mapError CallFault.render

end TemplateFunction

namespace Bundle

def function? (b : Bundle) (name : String) : Option TemplateFunction :=
  b.functions.find? (·.name = name)

/-- Calls a function by its name. -/
def call (b : Bundle) (name : String) (arguments : List Value) : Except CallFault Value :=
  match b.function? name with
  | none => .error (.noFunction name)
  | some f => f.call arguments

end Bundle
end HtmlTemplate
