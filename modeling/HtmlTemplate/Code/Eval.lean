import HtmlTemplate.Code.Expr
import HtmlTemplate.Code.Helper
import HtmlTemplate.Render.Output
import HtmlTemplate.Value.Kind
import HtmlTemplate.Value.Lookup

/-!
# Eval — what expressions of the generated code mean

A name means the innermost parameter of that name, and a helper if there is none.  Functions are
made to be handed to helpers; they take values and give values.
-/

namespace HtmlTemplate

/-- What an expression means. -/
inductive Meaning where
  | value (v : Value)
  | helper (h : Helper)
  /-- The joining of texts with a separator. -/
  | joining (separator : String)
  /-- A function without a parameter. -/
  | thunk (run : Render Value)
  /-- A function with one. -/
  | function (run : Value → Render Value)

/-- The values of the parameters, the innermost first. -/
abbrev Env := List (String × Value)

namespace Meaning

/-- The value that is meant. -/
def asValue : Meaning → Render Value
  | value v => return v
  | _ => throw (.misuse "a function is no value")

def asValues : List Meaning → Render (List Value)
  | [] => return []
  | m :: ms => do
    let v ← m.asValue
    return v :: (← asValues ms)

/-- What a name means. -/
def ofName (env : Env) (name : String) : Render Meaning :=
  match env.lookup name with
  | some v => return value v
  | none =>
    match Helper.ofName? name with
    | some h => return helper h
    | none => throw (.unbound name)

/-- The segments of a path from their texts. -/
def asPath : List Meaning → Render (List String)
  | [] => return []
  | m :: ms => do
    let segment ← Render.asText (← m.asValue)
    return segment :: (← asPath ms)

/-- The result of a helper. -/
def applyHelper : Helper → List Meaning → Render Value
  | .renderBody, [value v] => return .str (← Render.body v)
  | .ifDefined, [value v] => Render.defined v fun s => return .str s
  | .ifDefined, [value v, function frame] => Render.defined v fun s => frame (.str s)
  | .ifCheck, [value v, thunk yes] => Render.choose v yes none
  | .ifCheck, [value v, thunk yes, thunk no] => Render.choose v yes (some no)
  | .loop, [value v, function each] => Render.loop v each none
  | .loop, [value v, function each, thunk empty] => Render.loop v each (some empty)
  | .isNonempty, [value v] => return .bool (← Render.isNonempty v)
  | .lookup, value v :: path => do Render.ofExcept (v.lookup (← asPath path))
  | .markSafe, [value v] => Render.ofExcept v.asMarkup
  | _, _ => throw (.misuse "a helper is called with the wrong arguments")

/-- The result of a call.  A value can be called if it is a function. -/
def apply : Meaning → List Meaning → Render Meaning
  | helper h, arguments => return value (← applyHelper h arguments)
  | joining separator, [value (.tuple vs)] => return value (← Render.joined separator vs)
  | value (.function result), _ => return value (.str result)
  | value v, _ => throw (.notCallable v.kind)
  | _, _ => throw (.misuse "a function of the code itself is called")

/-- A member of a value: texts can join. -/
def member : Meaning → String → Render Meaning
  | value (.str s), "join" => return joining s
  | _, name => throw (.misuse ("there is no member " ++ name))

/-- Two texts one after the other. -/
def plus (a b : Value) : Render Value := do
  return .str ((← Render.asText a) ++ (← Render.asText b))

end Meaning

namespace Expr

mutual

/-- What an expression means. -/
def eval (env : Env) : Expr → Render Meaning
  | literal text => return .value (.str text)
  | name word => Meaning.ofName env word
  | tuple items => do
    let meanings ← evalAll env items
    return .value (.tuple (← Meaning.asValues meanings))
  | member target word => do (← eval env target).member word
  | call target arguments => do
    let callee ← eval env target
    let meanings ← evalAll env arguments
    callee.apply meanings
  | function none body => return .thunk (do (← eval env body).asValue)
  | function (some parameter) body =>
    return .function fun v => do (← eval ((parameter, v) :: env) body).asValue
  | negation operand => do
    let v ← (← eval env operand).asValue
    return .value (.bool !(← Render.ofExcept v.truth))
  | plus left right => do
    let a ← (← eval env left).asValue
    let b ← (← eval env right).asValue
    return .value (← Meaning.plus a b)

/-- What expressions mean, from left to right. -/
def evalAll (env : Env) : List Expr → Render (List Meaning)
  | [] => return []
  | e :: es => do
    let first ← eval env e
    return first :: (← evalAll env es)

end

/-- The value of an expression that reads the context by a name. -/
def run (e : Expr) (contextName : String) (context : Value) : Render Value := do
  (← e.eval [(Text.normalName contextName, context)]).asValue

/-- The value of an expression, with no iterator used yet. -/
def render (e : Expr) (contextName : String) (context : Value) : Except RenderFault Value :=
  (·.1) <$> (e.run contextName context).run []

end Expr
end HtmlTemplate
