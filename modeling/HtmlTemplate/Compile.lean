import HtmlTemplate.Code.Eval
import HtmlTemplate.Code.Generator
import HtmlTemplate.Config
import HtmlTemplate.Scan

/-!
# Compile — from a source to an expression and the shape of its context
-/

namespace HtmlTemplate

/-- A compiled template: an expression that reads the context from the name given, the text of the
context's shape, and whether the context is required. -/
structure Compiled where
  expression : String
  typeText : String
  anyRequired : Bool
  contextName : String
  deriving DecidableEq, Repr

namespace Compiled

/-- Compiles parts. -/
def ofParts (contextName : String) (parts : List Part) : Except Error Compiled := do
  let generator ← Generator.ofContextName contextName
  match generator.fold parts with
  | (.error fault, _) => throw fault
  | (.ok (), generator) =>
    let expression ← generator.expression
    return ⟨expression, generator.scope.typeText, generator.scope.anyRequired, contextName⟩

/-- The parts of a source. -/
def templateOf (config : Config) (source : String) : Except Error (List Part) :=
  let scan := Scan.ofSource config.resolver config.sourceFile source
  match scan.fault with
  | some fault => .error fault
  | none => .ok scan.template

/-- Compiles a source. -/
def ofSource (config : Config) (source : String) : Except Error Compiled := do
  ofParts config.contextName (← templateOf config source)

/-- The expression as it is read. -/
def code (c : Compiled) : Except RenderFault Expr := Expr.read c.expression

/-- Renders a context. -/
def render (c : Compiled) (context : Value) : Except RenderFault Value := do
  (← c.code).render c.contextName context

/-- Calls a template as a function.  Without an argument nothing is there to render. -/
def call (c : Compiled) (argument? : Option Value) : Except RenderFault Value :=
  c.render (argument?.getD .none)

/-- What is reported of a compilation, `parts` being the number of its parts. -/
def summary (c : Compiled) (sourceFile : Option String) (parts : Nat) : String :=
  let file :=
    match sourceFile with
    | none | some "" => "<string>"
    | some file => file
  "Compiled " ++ file ++ ": " ++ toString parts ++ " parts, " ++ toString c.expression.length ++
    " chars, any_required=" ++ (if c.anyRequired then "True" else "False")

end Compiled
end HtmlTemplate
