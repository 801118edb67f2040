import HtmlTemplate.Binding
import HtmlTemplate.Code.Helper
import HtmlTemplate.Code.Token
import HtmlTemplate.Part
import HtmlTemplate.Shape.Scope

/-!
# Generator — from parts to an expression and the shape of its context

Every part appends tokens to the output and its references to the scope, in one pass from left to
right.  A body is a tuple of pieces that are joined; the bodies of blocks stand in functions that
are handed to a helper:

    ''.join(('A', if_check(lookup(context, 'x'), lambda: ''.join(('B', ))), ))

A fault leaves output and scope as far as they had come.
-/

namespace HtmlTemplate

open Text Token

structure Generator where
  contextName : String
  scope : Scope
  output : Array Token
  /-- The text of the output when parts were last folded without a fault. -/
  expression? : Option String

namespace Generator

/-- Refuses names that are no plain identifiers, start like a loop variable, or hide a helper. -/
def checkContextName (name : String) : Except Error Unit :=
  if !isIdentifier name || isKeyword name || name.toList.head? == some '_' then
    .error (.invalidContextName name)
  else if (Helper.ofName? name).isSome then .error (.helperContextName name)
  else .ok ()

def ofContextName (name : String) : Except Error Generator := do
  checkContextName name
  return ⟨name, .empty, #[], none⟩

/-- The expression of the last fold. -/
def expression (g : Generator) : Except Error String :=
  match g.expression? with
  | none => .error .nothingFolded
  | some text => .ok text

end Generator

/-- A computation on a generator whose faults leave it as it is. -/
abbrev Generate := ExceptT Error (StateM Generator)

namespace Generate

/-! ## Code -/

/-- The start of a body. -/
def bodyOpen : List Token := [.literal "", .dot, .word "join", .openParen, .openParen]

/-- The end of a body. -/
def bodyClose : List Token := [.closeParen, .closeParen]

/-- A call of a helper with all its arguments. -/
def helperCall (helper : Helper) (arguments : List Token) : List Token :=
  [.word helper.name, .openParen] ++ arguments ++ [.closeParen]

/-- What stands between two arguments or pieces. -/
def separator : List Token := [.comma, .space]

/-- The start of a function, `parameter?` being its parameter. -/
def functionOpen (parameter? : Option String) : List Token :=
  match parameter? with
  | none => [.word "lambda", .colon, .space]
  | some name => [.word "lambda", .space, .word name, .colon, .space]

/-- A call whose last argument is a function with a body of its own. -/
def blockOpen (helper : Helper) (value : List Token) (parameter? : Option String) : List Token :=
  [.word helper.name, .openParen] ++ value ++ separator ++ functionOpen parameter? ++ bodyOpen

/-- The code that reads a path from a variable. -/
def access (root : String) (path : List String) : List Token :=
  if path.isEmpty then [.word root]
  else
    helperCall .lookup
      (.word root :: path.flatMap fun segment => separator ++ [.literal segment])

/-! ## Steps -/

/-- Appends tokens to the output. -/
def emit (tokens : List Token) : Generate Unit :=
  modify fun g => { g with output := g.output ++ tokens }

/-- Appends one piece of a body. -/
def piece (tokens : List Token) : Generate Unit := emit (tokens ++ separator)

/-- A step of the scope. -/
def onScope (step : Scope → Except StructureFault Scope) : Generate Unit := do
  let g ← get
  match step g.scope with
  | .ok scope => set { g with scope }
  | .error fault => throw (Error.structural fault)

/-- Checks and records a path, and gives the code that reads it: from the variable of the loop
whose binding it starts with, or else from the context. -/
def reference (path : String) (required : Bool) : Generate (List Token) := do
  match Path.check path with
  | .error fault => throw (Error.semantic fault)
  | .ok () => pure ()
  let g ← get
  let segments := Path.segments path
  let code :=
    match segments with
    | [] => []
    | head :: rest =>
      if g.scope.isLocal head then access (Binding.variableOf head) rest
      else access g.contextName segments
  set { g with scope := (g.scope.record path required).2 }
  return code

/-- Opens a block over the elements of a path. -/
def nestIterable (path binding : String) : Generate Unit := do
  let g ← get
  let (result, scope) := g.scope.nestIterable path binding
  set { g with scope }
  match result with
  | .ok _ => pure ()
  | .error fault => throw (.template fault none)

/-! ## Parts -/

/-- A value in an attribute that is left out without it. -/
def optionalCode (key : String) (value : List Token) : List Token :=
  helperCall .ifDefined
    (value ++ separator ++ functionOpen (some "v") ++
      [.literal (" " ++ key ++ "=\""), .space, .plus, .space, .word "v", .space, .plus, .space,
        .literal "\""])

/-- The segments of a composite value, a literal first. -/
def composite : Bool → List String → Generate Unit
  | _, [] => pure ()
  | true, text :: rest => do
    unless text.isEmpty do piece [.literal text]
    composite false rest
  | false, path :: rest => do
    let value ← reference path true
    piece (helperCall .ifDefined value)
    composite true rest

/-- Puts a quote before the first segment and one after the last. -/
def quoteSegments : List String → List String
  | [] => []
  | first :: rest =>
    let segments := ("\"" ++ first) :: rest
    segments.dropLast ++ [segments.getLastD "" ++ "\""]

def conditional (path : String) (inverted emptiness : Bool) : Generate Unit := do
  let value ← reference path false
  let value := if emptiness then helperCall .isNonempty value else value
  if emptiness then nestIterable path "" else onScope Scope.nestPlain
  let value := if inverted then [.word "not", .space] ++ value else value
  emit (blockOpen .ifCheck value none)

/-- The iterated path is read outside the block, where the binding does not exist yet. -/
def loop (path binding : String) : Generate Unit := do
  let value ← reference path false
  match Binding.check (← get).contextName binding with
  | .error fault => throw (Error.semantic fault)
  | .ok name =>
    nestIterable path binding
    emit (blockOpen .loop value (some name))

/-- Appends the code of one part. -/
def part : Part → Generate Unit
  | .raw text => piece [.literal text]
  | .body path => do piece (helperCall .renderBody (← reference path false))
  | .comment path => do piece (helperCall .ifDefined (← reference path false))
  | .flag key path => do
    let value ← reference path false
    piece (helperCall .ifCheck (value ++ separator ++ functionOpen none ++ [.literal (" " ++ key)]))
  | .optional key path => do piece (optionalCode key (← reference path false))
  | .composite segments =>
    if segments.isEmpty then throw .noSegments else composite true (quoteSegments segments)
  | .conditional path inverted emptiness => conditional path inverted emptiness
  | .loop path binding => loop path binding
  | .otherwise => do
    onScope Scope.enterElse
    emit (bodyClose ++ separator ++ functionOpen none ++ bodyOpen)
  | .close => do
    onScope Scope.pop
    emit (bodyClose ++ [.closeParen] ++ separator)
  | .foreign kind => throw (.foreignPart kind)

/-- Appends the code of parts one after another. -/
def parts : List Part → Generate Unit
  | [] => pure ()
  | p :: rest => do
    part p
    parts rest

/-- Appends a whole body and takes the output's text as the expression. -/
def fold (ps : List Part) : Generate Unit := do
  emit bodyOpen
  parts ps
  match (← get).scope.finish with
  | .error fault => throw (Error.structural fault)
  | .ok () =>
    emit bodyClose
    modify fun g => { g with expression? := some (textOf g.output.toList) }

end Generate

namespace Generator

/-- Folds parts into the expression. -/
def fold (g : Generator) (parts : List Part) : Except Error Unit × Generator :=
  (Generate.fold parts).run g

end Generator
end HtmlTemplate
