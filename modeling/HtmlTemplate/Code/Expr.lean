import HtmlTemplate.Code.Token
import HtmlTemplate.Text.Normal.Name
import HtmlTemplate.Value.Fault

/-!
# Expr — expressions of the generated code, and how they are read

`Expr.read` reads a text token by token.  What is still open around the place that was reached is a
stack: brackets that need a closing one, and operators whose operand is being read.  Brackets bind
tightest, then `+`, then `not`, and a function's body reaches as far as it can.  Names are read in
their normal spelling.
-/

namespace HtmlTemplate

open Text

inductive Expr where
  | literal (text : String)
  | name (name : String)
  | tuple (items : List Expr)
  | member (target : Expr) (name : String)
  | call (target : Expr) (arguments : List Expr)
  | function (parameter? : Option String) (body : Expr)
  | negation (operand : Expr)
  | plus (left right : Expr)

namespace Expr

/-! ## The stack -/

/-- Something that is open: a bracket with what it holds so far, or an operator. -/
inductive Opening where
  | group (items : List Expr)
  | call (target : Expr) (arguments : List Expr)
  | function (parameter? : Option String)
  | negation
  | plus (left : Expr)

/-- What may come next. -/
inductive Expectation where
  /-- An operand, or the end of a bracket. -/
  | operand
  /-- Something that goes on from the operand read, or ends it. -/
  | operator (operand : Expr)
  /-- The name of a member. -/
  | member (target : Expr)
  /-- The parameter of a function, or the colon before its body. -/
  | parameter
  /-- The colon after a parameter. -/
  | colon (parameter : String)

structure Reading where
  expects : Expectation
  stack : List Opening

/-- Applies the operators that were waiting for an operand, up to the innermost open bracket. -/
def settle (e : Expr) : List Opening → Expr × List Opening
  | .plus left :: stack => settle (plus left e) stack
  | .negation :: stack => settle (negation e) stack
  | .function parameter? :: stack => settle (function parameter? e) stack
  | stack => (e, stack)

/-- Applies the sum that was waiting for its right side. -/
def settleSum (e : Expr) : List Opening → Expr × List Opening
  | .plus left :: stack => (plus left e, stack)
  | stack => (e, stack)

/-- Whether an operator of the lowest precedence may start here. -/
def admitsFunction : List Opening → Bool
  | .plus _ :: _ => false
  | .negation :: _ => false
  | _ => true

def admitsNegation : List Opening → Bool
  | .plus _ :: _ => false
  | _ => true

/-! ## Reading -/

/-- Reads a token where an operand may start. -/
def readOperand (stack : List Opening) : Token → Except RenderFault Reading
  | .literal text => .ok ⟨.operator (literal text), stack⟩
  | .word "lambda" => if admitsFunction stack then .ok ⟨.parameter, stack⟩ else .error .unreadable
  | .word "not" =>
    if admitsNegation stack then .ok ⟨.operand, .negation :: stack⟩ else .error .unreadable
  | .word word =>
    if isKeyword word then .error .unreadable else .ok ⟨.operator (name (normalName word)), stack⟩
  | .openParen => .ok ⟨.operand, .group [] :: stack⟩
  | .closeParen =>
    match stack with
    | .group items :: stack => .ok ⟨.operator (tuple items), stack⟩
    | .call target arguments :: stack => .ok ⟨.operator (call target arguments), stack⟩
    | _ => .error .unreadable
  | _ => .error .unreadable

/-- Reads a token after an operand. -/
def readOperator (e : Expr) (stack : List Opening) : Token → Except RenderFault Reading
  | .dot => .ok ⟨.member e, stack⟩
  | .openParen => .ok ⟨.operand, .call e [] :: stack⟩
  | .plus =>
    let (e, stack) := settleSum e stack
    .ok ⟨.operand, .plus e :: stack⟩
  | .comma =>
    match settle e stack with
    | (e, .group items :: stack) => .ok ⟨.operand, .group (items ++ [e]) :: stack⟩
    | (e, .call target arguments :: stack) =>
      .ok ⟨.operand, .call target (arguments ++ [e]) :: stack⟩
    | _ => .error .unreadable
  | .closeParen =>
    match settle e stack with
    | (e, .group [] :: stack) => .ok ⟨.operator e, stack⟩
    | (e, .group items :: stack) => .ok ⟨.operator (tuple (items ++ [e])), stack⟩
    | (e, .call target arguments :: stack) =>
      .ok ⟨.operator (call target (arguments ++ [e])), stack⟩
    | _ => .error .unreadable
  | _ => .error .unreadable

/-- Reads one token. -/
def readToken (r : Reading) (token : Token) : Except RenderFault Reading :=
  match token with
  | .space => .ok r
  | token =>
    match r.expects, token with
    | .operand, token => readOperand r.stack token
    | .operator e, token => readOperator e r.stack token
    | .member target, .word word =>
      if isKeyword word then .error .unreadable
      else .ok ⟨.operator (member target (normalName word)), r.stack⟩
    | .parameter, .colon => .ok ⟨.operand, .function none :: r.stack⟩
    | .parameter, .word word =>
      if isKeyword word then .error .unreadable else .ok ⟨.colon (normalName word), r.stack⟩
    | .colon parameter, .colon => .ok ⟨.operand, .function (some parameter) :: r.stack⟩
    | _, _ => .error .unreadable

/-- The expression, if the reading is complete. -/
def finish (r : Reading) : Except RenderFault Expr :=
  match r.expects with
  | .operator e =>
    match settle e r.stack with
    | (e, []) => .ok e
    | _ => .error .unreadable
  | _ => .error .unreadable

/-- Whether more brackets are opened than closed. -/
def leavesOpen (tokens : List Token) : Bool :=
  decide (tokens.count .closeParen < tokens.count .openParen)

/-- Reads a sequence of tokens. -/
def ofTokens (tokens : List Token) : Except RenderFault Expr :=
  match tokens.foldlM readToken ⟨.operand, []⟩ >>= finish with
  | .ok e => .ok e
  | .error fault => .error (if leavesOpen tokens then .unclosed else fault)

/-! ## Parameters -/

mutual

/-- The parameters of the functions in an expression. -/
def parameters : Expr → List String
  | literal _ => []
  | name _ => []
  | tuple items => parametersOfAll items
  | member target _ => parameters target
  | call target arguments => parameters target ++ parametersOfAll arguments
  | function none body => parameters body
  | function (some parameter) body => parameter :: parameters body
  | negation operand => parameters operand
  | plus left right => parameters left ++ parameters right

def parametersOfAll : List Expr → List String
  | [] => []
  | e :: es => parameters e ++ parametersOfAll es

end

/-- The identifier that no parameter may be. -/
def reservedName : String := "__debug__"

/-- Refuses a parameter that cannot be bound. -/
def bindable (e : Expr) : Except RenderFault Expr :=
  if e.parameters.contains reservedName then .error (.reservedParameter reservedName) else .ok e

/-- The expression that a text writes, whatever its parameters are called. -/
def ofText (text : String) : Except RenderFault Expr :=
  match Token.scan text.toList with
  | none => .error .unreadable
  | some tokens => ofTokens tokens

/-- Reads a text. -/
def read (text : String) : Except RenderFault Expr := ofText text >>= bindable

end Expr
end HtmlTemplate
