import HtmlTemplate.Bundle
import HtmlTemplate.Bundle.Stray.Statement

/-!
# Loading — reading a module so that its functions can be called

A module is read as a whole before anything of it is carried out.  Its first comment ends with its
line, so that a line break in the folder's name lets the rest of the name out as code.
-/

namespace HtmlTemplate

open Text

/-- Why a module cannot be loaded. -/
inductive LoadFault where
  /-- The text cannot be read, at the line given. -/
  | unreadable (fault : CodeFault) (line : Nat)
  /-- A stray line fails. -/
  | stopped (fault : StrayFault)
  deriving DecidableEq, Repr

namespace LoadFault

def message : LoadFault → String
  | unreadable fault line => fault.message ++ " (<generated>, line " ++ toString line ++ ")"
  | stopped fault => fault.message

end LoadFault

namespace Bundle

/-! ## Stray lines -/

/-- How many line breaks a text holds. -/
def lineBreaks (text : String) : Nat := (unifyLineEnds text.toList).count '\n'

/-- Why the text stops making sense on the line where it cannot be cut any further. -/
def endFault (line : List Lexeme) (fault : CodeFault) : CodeFault :=
  let mayStart :=
    match fault with
    | .neverClosed _ => Statement.canStartBefore line
    | _ => Statement.canStart line
  if fault.isLexical || mayStart then fault else .unreadable

/-- What is missing after a line. -/
def blockFault? (line : List Lexeme) (number : Nat) : Option CodeFault :=
  match Statement.openedBy? line with
  | some what => some (.missingBlock what number)
  | none =>
    if Statement.isTrial line && (Statement.readLine line).isSome then some .missingRecovery
    else none

/-- Reads the statements of a line, `next` being the number of the line after it. -/
def statementsOf (fault : Option (CodeFault × Nat)) (line : List Lexeme) (number next : Nat) :
    Except LoadFault (List Statement) :=
  match fault.filter (·.1.isLexical), blockFault? line number, Statement.readLine line with
  | _, none, some statements => .ok statements
  | some (fault, at?), _, _ => .error (.unreadable fault at?)
  | none, some fault, _ => .error (.unreadable fault next)
  | none, none, none => .error (.unreadable (Statement.faultOf line) number)

/-- Reads the lines up to the last stray one, each with its number, `line` being what was read of
the present one.  `fault` is where the text cannot be cut any further. -/
def readStray (last : Nat) (fault : Option (CodeFault × Nat)) (line : List Lexeme) :
    List Lexeme.Placed → Except LoadFault (List (Nat × List Statement))
  | [] =>
    match fault with
    | some (fault, at?) => .error (.unreadable (endFault line fault) at?)
    | none => .ok []
  | (number, .margin) :: rest =>
    if line.isEmpty && number ≤ last then .error (.unreadable .indented number)
    else readStray last fault line rest
  | (number, .lineEnd) :: rest =>
    let goesOn := rest.head?.any (·.2 == .margin)
    if line.isEmpty then readStray last fault [] rest
    else if (Statement.openedBy? line).isSome && goesOn then
      readStray last fault (line ++ [.lineEnd]) rest
    else if line.contains .lineEnd && goesOn then
      readStray last fault (line ++ [.sign ";"]) rest
    else do
      let next := (rest.head?.map (·.1)).getD number
      let statements ← statementsOf fault line number next
      return (number, statements) :: (← readStray last fault [] rest)
  | (number, lexeme) :: rest =>
    if line.isEmpty && last < number then readStray last fault [] rest
    else readStray last fault (line ++ [lexeme]) rest

/-- Refuses statements that belong elsewhere. -/
def checkStatements : List (Nat × List Statement) → Except LoadFault Unit
  | [] => .ok ()
  | (number, statements) :: rest =>
    match Statement.misplacedFault? statements with
    | some fault => .error (.unreadable fault number)
    | none => checkStatements rest

/-- The statements that the folder's name lets out, by lines. -/
def strayLines (b : Bundle) : Except LoadFault (List (Nat × List Statement)) :=
  match lineBreaks b.folder with
  | 0 => .ok []
  | count =>
    let (lexemes, fault) := Lexeme.cut (unifyLineEnds b.text.toList)
    readStray (count + 1) fault [] lexemes

/-! ## Functions -/

/-- Refuses functions with a parameter that cannot be bound, `line` being the last line before
them. -/
def checkFunctions (line : Nat) : List TemplateFunction → Except LoadFault Unit
  | [] => .ok ()
  | f :: rest =>
    let line := line + lineBreaks (TemplateFunction.text f.name f.file f.compiled)
    match f.compiled.code with
    | .error (.reservedParameter name) => .error (.unreadable (.reservedParameter name) line)
    | _ => checkFunctions line rest

/-! ## Loading -/

/-- Loads a module. -/
def load (b : Bundle) : Except LoadFault Unit := do
  let lines ← b.strayLines
  checkStatements lines
  checkFunctions (lineBreaks (header b.folder)) b.functions
  let _ ← ((lines.flatMap (·.2)).foldlM Statement.run []).mapError LoadFault.stopped

end Bundle
end HtmlTemplate
