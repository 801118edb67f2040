import HtmlTemplate.Text.Digit
import HtmlTemplate.Text.Quoted

/-!
# Arguments — reading the command line

An option is written as a word with two dashes, of which the beginning is enough if it is
unambiguous, or as a letter with one dash.  A value stands after an equals sign, right after the
letter, or in the next argument; letters without a value may share a dash, also after an equals
sign.  After two dashes alone no argument is an option, and as a value they are void.  The first
argument that is no option or value is the folder.
-/

namespace HtmlTemplate

open Text

/-! ## Options -/

inductive CommandOption where
  | help
  | output
  | contextName
  | verbose
  deriving DecidableEq, Repr

namespace CommandOption

/-- The spellings of the options, in the order in which they are listed. -/
def spellings : List (String × CommandOption) :=
  [("-h", help), ("--help", help), ("-o", output), ("--output", output),
    ("--context-name", contextName), ("-v", verbose), ("--verbose", verbose)]

/-- How an option is called in messages. -/
def label : CommandOption → String
  | help => "-h/--help"
  | output => "-o/--output"
  | contextName => "--context-name"
  | verbose => "-v/--verbose"

def takesValue : CommandOption → Bool
  | help | verbose => false
  | output | contextName => true

end CommandOption

/-- What is wrong with a command line. -/
inductive UsageFault where
  | ambiguous (argument : String) (spellings : List String)
  | missingValue (option : CommandOption)
  | extraValue (option : CommandOption) (value : String)
  | unrecognized (arguments : List String)
  deriving DecidableEq, Repr

namespace UsageFault

def message : UsageFault → String
  | ambiguous argument spellings =>
    "ambiguous option: " ++ argument ++ " could match " ++ ", ".intercalate spellings
  | missingValue option => "argument " ++ option.label ++ ": expected one argument"
  | extraValue option value =>
    "argument " ++ option.label ++ ": ignored explicit argument " ++ quoted value
  | unrecognized arguments => "unrecognized arguments: " ++ " ".intercalate arguments

end UsageFault

/-! ## What an argument is -/

inductive Argument where
  /-- A value, or the folder. -/
  | plain (text : String)
  /-- Two dashes. -/
  | dashes
  /-- An option, with what its argument holds after it; `short` if it is written as a letter. -/
  | option (option : CommandOption) (short : Bool) (attached : Option (List Char))
  /-- Something like an option. -/
  | unknown (text : String)
  deriving DecidableEq, Repr

namespace Argument

/-- The text before the first equals sign, and what stands after it. -/
def splitEquals (text : String) : String × Option (List Char) :=
  match text.toList.dropWhile (· != '=') with
  | [] => (text, none)
  | _ :: after => (String.ofList (text.toList.takeWhile (· != '=')), some after)

/-- Whether a text is a decimal number below zero. -/
def isNegativeNumber (text : String) : Bool :=
  let isDecimal (cs : List Char) : Bool := cs.all fun c => (digitValue? c).isSome
  let number := if text.endsWith "\n" then text.toList.dropLast else text.toList
  match number with
  | '-' :: cs =>
    let whole := cs.takeWhile (· != '.')
    match cs.dropWhile (· != '.') with
    | [] => !whole.isEmpty && isDecimal whole
    | _ :: fraction => isDecimal whole && !fraction.isEmpty && isDecimal fraction
  | _ => false

def isShort (spelling : String) : Bool := spelling.length == 2

/-- The options that an argument may mean: by the beginning of a word, with a value after an
equals sign, or by a letter, with a value right after it. -/
def candidates (text : String) : List (String × Argument) :=
  match text.toList with
  | '-' :: '-' :: _ =>
    let (word, value) := splitEquals text
    (CommandOption.spellings.filter fun s => s.1.startsWith word).map fun (spelling, o) =>
      (spelling, .option o (isShort spelling) value)
  | '-' :: letter :: rest =>
    (CommandOption.spellings.filter fun s => s.1 = String.ofList ['-', letter]).map
      fun (spelling, o) => (spelling, .option o true (some rest))
  | _ => []

/-- Tells what an argument is, before two dashes alone. -/
def classify (text : String) : Except UsageFault Argument :=
  if !text.startsWith "-" then .ok (.plain text)
  else
    match CommandOption.spellings.lookup text with
    | some o => .ok (.option o (isShort text) none)
    | none =>
      if text.length == 1 then .ok (.plain text)
      else
        let (word, value) := splitEquals text
        match value, CommandOption.spellings.lookup word with
        | some v, some o => .ok (.option o (isShort word) (some v))
        | _, _ =>
          match candidates text with
          | [(_, argument)] => .ok argument
          | [] =>
            if isNegativeNumber text || text.toList.contains ' ' then .ok (.plain text)
            else .ok (.unknown text)
          | several => .error (.ambiguous text (several.map (·.1)))

/-- Tells what each argument is.  After two dashes alone there are no options. -/
def classifyAll : List String → Except UsageFault (List Argument)
  | [] => .ok []
  | text :: rest =>
    if text = "--" then .ok (.dashes :: rest.map .plain)
    else do
      let first ← classify text
      return first :: (← classifyAll rest)

end Argument

/-! ## Letters that share a dash -/

/-- What an option asks for once the letters that share its dash are told apart: the options
without a value that come first, and then nothing, an option with its value, or one whose value is
the next argument. -/
inductive Demand where
  | flags (first : List CommandOption)
  | value (first : List CommandOption) (option : CommandOption) (text : String)
  | next (first : List CommandOption) (option : CommandOption)
  deriving DecidableEq, Repr

namespace Demand

/-- How many characters are attached. -/
def attachedLength : Option (List Char) → Nat
  | none => 0
  | some text => text.length

/-- What is attached to a letter by the characters after it. -/
def attachedOf : List Char → Option (List Char)
  | [] => none
  | text => some text

theorem attachedLength_attachedOf (cs : List Char) : attachedLength (attachedOf cs) = cs.length := by
  cases cs with
  | nil => rfl
  | cons => rfl

/-- Tells apart what is attached to an option, `first` being the letters before it. -/
def ofOption (first : List CommandOption) (o : CommandOption) (short : Bool) :
    Option (List Char) → Except UsageFault Demand
  | none => .ok (if o.takesValue then next first o else flags (first ++ [o]))
  | some [] =>
    if o.takesValue then .ok (value first o "") else .error (.extraValue o "")
  | some (letter :: rest) =>
    if o.takesValue then .ok (value first o (String.ofList (letter :: rest)))
    else
      match short, CommandOption.spellings.lookup (String.ofList ['-', letter]) with
      | true, some other => ofOption (first ++ [o]) other true (attachedOf rest)
      | _, _ => .error (.extraValue o (String.ofList (letter :: rest)))
termination_by attached => attachedLength attached
decreasing_by
  rw [attachedLength_attachedOf]
  exact Nat.lt_succ_self _

end Demand

/-! ## Reading -/

/-- What an option has as its value.  Two dashes alone are void: they stand where a value should,
and give none. -/
inductive OptionValue where
  | absent
  | void
  | text (value : String)
  deriving DecidableEq, Repr

namespace OptionValue

def ofText (text : String) : OptionValue := if text = "--" then void else .text text

end OptionValue

structure Arguments where
  folder : String := "."
  output : OptionValue := .absent
  contextName : OptionValue := .text "context"
  verbose : Bool := false
  deriving DecidableEq, Repr

/-- Why reading stops. -/
inductive ArgumentsStop where
  | fault (fault : UsageFault)
  | help
  deriving DecidableEq, Repr

/-- What was read so far: the folder is read once, and `extra` holds what has no use. -/
structure ArgumentsState where
  arguments : Arguments := {}
  folderRead : Bool := false
  extra : List String := []
  deriving DecidableEq, Repr

namespace ArgumentsState

/-- Carries out an option that takes no value. -/
def takeFlag (s : ArgumentsState) : CommandOption → Except ArgumentsStop ArgumentsState
  | .help => .error .help
  | _ => .ok { s with arguments := { s.arguments with verbose := true } }

/-- Carries out options that take no value. -/
def takeFlags (s : ArgumentsState) (first : List CommandOption) :
    Except ArgumentsStop ArgumentsState := first.foldlM takeFlag s

/-- Carries out an option that takes a value. -/
def takeValue (s : ArgumentsState) (o : CommandOption) (text : String) : ArgumentsState :=
  let value := OptionValue.ofText text
  match o with
  | .output => { s with arguments := { s.arguments with output := value } }
  | .contextName => { s with arguments := { s.arguments with contextName := value } }
  | _ => s

/-- An argument without use. -/
def addExtra (s : ArgumentsState) (text : String) : ArgumentsState :=
  { s with extra := s.extra ++ [text] }

def takeFolder (s : ArgumentsState) (text : String) : ArgumentsState :=
  { s with folderRead := true, arguments := { s.arguments with folder := text } }

/-- Reads the arguments from left to right.  Two dashes next to the folder go with it. -/
def read (s : ArgumentsState) : List Argument → Except ArgumentsStop ArgumentsState
  | [] => .ok s
  | .unknown text :: rest => (s.addExtra text).read rest
  | .plain text :: rest =>
    if s.folderRead then (s.addExtra text).read rest
    else
      match rest with
      | .dashes :: rest => (s.takeFolder text).read rest
      | rest => (s.takeFolder text).read rest
  | .dashes :: rest =>
    if s.folderRead then (s.addExtra "--").read rest
    else
      match rest with
      | .plain text :: rest => (s.takeFolder text).read rest
      | rest => { s with folderRead := true }.read rest
  | .option o short attached :: rest =>
    match Demand.ofOption [] o short attached with
    | .error fault => .error (.fault fault)
    | .ok (.flags first) => do (← s.takeFlags first).read rest
    | .ok (.value first o text) => do ((← s.takeFlags first).takeValue o text).read rest
    | .ok (.next first o) =>
      match rest with
      | .plain text :: rest => do ((← s.takeFlags first).takeValue o text).read rest
      | _ => .error (.fault (.missingValue o))

end ArgumentsState

namespace Arguments

/-- Reads a command line. -/
def read (texts : List String) : Except ArgumentsStop Arguments := do
  let arguments ← (Argument.classifyAll texts).mapError ArgumentsStop.fault
  let s ← ({} : ArgumentsState).read arguments
  if s.extra.isEmpty then return s.arguments
  else throw (.fault (.unrecognized s.extra))

end Arguments
end HtmlTemplate
