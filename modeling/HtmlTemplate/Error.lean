import HtmlTemplate.FilePath
import HtmlTemplate.Location
import HtmlTemplate.Text.Quoted
import HtmlTemplate.Text.Utf8

/-!
# Error — why a template, a tag or a directory of templates is refused

Every refusal is a cause; the wording of all causes is in the `message` functions.  Faults in a
template's source carry the place where they were found, if it is known.
-/

namespace HtmlTemplate

open Text

/-- At most this many loops and conditionals may be open at once. -/
def maxDepth : Nat := 50

/-! ## Faults in a template -/

/-- The source is not made of text, markers, comments and tags. -/
inductive LexicalFault where
  | malformedTag (isClose : Bool) (name found : String)
  | unterminatedMarker (snippet : String)
  | reported (text : String)
  deriving DecidableEq, Repr

namespace LexicalFault

def message : LexicalFault → String
  | malformedTag isClose name found =>
    "malformed tag terminator in <" ++ (if isClose then "/" else "") ++ name ++
      ">: expected '>' or '/>', found " ++ quoted found
  | unterminatedMarker snippet => "unterminated expression: " ++ quoted snippet
  | reported text => text

end LexicalFault

/-- Loops, conditionals, elses and closes do not match up. -/
inductive StructureFault where
  | strayElse
  | secondElse
  | strayClose
  | leftOpen (count : Nat)
  | tooDeep
  | reported (text : String)
  deriving DecidableEq, Repr

namespace StructureFault

def message : StructureFault → String
  | strayElse => "else without an open loop or conditional"
  | secondElse => "more than one else in the same block"
  | strayClose => "close without an open loop or conditional"
  | leftOpen count => toString count ++ " loop/conditional block(s) left open at end of template"
  | tooDeep => "loops and conditionals nested deeper than " ++ toString maxDepth ++ " levels"
  | reported text => text

end StructureFault

/-- The form is right and the meaning is not. -/
inductive SemanticFault where
  | shorthandWithoutName
  | extraLoopWords (expression : String)
  | dottedBinding (binding : String)
  | invalidBinding (binding : String)
  | bindingIsContext (binding : String)
  | unusableBinding (binding : String)
  | pathStart (path : String)
  | pathCharacters (path : String)
  | reported (text : String)
  deriving DecidableEq, Repr

/-- An expression between its double braces. -/
def inBraces (expression : String) : String := "\x7b\x7b" ++ expression ++ "\x7d\x7d"

namespace SemanticFault

def message : SemanticFault → String
  | shorthandWithoutName => "':' attribute shorthand needs a name"
  | extraLoopWords expression => "unexpected tokens in loop directive: " ++ inBraces expression
  | dottedBinding binding => "loop binding " ++ quoted binding ++ " can't contain '.'"
  | invalidBinding binding =>
    "invalid loop binding " ++ quoted binding ++
      ": must start with a letter, '$' or '_' and contain only word characters and '$'"
  | bindingIsContext binding =>
    "loop binding " ++ quoted binding ++ " collides with the context name"
  | unusableBinding binding => "loop binding " ++ quoted binding ++ " is not a valid identifier"
  | pathStart path => "invalid path " ++ quoted path ++ ": must start with a letter, '$' or '_'"
  | pathCharacters path =>
    "invalid path " ++ quoted path ++
      ": only word characters, '.' and '$' are allowed and segments can't be empty"
  | reported text => text

end SemanticFault

inductive TemplateFault where
  | lexical (fault : LexicalFault)
  | structural (fault : StructureFault)
  | semantic (fault : SemanticFault)
  | unknownDirective (expression : String)
  | reported (text : String)
  deriving DecidableEq, Repr

namespace TemplateFault

def message : TemplateFault → String
  | lexical fault => fault.message
  | structural fault => fault.message
  | semantic fault => fault.message
  | unknownDirective expression => "unrecognized directive: " ++ inBraces expression
  | reported text => text

end TemplateFault

/-! ## Faults in a directive tag -/

inductive TagFault where
  | notAllowed
  | needsValue
  | missing
  | notOnePath (value : String)
  | attributesOnClose
  | notOneTest
  | notSelfClosing
  | unknownName (known : List String)
  | reported (text : String)
  deriving DecidableEq, Repr

namespace TagFault

def message : TagFault → String
  | notAllowed => "attribute is not allowed"
  | needsValue => "attribute needs a value"
  | missing => "attribute is required"
  | notOnePath value => "expected a single path, got " ++ quoted value
  | attributesOnClose => "closing tag takes no attributes"
  | notOneTest => "needs exactly one of 'i' or 'iter'"
  | notSelfClosing => "must be self-closing, e.g. <hc:else/>"
  | unknownName known => "unknown directive tag (known: " ++ ", ".intercalate known ++ ")"
  | reported text => text

end TagFault

/-! ## All refusals -/

inductive Error where
  /-- A template is at fault. -/
  | template (fault : TemplateFault) (location : Option Location)
  /-- A directive tag is misused. -/
  | tag (name : String) (key : Option String) (fault : TagFault)
  /-- Two files would give one function. -/
  | duplicateTemplate (name first second : String)
  /-- The context parameter has no usable name. -/
  | invalidContextName (name : String)
  /-- The context parameter has the name of a helper. -/
  | helperContextName (name : String)
  /-- A namespace of tags needs something in front of the tag's own name. -/
  | emptyNamespace
  /-- An attribute value without any segment has no code. -/
  | noSegments
  /-- A part that is no built-in one has no code. -/
  | foreignPart (kind : String)
  /-- There is no expression before parts were folded into one. -/
  | nothingFolded
  /-- A tag handler lists no names. -/
  | handlerWithoutNames (handler : String)
  /-- A tag name has a handler already. -/
  | nameTaken (name handler : String)
  /-- A file's name holds no letter or digit to make a function name of. -/
  | unnamedTemplate (stem : String)
  | notDirectory (path : String)
  /-- A path cannot even be looked up. -/
  | unopened (fault : OpenFault) (path : String)
  /-- A file is not UTF-8. -/
  | undecodable (fault : Utf8Fault)
  /-- A refusal in the words of an extension. -/
  | reported (text : String)
  deriving DecidableEq, Repr

namespace Error

/-- A message with the place in front of it. -/
def located (location : Option Location) (message : String) : String :=
  match location with
  | none => message
  | some location => location.text ++ " " ++ message

/-- What is wrong with a tag, naming the tag and the attribute. -/
def tagMessage (name : String) (key : Option String) (message : String) : String :=
  let place :=
    match key with
    | none => ""
    | some key => " attribute '" ++ key ++ "'"
  "Tag '<" ++ name ++ ">'" ++ place ++ ": " ++ message

def message : Error → String
  | template fault location => located location fault.message
  | tag name key fault => tagMessage name key fault.message
  | duplicateTemplate name first second =>
    "duplicate template name " ++ quoted name ++ ": " ++ first ++ " and " ++ second
  | invalidContextName name =>
    "context name " ++ quoted name ++ " must be an identifier not starting with '_'"
  | helperContextName name =>
    "context name " ++ quoted name ++ " shadows the runtime helper of that name"
  | emptyNamespace => "tag namespace prefix must not be empty"
  | noSegments => "list index out of range"
  | foreignPart kind => "cannot generate code for " ++ kind
  | nothingFolded => "fold() has not been called"
  | handlerWithoutNames handler => "Handler " ++ handler ++ " missing 'names' attribute"
  | nameTaken name handler => "Tag '" ++ name ++ "' already registered by " ++ handler
  | unnamedTemplate stem => "can't derive a function name from " ++ quoted stem
  | notDirectory path => "not a directory: " ++ path
  | unopened fault path => fault.message path
  | undecodable fault => fault.message
  | reported text => text

/-- A fault in the structure of loops and conditionals, found after the source was read. -/
def structural (fault : StructureFault) : Error := template (.structural fault) none

/-- A fault of meaning, found after the source was read. -/
def semantic (fault : SemanticFault) : Error := template (.semantic fault) none

end Error
end HtmlTemplate
