/-!
# Log — what is reported while templates are compiled
-/

namespace HtmlTemplate

inductive LogLevel where
  | debug
  | info
  | warning
  | error
  deriving DecidableEq, Repr

namespace LogLevel

def name : LogLevel → String
  | debug => "DEBUG"
  | info => "INFO"
  | warning => "WARNING"
  | error => "ERROR"

/-- Whether a level is reported even if no details are asked for. -/
def isUrgent : LogLevel → Bool
  | debug | info => false
  | warning | error => true

end LogLevel

structure LogLine where
  channel : String
  level : LogLevel
  message : String
  deriving DecidableEq, Repr

namespace LogLine

def root : String := "hcompile"

/-- The channel of a name: the root, or a channel below it. -/
def channelOf (name : String) : String :=
  if name = root || name.startsWith (root ++ ".") then name else root ++ "." ++ name

def text (l : LogLine) : String := l.channel ++ ": " ++ l.level.name ++ ": " ++ l.message ++ "\n"

end LogLine

/-- The text of the lines that are reported. -/
def logText (details : Bool) (lines : List LogLine) : String :=
  String.join ((lines.filter fun l => details || l.level.isUrgent).map LogLine.text)

end HtmlTemplate
