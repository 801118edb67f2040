/-!
# Fault — why rendering stops
-/

namespace HtmlTemplate

inductive RenderFault where
  /-- A value of the user's own refuses what it is asked for, such as its text. -/
  | conversion
  /-- An object reports a length below zero. -/
  | negativeLength
  /-- An object reports a length that no sequence has. -/
  | lengthTooLarge
  /-- A range is longer than any sequence. -/
  | rangeTooLong
  /-- A number has more digits than are read or written.  How many it has is told of one that is
  read. -/
  | indexTooLong (digits? : Option Nat)
  /-- Code names a parameter that cannot be bound. -/
  | reservedParameter (name : String)
  /-- Code leaves a bracket open. -/
  | unclosed
  /-- Code is no expression. -/
  | unreadable
  /-- Code reads a name that is not bound. -/
  | unbound (name : String)
  /-- Code calls a value that is no function. -/
  | notCallable (kind : String)
  /-- Code uses a value as what it is not. -/
  | misuse (what : String)
  deriving DecidableEq, Repr

namespace RenderFault

/-- A number that is read or written may have at most this many digits. -/
def maxDigits : Nat := 4300

def message : RenderFault → String
  | conversion => "boom"
  | negativeLength => "__len__() should return >= 0"
  | lengthTooLarge => "cannot fit 'int' into an index-sized integer"
  | rangeTooLong => "Python int too large to convert to C ssize_t"
  | indexTooLong digits? =>
    "Exceeds the limit (" ++ toString maxDigits ++ " digits) for integer string conversion" ++
      (match digits? with
        | some digits => ": value has " ++ toString digits ++ " digits"
        | none => "") ++
      "; use sys.set_int_max_str_digits() to increase the limit"
  | reservedParameter name => "cannot assign to " ++ name ++ " (<hcompile>, line 1)"
  | unclosed => "'(' was never closed (<hcompile>, line 1)"
  | unreadable => "invalid syntax (<hcompile>, line 1)"
  | unbound name => "name '" ++ name ++ "' is not defined"
  | notCallable kind => "'" ++ kind ++ "' object is not callable"
  | misuse what => what

end RenderFault
end HtmlTemplate
