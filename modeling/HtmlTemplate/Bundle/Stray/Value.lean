import HtmlTemplate.Text.Quoted

/-!
# Value — what stray lines of a module compute

Whole numbers, texts and empty collections are known; of other values it is only known that they
are there.  What is done with a value of a known kind fails if the kind does not allow it.
-/

namespace HtmlTemplate

open Text

/-- Why loading a module stops after it was read. -/
inductive StrayFault where
  | unbound (name : String)
  | noModule (name : String)
  | division (message : String)
  /-- A value of one kind stands where it may not. -/
  | wrongKind (message : String)
  | noMember (kind member : String)
  | raised (kind message : String)
  deriving DecidableEq, Repr

namespace StrayFault

def message : StrayFault → String
  | unbound name => "name '" ++ name ++ "' is not defined"
  | noModule name => "No module named '" ++ name ++ "'"
  | division message => message
  | wrongKind message => message
  | noMember kind member => "'" ++ kind ++ "' object has no attribute '" ++ member ++ "'"
  | raised _ message => message

/-- A value is raised that is no error. -/
def notAnError : StrayFault := wrongKind "exceptions must derive from BaseException"

end StrayFault

inductive StrayValue where
  | whole (n : Int)
  | truth (b : Bool)
  | real (isZero : Bool)
  | text (content : String)
  | nothing
  /-- A collection without members. -/
  | empty (kind : String)
  /-- What a name stands for that is always there. -/
  | builtin (name : String)
  | error (kind message : String)
  | unknown
  deriving DecidableEq, Repr

namespace StrayValue

/-! ## Kinds -/

/-- The name of a value's kind, if it is known. -/
def kind? : StrayValue → Option String
  | whole _ => some "int"
  | truth _ => some "bool"
  | real _ => some "float"
  | text _ => some "str"
  | nothing => some "NoneType"
  | empty kind => some kind
  | builtin _ | error _ _ | unknown => none

def whole? : StrayValue → Option Int
  | whole n => some n
  | truth b => some (if b then 1 else 0)
  | _ => none

def isNumber : StrayValue → Bool
  | whole _ | truth _ | real _ => true
  | _ => false

def isZero : StrayValue → Bool
  | real isZero => isZero
  | v => v.whole? = some 0

/-- Whether a value counts as false.  One that is not known does not. -/
def isFalse : StrayValue → Bool
  | text content => content.isEmpty
  | nothing | empty _ => true
  | v => v.isZero

/-- Whether a value of a known kind has no members. -/
def isSingle (v : StrayValue) : Bool := v.isNumber || v = nothing

/-! ## Signs -/

/-- The signs of comparisons, by which values of one kind are in order. -/
def orderSigns : List String := ["<", ">", "<=", ">="]

/-- The signs that compute a value from two. -/
def arithmeticSigns : List String :=
  ["+", "-", "*", "/", "//", "%", "@", "**", "|", "^", "&", "<<", ">>"]

/-- The largest exponent of a power that is computed. -/
def exponentBound : Int := 64

def ofWholes (sign : String) (a b : Int) : Except StrayFault StrayValue :=
  match sign with
  | "+" => .ok (whole (a + b))
  | "-" => .ok (whole (a - b))
  | "*" => .ok (whole (a * b))
  | "/" => if b = 0 then .error (.division "division by zero") else .ok (real (a == 0))
  | "//" =>
    if b = 0 then .error (.division "integer division or modulo by zero")
    else .ok (whole (a.fdiv b))
  | "%" =>
    if b = 0 then .error (.division "integer modulo by zero") else .ok (whole (a.fmod b))
  | "**" =>
    if b < 0 then
      if a = 0 then .error (.division "0.0 cannot be raised to a negative power")
      else .ok (real false)
    else if b ≤ exponentBound then .ok (whole (Nat.repeat (a * ·) b.toNat 1))
    else .ok unknown
  | "<<" | ">>" =>
    if b < 0 then .error (.raised "ValueError" "negative shift count") else .ok unknown
  | "@" => .error (.wrongKind "unsupported operand type(s) for @: 'int' and 'int'")
  | "==" => .ok (truth (a == b))
  | "!=" => .ok (truth (a != b))
  | "<" => .ok (truth (decide (a < b)))
  | ">" => .ok (truth (decide (b < a)))
  | "<=" => .ok (truth (decide (a ≤ b)))
  | ">=" => .ok (truth (decide (b ≤ a)))
  | _ => .ok unknown

/-- The result of a sign between numbers that are not both whole. -/
def ofReals (sign : String) (divisor : StrayValue) : Except StrayFault StrayValue :=
  if divisor.isZero then
    match sign with
    | "/" => .error (.division "float division by zero")
    | "//" => .error (.division "float floor division by zero")
    | "%" => .error (.division "float modulo")
    | _ => .ok unknown
  else .ok unknown

/-- The result of a sign between values that are not both numbers. -/
def ofKinds (sign : String) (a b : StrayValue) (kindA kindB : String) :
    Except StrayFault StrayValue :=
  let isSequence (kind : String) := ["str", "list", "tuple"].contains kind
  if sign = "+" && isSequence kindA then
    match a, b with
    | text s, text t => .ok (text (s ++ t))
    | _, _ =>
      if kindA = kindB then .ok a
      else
        .error (.wrongKind ("can only concatenate " ++ kindA ++ " (not \"" ++ kindB ++ "\") to " ++ kindA))
  else if sign = "*" && ((isSequence kindA && b.whole?.isSome) || (isSequence kindB && a.whole?.isSome))
  then .ok unknown
  else if sign = "%" && kindA = "str" then
    if b.isSingle then .error (.wrongKind "not all arguments converted during string formatting")
    else .ok unknown
  else if sign = "|" && kindA = "dict" && kindB = "dict" then .ok a
  else if arithmeticSigns.contains sign then
    let shown := if sign = "**" then "** or pow()" else sign
    .error (.wrongKind ("unsupported operand type(s) for " ++ shown ++ ": '" ++ kindA ++ "' and '" ++
      kindB ++ "'"))
  else if orderSigns.contains sign && !(kindA = kindB && isSequence kindA) then
    .error (.wrongKind ("'" ++ sign ++ "' not supported between instances of '" ++ kindA ++ "' and '" ++
      kindB ++ "'"))
  else if sign = "==" then .ok (truth (a == b))
  else if sign = "!=" then .ok (truth (a != b))
  else .ok unknown

/-- Whether a value is in another. -/
def isIn (a b : StrayValue) : Except StrayFault StrayValue :=
  match b, b.kind?, a.kind? with
  | text _, _, some kind =>
    if kind = "str" then .ok unknown
    else .error (.wrongKind ("'in <string>' requires string as left operand, not " ++ kind))
  | empty _, _, _ => .ok (truth false)
  | _, some kind, _ => .error (.wrongKind ("argument of type '" ++ kind ++ "' is not iterable"))
  | _, none, _ => .ok unknown

/-! ## Errors -/

/-- The errors that can be raised by their name. -/
def errorNames : List String :=
  ["ArithmeticError", "AssertionError", "AttributeError", "BaseException", "BlockingIOError",
    "BrokenPipeError", "BufferError", "BytesWarning", "ChildProcessError",
    "ConnectionAbortedError", "ConnectionError", "ConnectionRefusedError", "ConnectionResetError",
    "DeprecationWarning", "EOFError", "EncodingWarning", "Exception", "FileExistsError",
    "FileNotFoundError", "FloatingPointError", "FutureWarning", "GeneratorExit", "ImportError",
    "ImportWarning", "IndentationError", "IndexError", "InterruptedError", "IsADirectoryError",
    "KeyError", "KeyboardInterrupt", "LookupError", "MemoryError", "ModuleNotFoundError",
    "NameError", "NotADirectoryError", "NotImplementedError", "OSError", "OverflowError",
    "PendingDeprecationWarning", "PermissionError", "ProcessLookupError", "RecursionError",
    "ReferenceError", "ResourceWarning", "RuntimeError", "RuntimeWarning", "StopAsyncIteration",
    "StopIteration", "SyntaxError", "SyntaxWarning", "SystemError", "SystemExit", "TabError",
    "TimeoutError", "TypeError", "UnboundLocalError", "UnicodeError", "UnicodeWarning",
    "UserWarning", "ValueError", "Warning", "ZeroDivisionError"]

/-- An error with a value as its message. -/
def errorWith (kind : String) : StrayValue → StrayValue
  | text content => error kind (if kind = "KeyError" then quoted content else content)
  | whole n => error kind (toString n)
  | nothing => error kind "None"
  | truth b => error kind (if b then "True" else "False")
  | _ => unknown

/-- What happens if a value is raised. -/
def raised : StrayValue → StrayFault
  | error kind message => .raised kind message
  | builtin name => if errorNames.contains name then .raised name "" else .notAnError
  | _ => .notAnError

/-! ## Calls, members and items -/

/-- Whether a text is a whole number. -/
def isWholeText (content : String) : Bool :=
  let cs := content.trimAscii.toString.toList
  let digits := if cs.head? == some '-' || cs.head? == some '+' then cs.tail else cs
  !digits.isEmpty && digits.all fun c => c.isDigit || c == '_'

def call (f argument : StrayValue) : Except StrayFault StrayValue :=
  match f, f.kind?, argument with
  | _, some kind, _ => .error (.wrongKind ("'" ++ kind ++ "' object is not callable"))
  | builtin "int", _, text content =>
    if isWholeText content then .ok unknown
    else
      .error (.raised "ValueError" ("invalid literal for int() with base 10: " ++ quoted content))
  | builtin "float", _, text content =>
    if content.toList.any Char.isDigit then .ok unknown
    else .error (.raised "ValueError" ("could not convert string to float: " ++ quoted content))
  | builtin "len", _, v =>
    match v.kind? with
    | some kind =>
      if v.isSingle then .error (.wrongKind ("object of type '" ++ kind ++ "' has no len()"))
      else .ok unknown
    | none => .ok unknown
  | builtin name, _, v => .ok (if errorNames.contains name then errorWith name v else unknown)
  | _, _, _ => .ok unknown

/-- The result of a call without arguments. -/
def callEmpty (f : StrayValue) : Except StrayFault StrayValue :=
  match f, f.kind? with
  | _, some kind => .error (.wrongKind ("'" ++ kind ++ "' object is not callable"))
  | builtin "len", _ => .error (.wrongKind "len() takes exactly one argument (0 given)")
  | builtin name, _ => .ok (if errorNames.contains name then error name "" else unknown)
  | _, _ => .ok unknown

/-- The members of kinds that have few. -/
def members : List (String × List String) :=
  [("NoneType", []),
    ("int", ["as_integer_ratio", "bit_count", "bit_length", "conjugate", "denominator",
      "from_bytes", "imag", "numerator", "real", "to_bytes"]),
    ("float", ["as_integer_ratio", "conjugate", "fromhex", "hex", "imag", "is_integer", "real"]),
    ("tuple", ["count", "index"]),
    ("list", ["append", "clear", "copy", "count", "extend", "index", "insert", "pop", "remove",
      "reverse", "sort"]),
    ("dict", ["clear", "copy", "fromkeys", "get", "items", "keys", "pop", "popitem", "setdefault",
      "update", "values"])]

def member (v : StrayValue) (name : String) : Except StrayFault StrayValue :=
  match v.kind? with
  | some kind =>
    match members.lookup kind with
    | some known =>
      if known.contains name || name.startsWith "__" then .ok unknown
      else .error (.noMember kind name)
    | none => .ok unknown
  | none => .ok unknown

/-- The item of a value, `index` being its place or its key. -/
def item (v index : StrayValue) : Except StrayFault StrayValue :=
  match v, v.kind?, index with
  | empty "dict", _, text key => .error (.raised "KeyError" (quoted key))
  | empty "dict", _, whole n => .error (.raised "KeyError" (toString n))
  | empty "dict", _, _ => .ok unknown
  | empty kind, _, index =>
    match index.whole?, index.kind? with
    | some _, _ => .error (.raised "IndexError" (kind ++ " index out of range"))
    | none, some indexKind =>
      .error (.wrongKind (kind ++ " indices must be integers or slices, not " ++ indexKind))
    | none, none => .ok unknown
  | text content, _, index =>
    match index.whole?, index.kind? with
    | some n, _ =>
      if n < content.length && -n ≤ content.length then .ok unknown
      else .error (.raised "IndexError" "string index out of range")
    | none, some indexKind =>
      .error (.wrongKind ("string indices must be integers, not '" ++ indexKind ++ "'"))
    | none, none => .ok unknown
  | _, some kind, _ =>
    if v.isSingle then .error (.wrongKind ("'" ++ kind ++ "' object is not subscriptable"))
    else .ok unknown
  | _, none, _ => .ok unknown

/-! ## All operations -/

/-- The result of a sign between two values. -/
def apply (sign : String) (a b : StrayValue) : Except StrayFault StrayValue :=
  if sign = "(" then call a b
  else if sign = "[" then item a b
  else if sign = "in" then isIn a b
  else
    match a.whole?, b.whole? with
    | some m, some n => ofWholes sign m n
    | _, _ =>
      if a.isNumber && b.isNumber then ofReals sign b
      else
        match a.kind?, b.kind? with
        | some kindA, some kindB => ofKinds sign a b kindA kindB
        | _, _ => .ok unknown

/-- The result of a sign or word in front of a value. -/
def applyBefore (sign : String) (v : StrayValue) : Except StrayFault StrayValue :=
  match sign, v.kind? with
  | "()", _ => callEmpty v
  | _, none => .ok unknown
  | "not", _ => .ok (truth v.isFalse)
  | "for", some kind =>
    if v.isSingle then .error (.wrongKind ("'" ++ kind ++ "' object is not iterable")) else .ok unknown
  | "with", some kind =>
    .error (.wrongKind ("'" ++ kind ++ "' object does not support the context manager protocol"))
  | "unpack", some kind =>
    if v.isSingle then .error (.wrongKind ("cannot unpack non-iterable " ++ kind ++ " object"))
    else .ok unknown
  | sign, some kind =>
    match sign, v.whole? with
    | "-", some n => .ok (whole (-n))
    | "+", some n => .ok (whole n)
    | "~", some n => .ok (whole (-n - 1))
    | sign, none =>
      if v.isNumber && sign != "~" then .ok v
      else .error (.wrongKind ("bad operand type for unary " ++ sign ++ ": '" ++ kind ++ "'"))
    | _, some _ => .ok unknown

end StrayValue
end HtmlTemplate
