import HtmlTemplate.Bundle.Stray.Lexeme
import HtmlTemplate.Bundle.Stray.Value
import HtmlTemplate.Text.Normal.Name

/-!
# Statement — what stray lines of a module do

Lines outside of comments and functions are carried out when a module is loaded.  Known are
assignments, arithmetic on integers, the use of names, imports, conditions, and the raising of
errors; other values are only known to be there.
-/

namespace HtmlTemplate

open Text

inductive StrayExpr where
  | literal (v : StrayValue)
  | name (name : String)
  | member (e : StrayExpr) (name : String)
  /-- A value and the sign or word in front of it. -/
  | before (sign : String) (e : StrayExpr)
  /-- Two values and the sign between them. -/
  | operation (sign : String) (left right : StrayExpr)
  | choice (condition yes no : StrayExpr)
  deriving DecidableEq, Repr

inductive Statement where
  | nothing
  | assign (targets : List StrayExpr) (value : StrayExpr)
  /-- Changes the value of a name by a sign and another value. -/
  | update (name sign : String) (value : StrayExpr)
  | delete (name : String)
  /-- Imports modules, or from the only one, and gives names to what was imported. -/
  | imports (modules names : List String)
  /-- Raises a value, and a second one as its cause. -/
  | raise (value cause : StrayExpr)
  /-- Raises an error that is not there. -/
  | reraise
  /-- Raises an error unless a value is there. -/
  | demand (value : StrayExpr) (message : String)
  | guarded (value : StrayExpr) (body : Statement)
  | also (first second : Statement)
  | misplaced (message : String)
  deriving DecidableEq, Repr

namespace StrayExpr

/-- A value that is only known to be there. -/
def unknown : StrayExpr := literal .unknown

/-! ## Reading -/

/-- The signs between operands, from the loosest to the tightest. -/
def signsAt : Nat → List String
  | 0 => [":", ","]
  | 1 => [","]
  | 2 => []
  | 3 => ["or"]
  | 4 => ["and"]
  | 5 => ["==", "!=", "<", ">", "<=", ">=", "in", "is"]
  | 6 => ["|", "^", "&", "<<", ">>"]
  | 7 => ["+", "-"]
  | 8 => ["*", "/", "//", "%", "@"]
  | 9 => ["**"]
  | _ => []

/-- The level of choices. -/
def choiceLevel : Nat := 2

/-- The level of comparisons, which a negation stands in front of. -/
def comparisonLevel : Nat := 5

/-- The closing bracket of an opening one. -/
def closingSign? : String → Option String
  | "(" => some ")"
  | "[" => some "]"
  | "\x7b" => some "\x7d"
  | _ => none

/-- The sign between two operands, and the rest after it. -/
def readSign : List Lexeme → Option (String × List Lexeme)
  | .sign sign :: rest => some (sign, rest)
  | .word "is" :: .word "not" :: rest => some ("is", rest)
  | .word "not" :: .word "in" :: rest => some ("in", rest)
  | .word word :: rest =>
    if ["or", "and", "in", "is"].contains word then some (word, rest) else none
  | _ => none

/-- The level of operands. -/
def operandLevel : Nat := 10

/-- What comes after the parameters of a nameless function. -/
def skipParameters : List Lexeme → List Lexeme
  | [] => []
  | .sign ":" :: rest => rest
  | .word word :: rest => if isKeyword word then .word word :: rest else skipParameters rest
  | .sign "," :: rest => skipParameters rest
  | rest => rest

mutual

/-- Reads an expression whose signs are as tight as `level` at least. -/
def readAt : Nat → Nat → List Lexeme → Option (StrayExpr × List Lexeme)
  | 0, _, _ => none
  | fuel + 1, level, lexemes =>
    if level < operandLevel then
      match lexemes with
      | .word "not" :: rest =>
        if level = comparisonLevel then do
          let (e, rest) ← readAt fuel level rest
          return (before "not" e, rest)
        else if level < comparisonLevel then do
          let (left, rest) ← readAt fuel (level + 1) lexemes
          readMore fuel level left rest
        else none
      | .word "lambda" :: rest =>
        if level = choiceLevel then do
          let (_, rest) ← readAt fuel choiceLevel (skipParameters rest)
          return (unknown, rest)
        else if level < choiceLevel then do
          let (left, rest) ← readAt fuel (level + 1) lexemes
          readMore fuel level left rest
        else none
      | lexemes => do
        let (left, rest) ← readAt fuel (level + 1) lexemes
        readMore fuel level left rest
    else
      match lexemes with
      | .sign "-" :: rest => do
        let (e, rest) ← readAt fuel level rest
        return (before "-" e, rest)
      | .sign "+" :: rest => do
        let (e, rest) ← readAt fuel level rest
        return (before "+" e, rest)
      | .sign "~" :: rest => do
        let (e, rest) ← readAt fuel level rest
        return (before "~" e, rest)
      | .number n :: rest => readAfter fuel (literal (.whole n)) rest
      | .fraction isZero :: rest => readAfter fuel (literal (.real isZero)) rest
      | .text (some s) :: .text (some t) :: rest => readAt fuel level (.text (some (s ++ t)) :: rest)
      | .text _ :: .text _ :: rest => readAt fuel level (.text none :: rest)
      | .text (some s) :: rest => readAfter fuel (literal (.text s)) rest
      | .text none :: rest => readAfter fuel unknown rest
      | .sign "..." :: rest => readAfter fuel unknown rest
      | .word "True" :: rest => readAfter fuel (literal (.truth true)) rest
      | .word "False" :: rest => readAfter fuel (literal (.truth false)) rest
      | .word "None" :: rest => readAfter fuel (literal .nothing) rest
      | .word word :: rest =>
        if isKeyword word then none else readAfter fuel (name (normalName word)) rest
      | .sign "(" :: .sign ")" :: rest => readAfter fuel (literal (.empty "tuple")) rest
      | .sign "[" :: .sign "]" :: rest => readAfter fuel (literal (.empty "list")) rest
      | .sign "\x7b" :: .sign "\x7d" :: rest => readAfter fuel (literal (.empty "dict")) rest
      | .sign opening :: rest => do
        let closing ← closingSign? opening
        let (e, rest) ← readAt fuel (if opening = "\x7b" then 0 else 1) rest
        if rest.head? = some (.sign closing) then
          readAfter fuel (if opening = "(" then e else operation "," e unknown) rest.tail
        else none
      | _ => none

/-- Reads the operands after the first. -/
def readMore : Nat → Nat → StrayExpr → List Lexeme → Option (StrayExpr × List Lexeme)
  | fuel + 1, level, left, .word "if" :: rest =>
    if level = choiceLevel then do
      let (condition, rest) ← readAt fuel (level + 1) rest
      match rest with
      | .word "else" :: rest => do
        let (no, rest) ← readAt fuel level rest
        return (choice condition left no, rest)
      | _ => none
    else some (left, .word "if" :: rest)
  | fuel + 1, level, left, lexemes =>
    match readSign lexemes with
    | some (sign, rest) =>
      if (signsAt level).contains sign then
        match sign, rest with
        | ",", [] => some (operation sign left unknown, [])
        | ",", .sign ")" :: rest => some (operation sign left unknown, .sign ")" :: rest)
        | ",", .sign "]" :: rest => some (operation sign left unknown, .sign "]" :: rest)
        | ",", .sign "\x7d" :: rest => some (operation sign left unknown, .sign "\x7d" :: rest)
        | ",", .sign "=" :: rest => some (operation sign left unknown, .sign "=" :: rest)
        | sign, rest => do
          let (right, rest) ← readAt fuel (level + 1) rest
          readMore fuel level (operation sign left right) rest
      else some (left, lexemes)
    | none => some (left, lexemes)
  | _, _, left, rest => some (left, rest)

/-- Reads the members, calls and indices after an operand. -/
def readAfter : Nat → StrayExpr → List Lexeme → Option (StrayExpr × List Lexeme)
  | fuel + 1, e, .sign "." :: .word word :: rest =>
    if isKeyword word then none else readAfter fuel (member e word) rest
  | fuel + 1, e, .sign "(" :: .sign ")" :: rest => readAfter fuel (before "()" e) rest
  | fuel + 1, e, .sign "(" :: rest => do
    let (argument, rest) ← readAt fuel 1 rest
    match rest with
    | .sign ")" :: rest => readAfter fuel (operation "(" e argument) rest
    | _ => none
  | fuel + 1, e, .sign "[" :: rest => do
    let (index, rest) ← readAt fuel 0 rest
    match rest with
    | .sign "]" :: rest => readAfter fuel (operation "[" e index) rest
    | _ => none
  | _, e, rest => some (e, rest)

end

/-- Reads an expression at the start of a text. -/
def readStart (lexemes : List Lexeme) : Option (StrayExpr × List Lexeme) :=
  readAt ((operandLevel + 2) * (lexemes.length + 1)) 1 lexemes

/-- Reads an expression that is all there is. -/
def read (lexemes : List Lexeme) : Option StrayExpr :=
  match readStart lexemes with
  | some (e, []) => some e
  | _ => none

/-! ## Targets -/

/-- What an expression is, if it cannot be assigned to. -/
def fixedKind? : StrayExpr → Option String
  | literal _ => some "literal"
  | name word => if word = "__debug__" then some word else none
  | member _ _ => none
  | before sign _ => some (if sign = "()" then "function call" else "expression")
  | choice _ _ _ => some "conditional expression"
  | operation sign left right =>
    if sign = "[" then none
    else if sign = "," then (fixedKind? left).or (if right = unknown then none else fixedKind? right)
    else if sign = "(" then some "function call"
    else if (signsAt comparisonLevel).contains sign then some "comparison"
    else some "expression"

/-- The names that an assignment to several binds. -/
def boundNames : StrayExpr → List String
  | name word => [word]
  | operation "," left right => boundNames left ++ boundNames right
  | _ => []

/-- What has to be known before an assignment. -/
def holder : StrayExpr → StrayExpr
  | member e _ => e
  | operation "[" left right => operation "," left right
  | _ => unknown

/-! ## Values -/

/-- The values of names. -/
abbrev Names := List (String × StrayValue)

/-- The names that are always there, besides those of errors. -/
def builtinNames : List String :=
  ["BaseExceptionGroup", "Ellipsis", "EnvironmentError", "ExceptionGroup", "False", "IOError",
    "None", "NotImplemented", "True", "UnicodeDecodeError", "UnicodeEncodeError",
    "UnicodeTranslateError", "__build_class__", "__builtins__", "__debug__", "__doc__",
    "__import__", "__loader__", "__name__", "__package__", "__spec__", "abs", "aiter", "all",
    "anext", "any", "ascii", "bin", "bool", "breakpoint", "bytearray", "bytes", "callable", "chr",
    "classmethod", "compile", "complex", "copyright", "credits", "delattr", "dict", "dir",
    "divmod", "enumerate", "eval", "exec", "exit", "filter", "float", "format", "frozenset",
    "getattr", "globals", "hasattr", "hash", "help", "hex", "id", "input", "int", "isinstance",
    "issubclass", "iter", "len", "license", "list", "locals", "map", "max", "memoryview", "min",
    "next", "object", "oct", "open", "ord", "pow", "print", "property", "quit", "range", "repr",
    "reversed", "round", "set", "setattr", "slice", "sorted", "staticmethod", "str", "sum",
    "super", "tuple", "type", "vars", "zip"]

def eval (names : Names) : StrayExpr → Except StrayFault StrayValue
  | literal v => .ok v
  | name word =>
    match names.lookup word with
    | some v => .ok v
    | none =>
      if builtinNames.contains word || StrayValue.errorNames.contains word then .ok (.builtin word)
      else .error (.unbound word)
  | member e word => do (← eval names e).member word
  | before sign e => do StrayValue.applyBefore sign (← eval names e)
  | choice condition yes no => do
    if (← eval names condition).isFalse then eval names no else eval names yes
  | operation sign left right => do
    let a ← eval names left
    if (sign = "and" && a.isFalse) || (sign = "or" && !a.isFalse) then return a
    else do
      let b ← eval names right
      if sign = "and" || sign = "or" then return b else StrayValue.apply sign a b

/-- Gives a value to a target. -/
def assign (names : Names) (v : StrayValue) : StrayExpr → Except StrayFault Names
  | name word => .ok ((word, v) :: names)
  | operation "," left right => do
    let _ ← StrayValue.applyBefore "unpack" v
    return (boundNames left ++ boundNames right).map (·, .unknown) ++ names
  | target => do
    let _ ← target.holder.eval names
    return names

end StrayExpr

namespace Statement

/-! ## Reading -/

/-- The modules that can be imported. -/
def knownModules : List String :=
  ["__future__", "abc", "aifc", "argparse", "array", "ast", "asynchat", "asyncio", "asyncore",
    "atexit", "audioop", "base64", "bdb", "binascii", "bisect", "builtins", "bz2", "cProfile",
    "calendar", "cgi", "cgitb", "chunk", "cmath", "cmd", "code", "codecs", "codeop",
    "collections", "colorsys", "compileall", "concurrent", "configparser", "contextlib",
    "contextvars", "copy", "copyreg", "crypt", "csv", "ctypes", "curses", "dataclasses",
    "datetime", "dbm", "decimal", "difflib", "dis", "distutils", "doctest", "email", "encodings",
    "ensurepip", "enum", "errno", "faulthandler", "fcntl", "filecmp", "fileinput", "fnmatch",
    "fractions", "ftplib", "functools", "gc", "genericpath", "getopt", "getpass", "gettext",
    "glob", "graphlib", "grp", "gzip", "hashlib", "hcompile", "heapq", "hmac", "html", "http",
    "imaplib", "imghdr", "imp", "importlib", "inspect", "io", "ipaddress", "itertools", "json",
    "keyword", "linecache", "locale", "logging", "lzma", "mailbox", "mailcap", "marshal", "math",
    "mimetypes", "mmap", "modulefinder", "multiprocessing", "netrc", "nntplib", "ntpath",
    "nturl2path", "numbers", "opcode", "operator", "optparse", "os", "ossaudiodev", "pathlib",
    "pdb", "pickle", "pickletools", "pipes", "pkgutil", "platform", "plistlib", "poplib", "posix",
    "posixpath", "pprint", "profile", "pstats", "pty", "pwd", "py_compile", "pyclbr", "pydoc",
    "pydoc_data", "pyexpat", "queue", "quopri", "random", "re", "readline", "reprlib", "resource",
    "rlcompleter", "runpy", "sched", "secrets", "select", "selectors", "shelve", "shlex",
    "shutil", "signal", "site", "smtpd", "smtplib", "sndhdr", "socket", "socketserver", "spwd",
    "sqlite3", "sre_compile", "sre_constants", "sre_parse", "ssl", "stat", "statistics", "string",
    "stringprep", "struct", "subprocess", "sunau", "symtable", "sys", "sysconfig", "syslog",
    "tabnanny", "tarfile", "telnetlib", "tempfile", "termios", "textwrap", "threading", "time",
    "timeit", "token", "tokenize", "tomllib", "trace", "traceback", "tracemalloc", "tty", "types",
    "typing", "unicodedata", "unittest", "urllib", "uu", "uuid", "venv", "warnings", "wave",
    "weakref", "webbrowser", "wsgiref", "xdrlib", "xml", "xmlrpc", "zipapp", "zipfile",
    "zipimport", "zlib", "zoneinfo"]

/-- Reads what is imported: names between commas, each with the name that it gets.  Those of modules
may have parts. -/
def readImports : List Lexeme → Option (List (String × String))
  | [.word word] => if isKeyword word then none else some [(word, word)]
  | .word word :: .sign "," :: rest =>
    if isKeyword word then none else (readImports rest).map ((word, word) :: ·)
  | .word word :: .word "as" :: .word other :: rest =>
    if isKeyword word || isKeyword other then none
    else
      match rest with
      | [] => some [(word, other)]
      | .sign "," :: rest => (readImports rest).map ((word, other) :: ·)
      | _ => none
  | .word word :: .sign "." :: .word part :: rest =>
    if isKeyword word || isKeyword part then none
    else
      match rest with
      | [] => some [(word, word)]
      | .sign "," :: rest => (readImports rest).map ((word, word) :: ·)
      | _ => none
  | _ => none

/-- The signs that change the value of a name, each with the sign of the change. -/
def updateSigns : List (String × String) :=
  [("+=", "+"), ("-=", "-"), ("*=", "*"), ("/=", "/"), ("//=", "//"), ("%=", "%"), ("**=", "**")]

/-- Cuts lexemes at the first one outside of brackets that is the one given, `depth` brackets
being open. -/
def cutAt (mark : Lexeme) (depth : Nat) : List Lexeme → Option (List Lexeme × List Lexeme)
  | [] => none
  | lexeme :: rest =>
    if lexeme = mark && depth = 0 then some ([], rest)
    else
      let depth :=
        match lexeme with
        | .sign sign =>
          if ["(", "[", "\x7b"].contains sign then depth + 1
          else if [")", "]", "\x7d"].contains sign then depth - 1
          else depth
        | _ => depth
      (cutAt mark depth rest).map fun (before, after) => (lexeme :: before, after)

/-- Reads what is assigned to, and the value, `fuel` being the number of lexemes at least. -/
def readAssignment : Nat → List StrayExpr → List Lexeme → Option Statement
  | 0, _, _ => none
  | fuel + 1, targets, lexemes =>
    match cutAt (.sign "=") 0 lexemes with
    | some (target, rest) => do
      let target ← StrayExpr.read target
      if target.fixedKind?.isNone then readAssignment fuel (targets ++ [target]) rest else none
    | none => (StrayExpr.read lexemes).map (assign targets)

/-- Reads an assignment or a value. -/
def readValue (lexemes : List Lexeme) : Option Statement :=
  readAssignment (lexemes.length + 1) [] lexemes

/-- Reads a name with a note on it, and the value that it may get. -/
def readAnnotated (name : String) (lexemes : List Lexeme) : Option Statement :=
  let target := StrayExpr.name (normalName name)
  match cutAt (.sign "=") 0 lexemes with
  | some (note, value) => do
    return also (assign [target] (← StrayExpr.read value)) (assign [] (← StrayExpr.read note))
  | none => (StrayExpr.read lexemes).map (assign [])

/-- Reads names between commas. -/
def readNames : List Lexeme → Bool
  | [.word word] => !isKeyword word
  | .word word :: .sign "," :: rest => !isKeyword word && readNames rest
  | _ => false

/-- Reads what is raised. -/
def readRaised (lexemes : List Lexeme) : Option Statement :=
  match lexemes, cutAt (.word "from") 0 lexemes with
  | [], _ => some reraise
  | _, none => (StrayExpr.read lexemes).map (raise · StrayExpr.unknown)
  | _, some (value, cause) => do
    return raise (← StrayExpr.read value) (← StrayExpr.read cause)

/-- Reads a demand, which may have a message. -/
def readDemand (lexemes : List Lexeme) : Option Statement :=
  match cutAt (.sign ",") 0 lexemes with
  | some (value, [.text (some message)]) => (StrayExpr.read value).map (demand · message)
  | some (value, message) => do
    let _ ← StrayExpr.read message
    return demand (← StrayExpr.read value) ""
  | none => (StrayExpr.read lexemes).map (demand · "")

/-- Reads one statement that opens no block. -/
def read : List Lexeme → Option Statement
  | [.word "pass"] => some nothing
  | [.word "break"] => some (misplaced "'break' outside loop")
  | [.word "continue"] => some (misplaced "'continue' not properly in loop")
  | [.word "return"] => some (misplaced "'return' outside function")
  | [.word "yield"] => some (misplaced "'yield' outside function")
  | .word "return" :: value =>
    (StrayExpr.read value).map fun _ => misplaced "'return' outside function"
  | .word "yield" :: value =>
    (StrayExpr.read value).map fun _ => misplaced "'yield' outside function"
  | .word "await" :: value =>
    (StrayExpr.read value).map fun _ => misplaced "'await' outside function"
  | .word "global" :: names => if readNames names then some nothing else none
  | .word "nonlocal" :: names =>
    if readNames names then some (misplaced "nonlocal declaration not allowed at module level")
    else none
  | [.word "del", .word word] => if isKeyword word then none else some (delete (normalName word))
  | .word "import" :: rest =>
    (readImports rest).map fun found => imports (found.map (·.1)) (found.map (·.2))
  | [.word "from", .word word, .word "import", .sign "*"] =>
    if isKeyword word then none else some (imports [word] [])
  | .word "from" :: .word word :: .word "import" :: rest =>
    if isKeyword word then none
    else (readImports rest).map fun found => imports [word] (found.map (·.2))
  | .word "raise" :: value => readRaised value
  | .word "assert" :: rest => readDemand rest
  | .word word :: .sign sign :: rest =>
    match updateSigns.lookup sign with
    | some change =>
      if isKeyword word then none
      else (StrayExpr.read rest).map (update (normalName word) change)
    | none =>
      if sign = ":" && !isKeyword word then readAnnotated word rest
      else readValue (.word word :: .sign sign :: rest)
  | lexemes => readValue lexemes

/-- Cuts a line at its semicolons. -/
def splitLine : List Lexeme → List (List Lexeme)
  | [] => [[]]
  | .sign ";" :: rest => [] :: splitLine rest
  | lexeme :: rest =>
    match splitLine rest with
    | [] => [[lexeme]]
    | first :: others => (lexeme :: first) :: others

/-- Reads statements that open no block.  A semicolon may stand at the end. -/
def readPieces (lexemes : List Lexeme) : Option (List Statement) :=
  let pieces := splitLine lexemes
  (if 1 < pieces.length && pieces.getLast? == some [] then pieces.dropLast else pieces).mapM read

/-! ## Blocks -/

/-- The words that open a block, each with what it opens. -/
def blockWords : List (String × String) :=
  [("if", "'if' statement"), ("while", "'while' statement"), ("for", "'for' statement"),
    ("with", "'with' statement"), ("try", "'try' statement"), ("def", "function definition"),
    ("class", "class definition")]

/-- What a line opens. -/
def blockOf? : List Lexeme → Option String
  | .word word :: _ => blockWords.lookup word
  | _ => none

/-- A statement in a loop. -/
def inLoop : Statement → Statement
  | misplaced message => if message.startsWith "'return" then misplaced message else nothing
  | also first second => also (inLoop first) (inLoop second)
  | statement => statement

/-- Reads the words before a block, and gives what they make of the block. -/
def readHeader : List Lexeme → Option (Statement → Statement)
  | .word "if" :: value => (StrayExpr.read value).map guarded
  | .word "while" :: value =>
    (StrayExpr.read value).map fun value body => guarded value (inLoop body)
  | .word "for" :: .word word :: .word "in" :: value =>
    if isKeyword word then none else (StrayExpr.read value).map fun value _ => assign [] (.before "for" value)
  | .word "with" :: value =>
    (StrayExpr.read value).map fun value body => also (assign [] (.before "with" value)) body
  | [.word "try"] => some id
  | .word "def" :: .word word :: .sign "(" :: rest =>
    if isKeyword word || rest.getLast? != some (.sign ")") then none
    else some fun _ => assign [.name (normalName word)] .unknown
  | [.word "class", .word word] =>
    if isKeyword word then none
    else some fun body => also body (assign [.name (normalName word)] .unknown)
  | .word "class" :: .word word :: .sign "(" :: rest =>
    if isKeyword word then none
    else
      (StrayExpr.read (.sign "(" :: rest)).map fun base body =>
        also (assign [] base) (also body (assign [.name (normalName word)] .unknown))
  | _ => none

/-- What a line opens if nothing follows on it. -/
def openedBy? (line : List Lexeme) : Option String :=
  match blockOf? line, cutAt (.sign ":") 0 line with
  | some what, some (header, []) => (readHeader header).map fun _ => what
  | _, _ => none

/-- Whether a line tries something. -/
def isTrial (line : List Lexeme) : Bool := line.head? == some (.word "try")

/-- Reads the statements of a line, in which a block below it is put after the end of the line, and
its lines are put between semicolons. -/
def readLine (lexemes : List Lexeme) : Option (List Statement) :=
  match blockOf? lexemes, cutAt (.sign ":") 0 lexemes with
  | some _, some (header, body) => do
    let wrap ← readHeader header
    let statements ← readPieces (body.filter (· != .lineEnd))
    return [wrap (statements.foldr also nothing)]
  | some _, none => none
  | none, _ => readPieces lexemes

/-- Whether lexemes can start a line that makes sense. -/
def canStart (lexemes : List Lexeme) : Bool :=
  let lexemes :=
    if (blockOf? lexemes).isSome || lexemes.head? = some (.sign "*") then lexemes.drop 1
    else lexemes
  lexemes.isEmpty || (readLine lexemes).isSome || (readLine (lexemes ++ [.text none])).isSome

/-- Cuts at the last opening bracket without a closing one, reading from the end, where `after` and
`closed` closing brackets were read before. -/
def cutOpening (closed : Nat) (after : List Lexeme) :
    List Lexeme → Option (List Lexeme × List Lexeme)
  | [] => none
  | lexeme :: rest =>
    match lexeme, closed with
    | .sign "(", 0 | .sign "[", 0 | .sign "\x7b", 0 => some (rest.reverse, after)
    | .sign "(", closed + 1 | .sign "[", closed + 1 | .sign "\x7b", closed + 1 =>
      cutOpening closed (lexeme :: after) rest
    | .sign ")", _ | .sign "]", _ | .sign "\x7d", _ => cutOpening (closed + 1) (lexeme :: after) rest
    | _, _ => cutOpening closed (lexeme :: after) rest

/-- Whether lexemes with open brackets can start a line that makes sense, `fuel` being their number
at least. -/
def canOpen : Nat → List Lexeme → Bool
  | 0, _ => false
  | fuel + 1, lexemes =>
    match cutOpening 0 [] lexemes.reverse with
    | some (before, inside) => canStart inside && canOpen fuel before
    | none => canStart lexemes

/-- Whether what stands before the last open bracket makes sense. -/
def canStartBefore (lexemes : List Lexeme) : Bool :=
  match cutOpening 0 [] lexemes.reverse with
  | some (before, _) => canOpen (before.length + 1) before
  | none => canStart lexemes

/-- Why a line that opens a block makes no sense. -/
def blockFaultOf : List Lexeme → CodeFault
  | .word "try" :: rest => if rest.head? = some (.sign ":") then .unreadable else .missingSign ":"
  | [.word "def", .word _] => .missingSign "("
  | .word "def" :: .word _ :: .sign sign :: rest =>
    if sign = "(" then
      match cutAt (.sign ")") 0 rest with
      | some (_, after) =>
        if after.head? = some (.sign ":") then .unreadable else .missingSign ":"
      | none => .unreadable
    else .missingSign "("
  | .word "def" :: .word _ :: _ => .missingSign "("
  | line => if (readHeader line).isSome then .missingSign ":" else .unreadable

/-- Why an assignment makes no sense: the first target that cannot be assigned to. -/
def targetFault? : Nat → List Lexeme → Option CodeFault
  | 0, _ => none
  | fuel + 1, lexemes => do
    let (target, rest) ← cutAt (.sign "=") 0 lexemes
    let target ← StrayExpr.read target
    match target.fixedKind? with
    | some kind =>
      let complete := rest.head?.any fun l => l != .sign "=" && l != .sign "."
      some (.fixedTarget kind (kind != "__debug__" && complete))
    | none => targetFault? fuel rest

/-- Why a choice makes no sense. -/
def choiceFault (line : List Lexeme) : CodeFault :=
  match cutAt (.word "if") 0 line with
  | some (value, condition) =>
    if (StrayExpr.read value).isSome && (StrayExpr.read condition).isSome then .missingElse
    else .unreadable
  | none => .unreadable

/-- Why a line makes no sense. -/
def faultOf (line : List Lexeme) : CodeFault :=
  match line with
  | .word name :: next :: rest =>
    if (blockOf? line).isSome then blockFaultOf line
    else if name = "print" || name = "exec" then
      match StrayExpr.readStart (next :: rest) with
      | some _ => .bareCall name
      | none => .unreadable
    else if (name = "True" || name = "False" || name = "None") && next = .sign "=" then
      .fixedTarget name false
    else (targetFault? line.length line).getD (choiceFault line)
  | [.word "try"] => .missingSign ":"
  | .sign "*" :: value => if (StrayExpr.read value).isSome then .looseStar else .unreadable
  | line =>
    match cutAt (.sign ":") 0 line with
    | some (value, note) =>
      if (StrayExpr.read value).isSome && (StrayExpr.read note).isSome then .annotatedValue
      else .unreadable
    | none => (targetFault? line.length line).getD (choiceFault line)

/-! ## Running -/

/-- Carries out a statement, and gives the names after it. -/
def run (names : StrayExpr.Names) : Statement → Except StrayFault StrayExpr.Names
  | nothing => .ok names
  | assign targets value => do
    let v ← value.eval names
    targets.foldlM (fun names target => target.assign names v) names
  | update name sign value => do
    let v ← (StrayExpr.operation sign (.name name) value).eval names
    return (name, v) :: names
  | delete name =>
    if (names.lookup name).isSome then .ok (names.filter (·.1 != name)) else .error (.unbound name)
  | imports modules imported =>
    match modules.find? (!knownModules.contains ·) with
    | some unknown => .error (.noModule unknown)
    | none => .ok (imported.map (·, .unknown) ++ names)
  | raise value cause => do
    let v ← value.eval names
    let _ ← cause.eval names
    throw v.raised
  | reraise => .error (.raised "RuntimeError" "No active exception to reraise")
  | demand value message => do
    if (← value.eval names).isFalse then throw (.raised "AssertionError" message) else return names
  | guarded value body => do
    if (← value.eval names).isFalse then return names else run names body
  | also first second => do run (← run names first) second
  | misplaced _ => .ok names

/-- Why a statement cannot stand where it is. -/
def message? : Statement → Option String
  | misplaced message => some message
  | guarded _ body => message? body
  | also first second => (message? first).or (message? second)
  | _ => none

/-- Why a module with these statements cannot be read, if they belong elsewhere. -/
def misplacedFault? : List Statement → Option CodeFault
  | [] => none
  | statement :: rest => (message? statement).elim (misplacedFault? rest) (some ∘ .misplaced)

end Statement
end HtmlTemplate
