import HtmlTemplate.Text.Identifier
import HtmlTemplate.Text.Quoted

/-!
# Lexeme — the words and signs of a module's text

A text is cut into words, numbers, texts and signs, each with the number of its line.  Comments and
blanks are left out, and so are line breaks between brackets.  Cutting stops at the first place
that cannot be read.
-/

namespace HtmlTemplate

open Text

/-- Why a module's text cannot be read. -/
inductive CodeFault where
  | unreadable
  /-- A line starts with a margin where none may be. -/
  | indented
  /-- A text in quotes does not end on its line, or on the line that it goes on in. -/
  | openText (line : Nat)
  /-- A text in triple quotes does not end. -/
  | openBlock (line : Nat)
  | unmatched (closing : Char)
  /-- A closing bracket does not fit the opening one, which stands on the line given if that is
  another line. -/
  | mismatched (closing opening : Char) (line : Option Nat)
  | neverClosed (opening : Char)
  /-- A number of some base, or what looks like one, cannot be read. -/
  | malformedNumber (base : String)
  | foreignDigit (digit : Char) (base : String)
  | leadingZeros
  | strayBackslash
  | foreignCharacter (c : Char)
  /-- A text follows the name of a function without brackets. -/
  | bareCall (name : String)
  /-- A value stands where a name is assigned to; `complete` if it could be compared instead. -/
  | fixedTarget (what : String) (complete : Bool)
  /-- A statement that belongs into a function or loop stands outside of one. -/
  | misplaced (message : String)
  /-- A sign is missing that has to follow. -/
  | missingSign (sign : String)
  /-- Nothing stands below a line that opens a block; `what` it opens, and its line. -/
  | missingBlock (what : String) (line : Nat)
  /-- What is tried is not followed by what to do if it fails. -/
  | missingRecovery
  | annotatedValue
  | looseStar
  | missingElse
  | reservedParameter (name : String)
  deriving DecidableEq, Repr

namespace CodeFault

/-- A code point in capitals, with four digits at least. -/
def codePoint (c : Char) : String :=
  let width := if c.toNat < 0x10000 then 4 else if c.toNat < 0x100000 then 5 else 6
  "U+" ++ String.ofList ((hexDigits width c.toNat).map Char.toUpper)

def message : CodeFault → String
  | unreadable => "invalid syntax"
  | indented => "unexpected indent"
  | openText line => "unterminated string literal (detected at line " ++ toString line ++ ")"
  | openBlock line =>
    "unterminated triple-quoted string literal (detected at line " ++ toString line ++ ")"
  | unmatched closing => "unmatched '" ++ closing.toString ++ "'"
  | mismatched closing opening line =>
    "closing parenthesis '" ++ closing.toString ++ "' does not match opening parenthesis '" ++
      opening.toString ++ "'" ++
      match line with
      | none => ""
      | some line => " on line " ++ toString line
  | neverClosed opening => "'" ++ opening.toString ++ "' was never closed"
  | malformedNumber base => "invalid " ++ base ++ " literal"
  | foreignDigit digit base =>
    "invalid digit '" ++ digit.toString ++ "' in " ++ base ++ " literal"
  | leadingZeros =>
    "leading zeros in decimal integer literals are not permitted; " ++
      "use an 0o prefix for octal integers"
  | strayBackslash => "unexpected character after line continuation character"
  | foreignCharacter c =>
    if isPrintable c then "invalid character '" ++ c.toString ++ "' (" ++ codePoint c ++ ")"
    else "invalid non-printable character " ++ codePoint c
  | bareCall name =>
    "Missing parentheses in call to '" ++ name ++ "'. Did you mean " ++ name ++ "(...)?"
  | fixedTarget what complete =>
    "cannot assign to " ++ what ++
      if complete then " here. Maybe you meant '==' instead of '='?" else ""
  | misplaced message => message
  | missingSign sign => "expected '" ++ sign ++ "'"
  | missingBlock what line =>
    "expected an indented block after " ++ what ++ " on line " ++ toString line
  | missingRecovery => "expected 'except' or 'finally' block"
  | annotatedValue => "illegal target for annotation"
  | looseStar => "can't use starred expression here"
  | missingElse => "expected 'else' after 'if' expression"
  | reservedParameter name => "cannot assign to " ++ name

/-- Whether a fault is found even if the text before it makes no sense. -/
def isLexical : CodeFault → Bool
  | strayBackslash | neverClosed _ => false
  | _ => true

end CodeFault

inductive Lexeme where
  | word (name : String)
  | number (n : Nat)
  | fraction (isZero : Bool)
  /-- A text in quotes, with what it stands for if that is plain. -/
  | text (content? : Option String)
  | sign (sign : String)
  /-- The margin of a line. -/
  | margin
  | lineEnd
  deriving DecidableEq, Repr

namespace Lexeme

/-- A lexeme and the number of its line. -/
abbrev Placed := Nat × Lexeme

/-- A bracket that is open, and whether what follows it may stand in it. -/
structure Bracket where
  opening : Char
  line : Nat
  filled : Bool

/-- Where cutting has come to: the line, the open brackets, and whether nothing of the line was
read yet. -/
structure Position where
  line : Nat
  brackets : List Bracket
  fresh : Bool

/-- What was read, and the fault that stopped it with its line. -/
abbrev Cut := List Placed × Option (CodeFault × Nat)

/-! ## Single lexemes -/

def isMargin (c : Char) : Bool := c == ' ' || c == '\t' || c == '\x0c'

/-- Whether a character belongs to a word, or to what looks like one. -/
def isWordLike (c : Char) : Bool := isWordChar c || 0x80 ≤ c.toNat

/-- The first character that keeps a run from being an identifier. -/
def foreign? : List Char → Option Char
  | [] => none
  | c :: cs => if startsIdentifier c then cs.find? (!continuesIdentifier ·) else some c

/-- The letters that may stand right before a quote. -/
def isTextMark (run : List Char) : Bool :=
  ["r", "u", "b", "f", "br", "rb", "fr", "rf"].contains (String.ofList (run.map Char.toLower))

/-- The rest after the quote that ends a text, with the line breaks before it.  Without one the
line breaks before the end of the line are given. -/
def closeText (quote : Char) (breaks : Nat) : List Char → Except Nat (Nat × List Char)
  | [] => .error breaks
  | '\\' :: c :: cs => closeText quote (if c == '\n' then breaks + 1 else breaks) cs
  | c :: cs =>
    if c == quote then .ok (breaks, cs)
    else if c == '\n' then .error breaks
    else closeText quote breaks cs

/-- The rest after the triple quote that ends a text, with the line breaks before it. -/
def closeBlock (quote : Char) (breaks : Nat) : List Char → Except Nat (Nat × List Char)
  | [] => .error breaks
  | '\\' :: c :: cs => closeBlock quote (if c == '\n' then breaks + 1 else breaks) cs
  | c :: cs =>
    if c == quote && cs.take 2 == [quote, quote] then .ok (breaks, cs.drop 2)
    else closeBlock quote (if c == '\n' then breaks + 1 else breaks) cs

/-- Whether digits with single underscores between them are a number. -/
def isDigitRun : List Char → Bool
  | [] => false
  | [c] => c.isDigit
  | c :: d :: cs => (c.isDigit || (c == '_' && d.isDigit)) && isDigitRun (d :: cs)

/-- The words that may follow a number without a blank. -/
def numberFollowers : List String := ["and", "else", "for", "if", "in", "is", "not", "or"]

/-- Whether a number may end before a text. -/
def endsNumber (cs : List Char) : Bool :=
  !cs.head?.any isWordChar || numberFollowers.any fun word => word.toList.isPrefixOf cs

/-- The other bases of whole numbers, with the letter that follows the zero. -/
def bases : List (Char × Nat × String) :=
  [('x', 16, "hexadecimal"), ('o', 8, "octal"), ('b', 2, "binary")]

/-- Reads the digits of a whole number in a base. -/
def readBased (base : Nat) (name : String) (cs : List Char) :
    Except CodeFault (Lexeme × List Char) :=
  let digits := cs.takeWhile fun c => c == '_' || (hexValue? c).any (· < base)
  let rest := cs.drop digits.length
  match rest.head?.filter Char.isDigit, digits.filterMap hexValue? with
  | some digit, _ => .error (.foreignDigit digit name)
  | none, [] => .error (.malformedNumber name)
  | none, values =>
    if endsNumber rest then .ok (.number (values.foldl (base * · + ·) 0), rest)
    else .error (.malformedNumber name)

/-- The rest after an exponent, if there is one. -/
def skipExponent (cs : List Char) : Option (List Char) :=
  match cs with
  | mark :: rest =>
    let digits := if rest.head? == some '-' || rest.head? == some '+' then rest.tail else rest
    if mark.toLower == 'e' && digits.head?.any Char.isDigit then
      some (digits.dropWhile fun c => c.isDigit || c == '_')
    else none
  | [] => none

/-- Reads a decimal number. -/
def readDecimal (cs : List Char) : Except CodeFault (Lexeme × List Char) :=
  let whole := cs.takeWhile fun c => c.isDigit || c == '_'
  let rest := cs.drop whole.length
  let (isWhole, rest) :=
    match rest with
    | '.' :: after => (false, after.dropWhile Char.isDigit)
    | rest => (true, rest)
  let (isWhole, rest) :=
    match skipExponent rest with
    | some after => (false, after)
    | none => (isWhole, rest)
  let (isWhole, rest) :=
    match rest with
    | 'j' :: after => (false, after)
    | rest => (isWhole, rest)
  let digits := whole.filter Char.isDigit
  if !whole.isEmpty && !isDigitRun whole then .error (.malformedNumber "decimal")
  else if isWhole && digits.head? == some '0' && digits.any (· != '0') then .error .leadingZeros
  else if !endsNumber rest then .error (.malformedNumber "decimal")
  else
    let shown := (cs.take (cs.length - rest.length)).takeWhile fun c => c.toLower != 'e'
    .ok (if isWhole then .number (digits.foldl (fun n c => 10 * n + (c.toNat - 0x30)) 0)
      else .fraction (!shown.any fun c => c.isDigit && c != '0'), rest)

/-- Reads a number. -/
def readNumber (cs : List Char) : Except CodeFault (Lexeme × List Char) :=
  match cs with
  | '0' :: mark :: rest =>
    match bases.lookup mark.toLower with
    | some (base, name) => readBased base name rest
    | none => readDecimal cs
  | _ => readDecimal cs

/-- The signs of several characters. -/
def longSigns : List String :=
  ["...", "**=", "//=", "<<=", ">>=", "**", "//", "==", "!=", "<=", ">=", "<<", ">>", "->", ":=",
    "+=", "-=", "*=", "/=", "%=", "@=", "&=", "|=", "^="]

/-- The longest sign at the start of a text that is not empty. -/
def signOf (cs : List Char) : String :=
  (longSigns.find? fun s => s.toList.isPrefixOf cs).getD (String.ofList (cs.take 1))

/-- The closing bracket of an opening one. -/
def closingOf? : Char → Option Char
  | '(' => some ')'
  | '[' => some ']'
  | '\x7b' => some '\x7d'
  | _ => none

/-- The keywords that an expression can start with. -/
def valueKeywords : List String := ["True", "False", "None", "not", "lambda", "await"]

/-- Whether the text after an opening bracket may stand in it, or the line ends. -/
def mayFill (cs : List Char) : Bool :=
  match cs.dropWhile isMargin with
  | [] => true
  | c :: cs =>
    if isWordLike c then
      let word := String.ofList ((c :: cs).takeWhile isWordLike)
      !isKeyword word || valueKeywords.contains word
    else if c == '.' then cs.take 2 == ['.', '.'] || cs.head?.any Char.isDigit
    else if c == '*' then cs.head? != some '*'
    else if c == '\\' then cs.head? == some '\n'
    else ['\n', '#', '\'', '"', '(', '[', '\x7b', '-', '+', '~'].contains c

/-! ## All lexemes -/

/-- The fault of a text that ends here. -/
def endFault (p : Position) : Option (CodeFault × Nat) :=
  p.brackets.head?.map fun b =>
    (if b.filled then .neverClosed b.opening else .unreadable, b.line)

/-- Puts a lexeme in front of what is read after it. -/
def andThen (line : Nat) (lexeme : Lexeme) (cut : Cut) : Cut := ((line, lexeme) :: cut.1, cut.2)

/-- Cuts a text, `fuel` being its length at least. -/
def cutFrom : Nat → Position → List Char → Cut
  | _, p, [] => ([], endFault p)
  | 0, _, _ => ([], none)
  | fuel + 1, p, c :: cs =>
    let stop (fault : CodeFault) : Cut := ([], some (fault, p.line))
    let started : Position := { p with fresh := false }
    if c == '\n' then
      let after := cutFrom fuel { p with line := p.line + 1, fresh := p.brackets.isEmpty } cs
      if p.fresh || !p.brackets.isEmpty then after else andThen p.line .lineEnd after
    else if c == '#' then cutFrom fuel p (cs.dropWhile (· != '\n'))
    else if isMargin c then
      let after := cs.dropWhile isMargin
      let isLine := after.head?.any fun d => d != '\n' && d != '#'
      let width := ((c :: cs).takeWhile isMargin).reverse.takeWhile (· != '\x0c')
      if p.fresh && isLine && !width.isEmpty then
        andThen p.line .margin (cutFrom fuel started after)
      else cutFrom fuel p after
    else if c == '\\' then
      match cs with
      | '\n' :: after => cutFrom fuel { started with line := p.line + 1 } after
      | _ => stop .strayBackslash
    else
      let run := (c :: cs).takeWhile isWordLike
      let quoted := if isTextMark run then (c :: cs).drop run.length else c :: cs
      match quoted with
      | '"' :: _ | '\'' :: _ =>
        let quote := quoted.headD c
        let isBlock := quoted.take 3 == [quote, quote, quote]
        let found :=
          if isBlock then closeBlock quote 0 (quoted.drop 3) else closeText quote 0 (quoted.drop 1)
        match found with
        | .ok (breaks, after) =>
          let content? := if run.isEmpty && !isBlock then (readLiteral quoted).map (·.1) else none
          andThen p.line (.text (content?.map String.ofList))
            (cutFrom fuel { started with line := p.line + breaks } after)
        | .error breaks =>
          if isBlock then stop (.openBlock (p.line + breaks - 1))
          else stop (.openText (p.line + breaks))
      | _ =>
        if c.isDigit || (c == '.' && cs.head?.any Char.isDigit) then
          match readNumber (c :: cs) with
          | .ok (lexeme, after) => andThen p.line lexeme (cutFrom fuel started after)
          | .error fault => stop fault
        else if isWordLike c then
          match foreign? run with
          | some d => stop (.foreignCharacter d)
          | none =>
            andThen p.line (.word (String.ofList run))
              (cutFrom fuel started ((c :: cs).drop run.length))
        else if !isPrintable c then stop (.foreignCharacter c)
        else
          match closingOf? c with
          | some _ =>
            let bracket : Bracket := ⟨c, p.line, mayFill cs⟩
            andThen p.line (.sign c.toString)
              (cutFrom fuel { started with brackets := bracket :: p.brackets } cs)
          | none =>
            if c == ')' || c == ']' || c == '\x7d' then
              match p.brackets with
              | [] => stop (.unmatched c)
              | b :: outer =>
                if closingOf? b.opening == some c then
                  andThen p.line (.sign c.toString)
                    (cutFrom fuel { started with brackets := outer } cs)
                else stop (.mismatched c b.opening (if b.line = p.line then none else some b.line))
            else
              let sign := signOf (c :: cs)
              andThen p.line (.sign sign) (cutFrom fuel started ((c :: cs).drop sign.length))

/-- Cuts a text. -/
def cut (text : List Char) : Cut := cutFrom text.length ⟨1, [], true⟩ text

end Lexeme
end HtmlTemplate
