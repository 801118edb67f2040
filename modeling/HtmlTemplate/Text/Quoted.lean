import HtmlTemplate.Text.Hex
import HtmlTemplate.Text.Printable

/-!
# Quoted — string literals of the generated code

A text is written between single quotes, or between double quotes when it holds a single quote
and no double one.  The backslash, the quote that was chosen and every character that is not
printable are escaped; all else is written as it is.  `readLiteral` reads literals back.
-/

namespace HtmlTemplate
namespace Text

/-! ## Writing -/

/-- Escapes by code point, with two, four or eight digits. -/
def escapeCode (n : Nat) : List Char :=
  if n < 0x100 then '\\' :: 'x' :: hexDigits 2 n
  else if n < 0x10000 then '\\' :: 'u' :: hexDigits 4 n
  else '\\' :: 'U' :: hexDigits 8 n

/-- How `c` is written between quotes `quote`. -/
def encodeChar (quote c : Char) : List Char :=
  if c == quote || c == '\\' then ['\\', c]
  else if c == '\t' then ['\\', 't']
  else if c == '\n' then ['\\', 'n']
  else if c == '\r' then ['\\', 'r']
  else if isPrintable c then [c]
  else escapeCode c.toNat

/-- The quote that lets a text go with fewer escapes, the single one when in doubt. -/
def chooseQuote (cs : List Char) : Char :=
  if cs.contains '\'' && !cs.contains '"' then '"' else '\''

def encodeLiteral (cs : List Char) : List Char :=
  let quote := chooseQuote cs
  quote :: (cs.flatMap (encodeChar quote) ++ [quote])

/-- The literal that stands for `s`. -/
def quoted (s : String) : String := String.ofList (encodeLiteral s.toList)

/-! ## Reading -/

def isOctal (c : Char) : Bool := '0' ≤ c && c ≤ '7'

/-- The character of a code point, if it is one. -/
def charOfCode? (n : Nat) : Option Char :=
  if n.isValidChar then some (Char.ofNat n) else none

/-- Reads a code point of exactly `width` digits and gives its character. -/
def readCode (width : Nat) (cs : List Char) : Option (List Char × List Char) := do
  let (n, rest) ← readHex width 0 cs
  let c ← charOfCode? n
  return ([c], rest)

/-- At most `width` digits in base eight. -/
def readOctal : Nat → Nat → List Char → Nat × List Char
  | width + 1, acc, c :: cs =>
    if isOctal c then readOctal width (8 * acc + (c.toNat - 0x30)) cs else (acc, c :: cs)
  | _, acc, cs => (acc, cs)

/-- The letters that stand for one character after a backslash. -/
def letterEscapes : List (Char × Char) :=
  [('\\', '\\'), ('\'', '\''), ('"', '"'), ('a', '\x07'), ('b', '\x08'), ('f', '\x0c'),
    ('n', '\n'), ('r', '\r'), ('t', '\t'), ('v', '\x0b')]

/-- Reads what follows a backslash: the characters that it stands for, and the rest.  A backslash
before a line feed stands for nothing, and one before any other character that opens no escape
stands for itself. -/
def readEscape : List Char → Option (List Char × List Char)
  | [] => none
  | '\n' :: cs => some ([], cs)
  | 'x' :: cs => readCode 2 cs
  | 'u' :: cs => readCode 4 cs
  | 'U' :: cs => readCode 8 cs
  | 'N' :: _ => none
  | c :: cs =>
    match letterEscapes.lookup c with
    | some d => some ([d], cs)
    | none =>
      if isOctal c then
        let (n, rest) := readOctal 3 0 (c :: cs)
        (charOfCode? n).map fun d => ([d], rest)
      else some (['\\', c], cs)

theorem readCode_length {width : Nat} {cs ds rest : List Char}
    (h : readCode width cs = some (ds, rest)) : rest.length ≤ cs.length := by
  obtain ⟨⟨n, r⟩, hn, h⟩ := Option.bind_eq_some_iff.1 h
  obtain ⟨c, _, h⟩ := Option.bind_eq_some_iff.1 h
  obtain ⟨_, rfl⟩ := Prod.mk.injEq .. ▸ Option.some.injEq .. ▸ h
  exact readHex_length hn

theorem readOctal_length (width acc : Nat) (cs : List Char) :
    (readOctal width acc cs).2.length ≤ cs.length := by
  fun_induction readOctal width acc cs with
  | case1 width acc c cs _ ih => exact Nat.le_succ_of_le ih
  | case2 => simp
  | case3 => simp

theorem readEscape_length {cs ds rest : List Char} (h : readEscape cs = some (ds, rest)) :
    rest.length ≤ cs.length := by
  unfold readEscape at h
  split at h
  · cases h
  · cases h
    exact Nat.le_succ _
  · exact Nat.le_succ_of_le (readCode_length h)
  · exact Nat.le_succ_of_le (readCode_length h)
  · exact Nat.le_succ_of_le (readCode_length h)
  · cases h
  · rename_i c cs _ _ _ _ _
    split at h
    · cases h
      exact Nat.le_succ _
    · split at h
      · obtain ⟨d, _, h⟩ := Option.map_eq_some_iff.1 h
        cases h
        exact readOctal_length 3 0 (c :: cs)
      · cases h
        exact Nat.le_succ _

/-- Reads the inside of a literal up to its closing quote.  A literal does not span lines. -/
def readQuoted (quote : Char) : List Char → Option (List Char × List Char)
  | [] => none
  | c :: cs =>
    if c == quote then some ([], cs)
    else if c == '\n' || c == '\r' then none
    else if c == '\\' then
      match h : readEscape cs with
      | none => none
      | some (ds, rest) =>
        have : rest.length ≤ cs.length := readEscape_length h
        (readQuoted quote rest).map fun (text, after) => (ds ++ text, after)
    else (readQuoted quote cs).map fun (text, after) => (c :: text, after)
termination_by cs => cs.length

theorem readQuoted_length {quote : Char} {cs text rest : List Char}
    (h : readQuoted quote cs = some (text, rest)) : rest.length < cs.length := by
  fun_induction readQuoted quote cs generalizing text with
  | case1 => simp at h
  | case2 => simp at h; simp [h.2]
  | case3 => simp at h
  | case4 => simp at h
  | case5 c cs _ _ _ ds after _ hle ih =>
    obtain ⟨⟨t, r⟩, ht, h⟩ := Option.map_eq_some_iff.1 h
    obtain ⟨_, rfl⟩ := Prod.mk.injEq .. ▸ h
    exact Nat.lt_of_lt_of_le (ih ht) (Nat.le_succ_of_le hle)
  | case6 c cs _ _ _ ih =>
    obtain ⟨⟨t, r⟩, ht, h⟩ := Option.map_eq_some_iff.1 h
    obtain ⟨_, rfl⟩ := Prod.mk.injEq .. ▸ h
    exact Nat.lt_succ_of_lt (ih ht)

/-- Reads a literal at the start of a text: what it stands for, and the rest. -/
def readLiteral : List Char → Option (List Char × List Char)
  | '\'' :: cs => readQuoted '\'' cs
  | '"' :: cs => readQuoted '"' cs
  | _ => none

theorem readLiteral_length {cs text rest : List Char} (h : readLiteral cs = some (text, rest)) :
    rest.length < cs.length := by
  unfold readLiteral at h
  split at h
  · exact Nat.lt_succ_of_lt (readQuoted_length h)
  · exact Nat.lt_succ_of_lt (readQuoted_length h)
  · simp at h

end Text
end HtmlTemplate
