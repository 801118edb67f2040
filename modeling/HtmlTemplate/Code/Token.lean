import HtmlTemplate.Text.Identifier
import HtmlTemplate.Text.Quoted

/-!
# Token — the text of generated code, piece by piece

Generated code is a sequence of tokens.  `Token.textOf` writes it out and `Token.scan` reads such
a text back.
-/

namespace HtmlTemplate

open Text

inductive Token where
  /-- A string literal, by the text that it stands for. -/
  | literal (text : String)
  /-- A name or keyword. -/
  | word (name : String)
  | openParen
  | closeParen
  | comma
  | colon
  | dot
  | plus
  | space
  deriving DecidableEq, Repr

namespace Token

def chars : Token → List Char
  | literal text => encodeLiteral text.toList
  | word name => name.toList
  | openParen => ['(']
  | closeParen => [')']
  | comma => [',']
  | colon => [':']
  | dot => ['.']
  | plus => ['+']
  | space => [' ']

/-- The text of a sequence of tokens. -/
def textOf (tokens : List Token) : String := String.ofList (tokens.flatMap chars)

/-- The token that a single character is. -/
def ofSign? : Char → Option Token
  | '(' => some openParen
  | ')' => some closeParen
  | ',' => some comma
  | ':' => some colon
  | '.' => some dot
  | '+' => some plus
  | ' ' => some space
  | _ => none

/-- Reads one token and gives the rest.  A word is as long as possible. -/
def read : List Char → Option (Token × List Char)
  | [] => none
  | c :: cs =>
    if startsIdentifier c then
      some (word (String.ofList (c :: cs.takeWhile continuesIdentifier)),
        cs.dropWhile continuesIdentifier)
    else
      match ofSign? c with
      | some token => some (token, cs)
      | none => (readLiteral (c :: cs)).map fun (text, rest) => (literal (String.ofList text), rest)

theorem read_length {cs rest : List Char} {token : Token} (h : read cs = some (token, rest)) :
    rest.length < cs.length := by
  unfold read at h
  split at h
  · simp at h
  · rename_i c cs
    split at h
    · obtain ⟨_, rfl⟩ := Prod.mk.injEq .. ▸ Option.some.injEq .. ▸ h
      exact Nat.lt_succ_of_le (List.dropWhile_sublist _).length_le
    · split at h
      · obtain ⟨_, rfl⟩ := Prod.mk.injEq .. ▸ Option.some.injEq .. ▸ h
        simp
      · obtain ⟨⟨t, r⟩, ht, h⟩ := Option.map_eq_some_iff.1 h
        obtain ⟨_, rfl⟩ := Prod.mk.injEq .. ▸ h
        exact readLiteral_length ht

/-- Reads a whole text. -/
def scan (cs : List Char) : Option (List Token) :=
  if cs.isEmpty then some []
  else
    match h : read cs with
    | none => none
    | some (token, rest) =>
      have := read_length h
      (scan rest).map (token :: ·)
termination_by cs.length

end Token
end HtmlTemplate
