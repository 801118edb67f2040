import HtmlTemplate.Text.Hex

/-!
# Key — field names of a shape as JSON strings

A key is written between double quotes in ASCII alone.  The quote, the backslash and the controls
with a letter of their own get the short escapes of JSON; every other character outside the range
from the space to the tilde is written by its UTF-16 units.
-/

namespace HtmlTemplate
namespace Text

/-- The escape of one UTF-16 unit. -/
def escapeUnit (n : Nat) : List Char := '\\' :: 'u' :: hexDigits 4 n

/-- A character by its UTF-16 units: one below U+10000, a surrogate pair from there on. -/
def escapeUnits (n : Nat) : List Char :=
  if n < 0x10000 then escapeUnit n
  else
    let m := n - 0x10000
    escapeUnit (0xd800 + m / 0x400) ++ escapeUnit (0xdc00 + m % 0x400)

def encodeKeyChar (c : Char) : List Char :=
  match c with
  | '"' => ['\\', '"']
  | '\\' => ['\\', '\\']
  | '\n' => ['\\', 'n']
  | '\r' => ['\\', 'r']
  | '\t' => ['\\', 't']
  | '\x08' => ['\\', 'b']
  | '\x0c' => ['\\', 'f']
  | c => if 0x20 ≤ c.toNat && c.toNat ≤ 0x7e then [c] else escapeUnits c.toNat

def encodeKey (key : String) : String :=
  String.ofList ('"' :: (key.toList.flatMap encodeKeyChar ++ ['"']))

end Text
end HtmlTemplate
