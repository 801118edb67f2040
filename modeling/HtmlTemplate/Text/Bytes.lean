import HtmlTemplate.Text.Quoted

/-!
# Bytes — how a sequence of bytes is shown

Bytes are shown as a literal with a leading `b`: printable ASCII as it is, all else by escapes.
-/

namespace HtmlTemplate
namespace Text

def encodeByte (quote : Char) (b : UInt8) : List Char :=
  let c := Char.ofNat b.toNat
  if c == quote || c == '\\' then ['\\', c]
  else if c == '\t' then ['\\', 't']
  else if c == '\n' then ['\\', 'n']
  else if c == '\r' then ['\\', 'r']
  else if 0x20 ≤ b.toNat && b.toNat ≤ 0x7e then [c]
  else '\\' :: 'x' :: hexDigits 2 b.toNat

def quotedBytes (bytes : List UInt8) : String :=
  let quote := chooseQuote (bytes.map fun b => Char.ofNat b.toNat)
  String.ofList ('b' :: quote :: (bytes.flatMap (encodeByte quote) ++ [quote]))

end Text
end HtmlTemplate
