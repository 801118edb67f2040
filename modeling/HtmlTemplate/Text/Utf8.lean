import HtmlTemplate.Text.Hex

/-!
# Utf8 — reading a file's bytes as text

Only the shortest form of a scalar value is accepted.  A fault names the bytes that are wrong: a
byte that starts no character, a sequence that breaks off at the end of the file, or one that goes
on with a byte that cannot follow.
-/

namespace HtmlTemplate
namespace Text

inductive Utf8Problem where
  | invalidStart
  | invalidContinuation
  | unexpectedEnd
  deriving DecidableEq, Repr

namespace Utf8Problem

def message : Utf8Problem → String
  | invalidStart => "invalid start byte"
  | invalidContinuation => "invalid continuation byte"
  | unexpectedEnd => "unexpected end of data"

end Utf8Problem

/-- The bytes from `start` up to but not including `stop` are wrong; `first` is the byte at
`start`. -/
structure Utf8Fault where
  (start stop : Nat)
  first : UInt8
  problem : Utf8Problem
  deriving DecidableEq, Repr

namespace Utf8Fault

def message (fault : Utf8Fault) : String :=
  let place :=
    if fault.stop == fault.start + 1 then
      "byte 0x" ++ String.ofList (hexDigits 2 fault.first.toNat) ++ " in position " ++
        toString fault.start
    else
      "bytes in position " ++ toString fault.start ++ "-" ++ toString (fault.stop - 1)
  "'utf-8' codec can't decode " ++ place ++ ": " ++ fault.problem.message

end Utf8Fault

/-- A character whose bytes are being read: where it started and with which byte, how many bytes
are to come, between which bounds the next one has to lie, and the bits so far. -/
structure Pending where
  start : Nat
  first : UInt8
  (missing low high : Nat)
  bits : Nat

/-- What the first byte of a longer sequence promises.  The bounds on the second byte keep out
longer forms than needed, surrogates, and values past the last code point. -/
def Pending.ofLead? (start : Nat) (b : UInt8) : Option Pending :=
  let n := b.toNat
  if n < 0xc2 then none
  else if n < 0xe0 then some ⟨start, b, 1, 0x80, 0xbf, n - 0xc0⟩
  else if n < 0xf0 then
    some ⟨start, b, 2, if n == 0xe0 then 0xa0 else 0x80, if n == 0xed then 0x9f else 0xbf, n - 0xe0⟩
  else if n < 0xf5 then
    some ⟨start, b, 3, if n == 0xf0 then 0x90 else 0x80, if n == 0xf4 then 0x8f else 0xbf, n - 0xf0⟩
  else none

/-- Reads the bytes from position `pos` on, possibly in the middle of a character. -/
def decodeUtf8From (pos : Nat) : Option Pending → List UInt8 → Except Utf8Fault (List Char)
  | none, [] => .ok []
  | some p, [] => .error ⟨p.start, pos, p.first, .unexpectedEnd⟩
  | none, b :: bytes =>
    if b.toNat < 0x80 then (Char.ofNat b.toNat :: ·) <$> decodeUtf8From (pos + 1) none bytes
    else
      match Pending.ofLead? pos b with
      | none => .error ⟨pos, pos + 1, b, .invalidStart⟩
      | some p => decodeUtf8From (pos + 1) (some p) bytes
  | some p, b :: bytes =>
    let n := b.toNat
    if p.low ≤ n && n ≤ p.high then
      let bits := 64 * p.bits + (n - 0x80)
      if p.missing ≤ 1 then (Char.ofNat bits :: ·) <$> decodeUtf8From (pos + 1) none bytes
      else
        decodeUtf8From (pos + 1) (some ⟨p.start, p.first, p.missing - 1, 0x80, 0xbf, bits⟩) bytes
    else .error ⟨p.start, pos, p.first, .invalidContinuation⟩

def decodeUtf8 (bytes : List UInt8) : Except Utf8Fault (List Char) := decodeUtf8From 0 none bytes

end Text
end HtmlTemplate
