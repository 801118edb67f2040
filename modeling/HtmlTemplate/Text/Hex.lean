/-!
# Hex — numbers in base sixteen, in lower case
-/

namespace HtmlTemplate
namespace Text

def hexDigit (n : Nat) : Char :=
  if n < 10 then Char.ofNat (0x30 + n) else Char.ofNat (0x57 + n)

/-- The last `width` digits of `n` in base sixteen. -/
def hexDigits : Nat → Nat → List Char
  | 0, _ => []
  | width + 1, n => hexDigits width (n / 16) ++ [hexDigit (n % 16)]

def hexValue? (c : Char) : Option Nat :=
  if '0' ≤ c ∧ c ≤ '9' then some (c.toNat - 0x30)
  else if 'a' ≤ c ∧ c ≤ 'f' then some (c.toNat - 0x57)
  else if 'A' ≤ c ∧ c ≤ 'F' then some (c.toNat - 0x37)
  else none

/-- Reads exactly `width` digits in base sixteen, `acc` being the value so far. -/
def readHex : Nat → Nat → List Char → Option (Nat × List Char)
  | 0, acc, cs => some (acc, cs)
  | _ + 1, _, [] => none
  | width + 1, acc, c :: cs => (hexValue? c).bind fun n => readHex width (16 * acc + n) cs

theorem readHex_length {width acc : Nat} {cs : List Char} {n : Nat} {rest : List Char}
    (h : readHex width acc cs = some (n, rest)) : rest.length ≤ cs.length := by
  induction width generalizing acc cs with
  | zero => simp [readHex] at h; simp [h]
  | succ width ih =>
    cases cs with
    | nil => simp [readHex] at h
    | cons c cs =>
      obtain ⟨m, _, hm⟩ := Option.bind_eq_some_iff.1 h
      exact Nat.le_succ_of_le (ih hm)

end Text
end HtmlTemplate
