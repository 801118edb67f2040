import HtmlTemplate.Text.Quoted
import Mathlib.Algebra.Group.Nat.Defs

/-!
# Literal — a written literal reads back as its text

`Text.readLiteral_encodeLiteralBy`: whatever follows it, the literal that is written for a text is
read as that text, and reading stops right behind it.  It does not matter which characters count as
printable, so the proofs leave that open (`Text.encodeLiteralBy`).  The three widths of escapes rest
on digits of a fixed width in base sixteen reading back (`Text.readHex_hexDigits`).
-/

namespace HtmlTemplate
namespace Text

/-! ## Digits -/

theorem hexValue?_hexDigit {n : Nat} (h : n < 16) : hexValue? (hexDigit n) = some n := by
  have all : ∀ m : Fin 16, hexValue? (hexDigit m) = some m.val := by decide
  exact all ⟨n, h⟩

/-- Reading some digits and then some more is reading all of them. -/
theorem readHex_add (width more acc : Nat) (cs : List Char) :
    readHex (width + more) acc cs =
      (readHex width acc cs).bind fun (n, rest) => readHex more n rest := by
  induction width generalizing acc cs with
  | zero => simp [readHex]
  | succ width ih =>
    rw [Nat.succ_add]
    cases cs with
    | nil => rfl
    | cons c cs =>
      cases hc : hexValue? c with
      | none => simp [readHex, hc]
      | some n => simpa [readHex, hc] using ih (16 * acc + n) cs

theorem readHex_hexDigits (width acc n : Nat) (rest : List Char) :
    readHex width acc (hexDigits width n ++ rest) =
      some (16 ^ width * acc + n % 16 ^ width, rest) := by
  induction width generalizing n rest with
  | zero => simp [readHex, hexDigits, Nat.mod_one]
  | succ width ih =>
    -- The digits but the last are those of `n / 16`.
    have hd : n % 16 ^ (width + 1) = 16 * (n / 16 % 16 ^ width) + n % 16 := by
      rw [Nat.pow_succ, Nat.mul_comm (16 ^ width) 16, Nat.mod_mul, Nat.add_comm]
    have hv := hexValue?_hexDigit (Nat.mod_lt n (by decide : 16 > 0))
    rw [hexDigits, List.append_assoc, readHex_add, ih]
    simp only [Option.bind_some, List.singleton_append, readHex, hv, hd]
    rw [Nat.pow_succ, Nat.mul_add, Nat.mul_comm (16 ^ width) 16, Nat.mul_assoc, Nat.add_assoc]

theorem charOfCode?_toNat (c : Char) : charOfCode? c.toNat = some c := by
  have hv : c.toNat.isValidChar := c.valid
  simp [charOfCode?, hv]

theorem readCode_hexDigits {width : Nat} {c : Char} (h : c.toNat < 16 ^ width)
    (rest : List Char) : readCode width (hexDigits width c.toNat ++ rest) = some ([c], rest) := by
  unfold readCode
  rw [readHex_hexDigits, Nat.mul_zero, Nat.zero_add, Nat.mod_eq_of_lt h]
  simp [charOfCode?_toNat]

theorem toNat_lt (c : Char) : c.toNat < 0x110000 := by
  rcases c.valid with h | ⟨-, h⟩
  · exact Nat.lt_trans h (by decide)
  · exact h

/-! ## Characters -/

/-- The two characters that may open a literal. -/
def IsQuote (quote : Char) : Prop := quote = '\'' ∨ quote = '"'

section Quote

variable {quote : Char}

theorem IsQuote.ne (hq : IsQuote quote) {c : Char} (h : c ≠ '\'') (h' : c ≠ '"') :
    (c == quote) = false := by
  rcases hq with rfl | rfl
  · exact beq_false_of_ne h
  · exact beq_false_of_ne h'

/-- An escape inside a literal. -/
theorem readQuoted_escape (hq : IsQuote quote) {cs ds rest : List Char}
    (h : readEscape cs = some (ds, rest)) :
    readQuoted quote ('\\' :: cs) =
      (readQuoted quote rest).map fun (text, after) => (ds ++ text, after) := by
  have hne : ('\\' == quote) = false := hq.ne (by decide) (by decide)
  have hline : ('\\' == '\n' || '\\' == '\r') = false := by decide
  rw [readQuoted.eq_def]
  simp only [hne, hline, Bool.false_eq_true, if_false, beq_self_eq_true, if_true]
  split
  · rename_i hn
    rw [h] at hn
    cases hn
  · rename_i hs
    rw [h] at hs
    cases hs
    rfl

theorem readEscape_escapeCode (c : Char) (rest : List Char) :
    ∃ cs, escapeCode c.toNat = '\\' :: cs ∧ readEscape (cs ++ rest) = some ([c], rest) := by
  unfold escapeCode
  by_cases h2 : c.toNat < 0x100
  · refine ⟨'x' :: hexDigits 2 c.toNat, if_pos h2, ?_⟩
    exact readCode_hexDigits (show c.toNat < 16 ^ 2 from h2) rest
  · by_cases h4 : c.toNat < 0x10000
    · refine ⟨'u' :: hexDigits 4 c.toNat, by rw [if_neg h2, if_pos h4], ?_⟩
      exact readCode_hexDigits (show c.toNat < 16 ^ 4 from h4) rest
    · refine ⟨'U' :: hexDigits 8 c.toNat, by rw [if_neg h2, if_neg h4], ?_⟩
      exact readCode_hexDigits (Nat.lt_trans (toNat_lt c) (by decide : 0x110000 < 16 ^ 8)) rest

/-- How `c` is written between quotes `quote`, if `printable` tells what is printable. -/
def encodeCharBy (printable : Char → Bool) (quote c : Char) : List Char :=
  if c == quote || c == '\\' then ['\\', c]
  else if c == '\t' then ['\\', 't']
  else if c == '\n' then ['\\', 'n']
  else if c == '\r' then ['\\', 'r']
  else if printable c then [c]
  else escapeCode c.toNat

/-- A written character reads back as itself. -/
theorem readQuoted_encodeCharBy (printable : Char → Bool) (hq : IsQuote quote) (c : Char)
    (cs : List Char) : readQuoted quote (encodeCharBy printable quote c ++ cs) =
      (readQuoted quote cs).map fun (text, after) => (c :: text, after) := by
  unfold encodeCharBy
  -- The cases of `encodeCharBy`, in its order.
  by_cases hc : (c == quote || c == '\\') = true
  · have hs : readEscape (c :: cs) = some ([c], cs) := by
      rcases Bool.or_eq_true .. ▸ hc with hc | hc
      · obtain rfl := eq_of_beq hc
        rcases hq with rfl | rfl <;> rfl
      · obtain rfl := eq_of_beq hc
        rfl
    rw [if_pos hc]
    exact readQuoted_escape hq hs
  rw [if_neg hc]
  by_cases ht : (c == '\t') = true
  · rw [if_pos ht, eq_of_beq ht]
    exact readQuoted_escape hq (show readEscape ('t' :: cs) = some (['\t'], cs) from rfl)
  rw [if_neg ht]
  by_cases hn : (c == '\n') = true
  · rw [if_pos hn, eq_of_beq hn]
    exact readQuoted_escape hq (show readEscape ('n' :: cs) = some (['\n'], cs) from rfl)
  rw [if_neg hn]
  by_cases hr : (c == '\r') = true
  · rw [if_pos hr, eq_of_beq hr]
    exact readQuoted_escape hq (show readEscape ('r' :: cs) = some (['\r'], cs) from rfl)
  rw [if_neg hr]
  by_cases hp : printable c = true
  · rw [if_pos hp, List.singleton_append, readQuoted.eq_def]
    simp only [Bool.or_eq_true, not_or] at hc
    simp [hc.1, hc.2, hn, hr]
  -- All other characters are written by their code point.
  · obtain ⟨ds, he, hs⟩ := readEscape_escapeCode c cs
    rw [if_neg hp, he, List.cons_append, readQuoted_escape hq hs]
    rfl

theorem readQuoted_flatMap (printable : Char → Bool) (hq : IsQuote quote) (cs rest : List Char) :
    readQuoted quote (cs.flatMap (encodeCharBy printable quote) ++ quote :: rest) =
      some (cs, rest) := by
  induction cs with
  | nil =>
    rw [List.flatMap_nil, List.nil_append, readQuoted.eq_def]
    simp
  | cons c cs ih =>
    rw [List.flatMap_cons, List.append_assoc, readQuoted_encodeCharBy printable hq, ih]
    rfl

end Quote

theorem isQuote_chooseQuote (cs : List Char) : IsQuote (chooseQuote cs) := by
  unfold chooseQuote
  split
  · exact Or.inr rfl
  · exact Or.inl rfl

/-! ## Literals -/

/-- The literal of a text, if `printable` tells what is printable. -/
def encodeLiteralBy (printable : Char → Bool) (cs : List Char) : List Char :=
  let quote := chooseQuote cs
  quote :: (cs.flatMap (encodeCharBy printable quote) ++ [quote])

theorem encodeLiteralBy_isPrintable : encodeLiteralBy isPrintable = encodeLiteral := rfl

/-- A literal stands for the text that it was written for. -/
theorem readLiteral_encodeLiteralBy (printable : Char → Bool) (cs rest : List Char) :
    readLiteral (encodeLiteralBy printable cs ++ rest) = some (cs, rest) := by
  have hread := readQuoted_flatMap printable (isQuote_chooseQuote cs) cs rest
  unfold encodeLiteralBy
  rw [List.cons_append, List.append_assoc, List.singleton_append]
  rcases isQuote_chooseQuote cs with hq | hq <;> rw [hq] at hread ⊢ <;> exact hread

end Text
end HtmlTemplate
