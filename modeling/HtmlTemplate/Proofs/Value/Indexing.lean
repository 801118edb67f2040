import HtmlTemplate.Value.Lookup
import Mathlib.Algebra.Group.Nat.Defs

/-!
# Indexing — what is looked up under an index

The decimal digits of a number are read as that number, so that looking them up in a list gives the
item there (`Value.lookup_list_index`).
-/

namespace HtmlTemplate
namespace Text

theorem digitValue?_of_isDigit {c : Char} (h : c.isDigit = true) :
    digitValue? c = some (c.toNat - '0'.toNat) := by
  obtain ⟨hlow, hhigh⟩ := Bool.and_eq_true_iff.1 h
  have hlow' : 0x30 ≤ c.toNat := UInt32.le_iff_toNat_le.1 (of_decide_eq_true hlow)
  have hhigh' : c.toNat ≤ 0x39 := UInt32.le_iff_toNat_le.1 (of_decide_eq_true hhigh)
  unfold digitValue? digitZeros
  rw [List.find?_cons_of_pos]
  · rfl
  · simp only [Bool.and_eq_true, decide_eq_true_eq]
    omega

theorem foldlM_digits {digits : List Char} (h : ∀ c ∈ digits, c.isDigit = true) (n : Nat) :
    digits.foldlM (fun n c => (digitValue? c).map (10 * n + ·)) n =
      some (Nat.ofDigitChars 10 digits n) := by
  induction digits generalizing n with
  | nil => simp
  | cons c cs ih =>
    obtain ⟨hc, hcs⟩ := List.forall_mem_cons.1 h
    rw [List.foldlM_cons, digitValue?_of_isDigit hc, Nat.ofDigitChars_cons]
    exact ih hcs _

/-- The digits of a number are read as the number. -/
theorem decimal?_toDigits (n : Nat) : decimal? (Nat.toDigits 10 n) = some n := by
  unfold decimal?
  rw [if_neg (by simp [Nat.toDigits_ne_nil]),
    foldlM_digits fun c => Nat.isDigit_of_mem_toDigits (by decide) (by decide),
    Nat.ofDigitChars_ten_toDigits]

end Text

namespace Value

open Text

/-- A path is followed in two parts. -/
theorem lookup_append (v : Value) (path rest : List String) :
    v.lookup (path ++ rest) = v.lookup path >>= fun w => w.lookup rest := by
  induction path generalizing v with
  | nil => rfl
  | cons segment path ih =>
    rw [List.cons_append, lookup, lookup]
    cases v.step segment with
    | error fault => rfl
    | ok w => exact ih w

/-- An index that is not too long is read as the number that it writes. -/
theorem index?_toString {n : Nat} (h : n < 10 ^ RenderFault.maxDigits) :
    index? (toString n).toList = some (.ok n) := by
  have hdigits : (toString n).toList = Nat.toDigits 10 n := Nat.toList_repr
  have hlength : ¬ RenderFault.maxDigits < (Nat.toDigits 10 n).length := by
    rw [Nat.not_lt, Nat.length_toDigits_le_iff (by decide) (by decide)]
    exact h
  unfold index?
  rw [hdigits, decimal?_toDigits, Option.map_some, if_neg hlength]

theorem indexed_list (items : List Value) (n : Nat) :
    (list items).indexed n = .ok (items[n]?.getD none) := by
  change (if n < items.length then (list items).itemAt n else return none) = _
  split
  · rfl
  · rename_i hn
    rw [List.getElem?_eq_none (Nat.le_of_not_lt hn)]
    rfl

/-- What is looked up under an index of a list is looked up in the item there. -/
theorem lookup_list_index {items : List Value} {n : Nat}
    (h : n < 10 ^ RenderFault.maxDigits) (rest : List String) :
    (list items).lookup (toString n :: rest) = (items[n]?.getD none).lookup rest := by
  have hstep : (list items).step (toString n) = .ok (items[n]?.getD none) := by
    change (list items).itemOrAttribute (toString n) = _
    unfold itemOrAttribute
    rw [index?_toString h]
    exact indexed_list items n
  rw [lookup, hstep]
  rfl

end Value
end HtmlTemplate
