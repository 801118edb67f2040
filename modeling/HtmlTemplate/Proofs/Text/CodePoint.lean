import HtmlTemplate.Proofs.Text.Literal
import Mathlib.Data.List.Chain

/-!
# CodePoint — texts in which halves of surrogate pairs may stand

A name can be any sequence of code points.  Most code points are characters; the others are the
halves of surrogate pairs, by which UTF-16 writes the characters from U+10000 on.  UTF-16 cannot
tell such a character from a high half that stands directly before a low one.  What it tells of a
sequence is `Text.combined`.  This is the sequence itself where no two halves stand so
(`Text.combined_of_unpaired`), as in every sequence of characters (`Text.unpaired_points`).
-/

namespace HtmlTemplate
namespace Text

/-- A character, or half of a surrogate pair. -/
abbrev CodePoint := Fin 0x110000

namespace CodePoint

def ofChar (c : Char) : CodePoint := ⟨c.toNat, toNat_lt c⟩

/-- The character, unless it is half of a pair. -/
def char? (p : CodePoint) : Option Char := charOfCode? p.val

/-- Whether it is the first half of a pair. -/
def IsHigh (p : CodePoint) : Prop := 0xd800 ≤ p.val ∧ p.val < 0xdc00

/-- Whether it is the second half of a pair. -/
def IsLow (p : CodePoint) : Prop := 0xdc00 ≤ p.val ∧ p.val < 0xe000

instance (p : CodePoint) : Decidable p.IsHigh := inferInstanceAs (Decidable (_ ∧ _))

instance (p : CodePoint) : Decidable p.IsLow := inferInstanceAs (Decidable (_ ∧ _))

/-- The code point of a number; numbers beyond the last one start again. -/
def ofCode (n : Nat) : CodePoint := Fin.ofNat 0x110000 n

/-- The character that two halves stand for. -/
def pair (high low : CodePoint) : CodePoint :=
  ofCode (0x10000 + (high.val - 0xd800) * 0x400 + (low.val - 0xdc00))

@[simp]
theorem ofCode_val (p : CodePoint) : ofCode p.val = p := Fin.ofNat_val_eq_self p

theorem ofChar_injective {c d : Char} (h : ofChar c = ofChar d) : c = d :=
  Char.toNat_inj.1 (Fin.mk.inj h)

@[simp]
theorem char?_ofChar (c : Char) : (ofChar c).char? = some c := charOfCode?_toNat c

theorem ofChar_of_char? {p : CodePoint} {c : Char} (h : p.char? = some c) : p = ofChar c := by
  unfold char? charOfCode? at h
  split at h
  · rename_i hvalid
    have hp : (Char.ofNat p.val).toNat = p.val := by
      rw [Char.ofNat, dif_pos hvalid]
      rfl
    cases h
    exact Fin.ext hp.symm
  · cases h

/-- No character is half of a pair. -/
theorem not_isHigh_ofChar (c : Char) : ¬ (ofChar c).IsHigh := by
  rintro ⟨hlow, hhigh⟩
  rcases c.valid with h | ⟨h, -⟩
  · exact absurd hlow (Nat.not_le_of_lt h)
  · exact absurd (Nat.lt_trans h hhigh) (by decide)

/-- Half of a pair is no character. -/
theorem char?_of_half {p : CodePoint} (h : p.IsHigh ∨ p.IsLow) : p.char? = none := by
  have hhalf : 0xd800 ≤ p.val ∧ p.val < 0xe000 := by
    rcases h with ⟨h, h'⟩ | ⟨h, h'⟩ <;> omega
  refine dif_neg ?_
  rintro (h | ⟨h, -⟩) <;> omega

theorem val_pair {high low : CodePoint} (hhigh : high.IsHigh) (hlow : low.IsLow) :
    (pair high low).val = 0x10000 + (high.val - 0xd800) * 0x400 + (low.val - 0xdc00) := by
  obtain ⟨hhigh, hhigh'⟩ := hhigh
  obtain ⟨hlow, hlow'⟩ := hlow
  -- No pair goes beyond the last code point.
  rw [pair, ofCode, Fin.val_ofNat]
  exact Nat.mod_eq_of_lt (by omega)

/-- The characters from U+10000 on are those of the pairs. -/
theorem exists_pair {p : CodePoint} (h : 0x10000 ≤ p.val) :
    ∃ high low : CodePoint, high.IsHigh ∧ low.IsLow ∧ pair high low = p := by
  have hbound := p.isLt
  have hhigh : 0xd800 + (p.val - 0x10000) / 0x400 < 0xdc00 := by omega
  have hlow : 0xdc00 + (p.val - 0x10000) % 0x400 < 0xe000 := by omega
  have hvalue : 0x10000 + (0xd800 + (p.val - 0x10000) / 0x400 - 0xd800) * 0x400 +
      (0xdc00 + (p.val - 0x10000) % 0x400 - 0xdc00) = p.val := by omega
  let high : CodePoint := ⟨0xd800 + (p.val - 0x10000) / 0x400, by omega⟩
  let low : CodePoint := ⟨0xdc00 + (p.val - 0x10000) % 0x400, by omega⟩
  have hh : high.IsHigh := ⟨Nat.le_add_right _ _, hhigh⟩
  have hl : low.IsLow := ⟨Nat.le_add_right _ _, hlow⟩
  exact ⟨high, low, hh, hl, Fin.ext ((val_pair hh hl).trans hvalue)⟩

end CodePoint

open CodePoint

/-! ## Sequences -/

/-- The code points of a text. -/
def points (text : String) : List CodePoint := text.toList.map ofChar

theorem points_injective {a b : String} (h : points a = points b) : a = b :=
  String.toList_injective (List.map_injective_iff.2 (fun _ _ => ofChar_injective) h)

/-- Puts every high half together with a low one that stands directly behind it. -/
def combined : List CodePoint → List CodePoint
  | [] => []
  | [p] => [p]
  | high :: low :: ps =>
    if high.IsHigh ∧ low.IsLow then pair high low :: combined ps
    else high :: combined (low :: ps)

/-- Whether no high half stands directly before a low one. -/
def Unpaired (ps : List CodePoint) : Prop :=
  ps.IsChain fun high low => ¬ (high.IsHigh ∧ low.IsLow)

instance (ps : List CodePoint) : Decidable (Unpaired ps) :=
  inferInstanceAs (Decidable (ps.IsChain _))

theorem combined_of_unpaired {ps : List CodePoint} (h : Unpaired ps) : combined ps = ps := by
  fun_induction combined ps with
  | case1 => rfl
  | case2 => rfl
  | case3 high low ps hpair => exact absurd hpair (List.isChain_cons_cons.1 h).1
  | case4 high low ps _ ih => rw [ih (List.isChain_cons_cons.1 h).2]

theorem unpaired_of_forall {ps : List CodePoint} (h : ∀ p ∈ ps, ¬ p.IsHigh) : Unpaired ps := by
  induction ps with
  | nil => exact .nil
  | cons high ps ih =>
    obtain ⟨hhigh, hps⟩ := List.forall_mem_cons.1 h
    cases ps with
    | nil => exact .singleton high
    | cons low ps => exact .cons_cons (fun hpair => hhigh hpair.1) (ih hps)

theorem unpaired_points (text : String) : Unpaired (points text) :=
  unpaired_of_forall (List.forall_mem_map.2 fun c _ => not_isHigh_ofChar c)

end Text
end HtmlTemplate
