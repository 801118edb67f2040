import HtmlTemplate.Proofs.Except
import HtmlTemplate.Text.Utf8
import Mathlib.Data.List.Basic

/-!
# Utf8 — bytes that can be read are characters that were written

Bytes are read as characters exactly if they are what these characters are written as
(`Text.decodeUtf8_eq_ok_iff`).

A first byte promises a number of further ones, between certain bounds, and a character is read of
them whatever comes before or after (`Text.decodeUtf8From_pending`).
-/

namespace HtmlTemplate
namespace Text

/-- The code that a character comes to, whose bits so far are `bits`, with the bytes that follow. -/
def codeFrom (bits : Nat) (more : List UInt8) : Nat :=
  more.foldl (fun bits b => 64 * bits + (b.toNat - 0x80)) bits

namespace Pending

/-- Bytes that go on with a character and come to its end. -/
structure Takes (p : Pending) (more : List UInt8) : Prop where
  length : more.length = p.missing
  first : ∀ b ∈ more.head?, p.low ≤ b.toNat ∧ b.toNat ≤ p.high
  others : ∀ b ∈ more.tail, 0x80 ≤ b.toNat ∧ b.toNat ≤ 0xbf

/-- The character that goes on after one more byte. -/
def next (p : Pending) (b : UInt8) : Pending :=
  ⟨p.start, p.first, p.missing - 1, 0x80, 0xbf, 64 * p.bits + (b.toNat - 0x80)⟩

theorem takes_cons {p : Pending} (hmissing : 1 < p.missing) {b : UInt8} {more : List UInt8} :
    p.Takes (b :: more) ↔ (p.low ≤ b.toNat ∧ b.toNat ≤ p.high) ∧ (p.next b).Takes more := by
  constructor
  · intro h
    have hlength : more.length + 1 = p.missing := h.length
    refine ⟨h.first b rfl, Nat.eq_sub_of_add_eq hlength, ?_, ?_⟩
    · exact fun d hd => h.others d (List.mem_of_mem_head? hd)
    · exact fun d hd => h.others d (List.mem_of_mem_tail hd)
  · rintro ⟨hb, h⟩
    have hlength : more.length = p.missing - 1 := h.length
    refine ⟨?_, fun d hd => Option.some.inj hd ▸ hb, ?_⟩
    · rw [List.length_cons]
      omega
    · intro d hd
      change d ∈ more at hd
      cases more with
      | nil => cases hd
      | cons first more =>
        rcases List.mem_cons.1 hd with rfl | hd
        · exact h.first d rfl
        · exact h.others d hd

theorem codeFrom_next (p : Pending) (b : UInt8) (more : List UInt8) :
    codeFrom (p.next b).bits more = codeFrom p.bits (b :: more) := by
  unfold codeFrom
  rw [List.foldl_cons]
  rfl

end Pending

/-- In the middle of a character, the bytes have to go on with it. -/
theorem decodeUtf8From_pending {pos : Nat} {p : Pending} {bytes : List UInt8} {cs : List Char}
    (hmissing : 0 < p.missing) :
    decodeUtf8From pos (some p) bytes = .ok cs ↔
      ∃ more rest ds, bytes = more ++ rest ∧ p.Takes more ∧
        cs = Char.ofNat (codeFrom p.bits more) :: ds ∧
        decodeUtf8From (pos + more.length) none rest = .ok ds := by
  induction bytes generalizing pos p with
  | nil =>
    constructor
    · intro h
      cases h
    · rintro ⟨more, rest, ds, hbytes, htakes, -⟩
      obtain ⟨rfl, -⟩ := List.append_eq_nil_iff.1 hbytes.symm
      exact absurd htakes.length (Nat.ne_of_lt hmissing)
  | cons b bytes ih =>
    by_cases hb : p.low ≤ b.toNat ∧ b.toNat ≤ p.high
    · by_cases hlast : p.missing ≤ 1
      · -- The character ends with this byte.
        have hone : p.missing = 1 := Nat.le_antisymm hlast hmissing
        have hstep : decodeUtf8From pos (some p) (b :: bytes) =
            (Char.ofNat (64 * p.bits + (b.toNat - 0x80)) :: ·) <$>
              decodeUtf8From (pos + 1) none bytes := by
          simp [decodeUtf8From, hb, hlast]
        rw [hstep, Except.map_eq_ok]
        constructor
        · rintro ⟨ds, hds, rfl⟩
          refine ⟨[b], bytes, ds, rfl, ⟨hone.symm, ?_, nofun⟩, rfl, hds⟩
          exact fun d hd => Option.some.inj hd ▸ hb
        · rintro ⟨more, rest, ds, hbytes, htakes, rfl, hds⟩
          obtain ⟨d, rfl⟩ := List.length_eq_one_iff.1 (htakes.length.trans hone)
          obtain ⟨rfl, rfl⟩ := List.cons.inj hbytes
          exact ⟨ds, hds, rfl⟩
      · have hmore : 1 < p.missing := Nat.lt_of_not_le hlast
        have hstep : decodeUtf8From pos (some p) (b :: bytes) =
            decodeUtf8From (pos + 1) (some (p.next b)) bytes := by
          simp [decodeUtf8From, Pending.next, hb, hlast]
        have hpos : ∀ more : List UInt8, pos + 1 + more.length = pos + (b :: more).length := by
          intro more
          rw [List.length_cons]
          omega
        rw [hstep, ih (Nat.sub_pos_of_lt hmore)]
        constructor
        · rintro ⟨more, rest, ds, rfl, htakes, rfl, hds⟩
          exact ⟨b :: more, rest, ds, rfl, (Pending.takes_cons hmore).2 ⟨hb, htakes⟩,
            congrArg (Char.ofNat · :: ds) (p.codeFrom_next b more), hpos more ▸ hds⟩
        · rintro ⟨more, rest, ds, hbytes, htakes, rfl, hds⟩
          cases more with
          | nil => exact absurd htakes.length (Nat.ne_of_lt hmissing)
          | cons d more =>
            obtain ⟨rfl, rfl⟩ := List.cons.inj hbytes
            exact ⟨more, rest, ds, rfl, ((Pending.takes_cons hmore).1 htakes).2,
              congrArg (Char.ofNat · :: ds) (p.codeFrom_next b more).symm, hpos more ▸ hds⟩
    · have hstep : ∃ fault, decodeUtf8From pos (some p) (b :: bytes) = .error fault := by
        simp [decodeUtf8From, hb]
      obtain ⟨fault, hstep⟩ := hstep
      rw [hstep]
      constructor
      · intro h
        cases h
      · rintro ⟨more, rest, ds, hbytes, htakes, -⟩
        cases more with
        | nil => exact absurd htakes.length (Nat.ne_of_lt hmissing)
        | cons d more =>
          obtain ⟨rfl, -⟩ := List.cons.inj hbytes
          exact absurd (htakes.first b rfl) hb

/-! ## Characters -/

theorem ofNat_of_eq {n : Nat} {b : UInt8} (h : n = b.toNat) : UInt8.ofNat n = b := by
  rw [h, UInt8.ofNat_toNat]

theorem toNat_ofNat_of_valid {n : Nat} (h : n < 0xd800 ∨ 0xdfff < n ∧ n < 0x110000) :
    (Char.ofNat n).val.toNat = n := by
  have hvalid : n.isValidChar := h
  rw [Char.ofNat, dif_pos hvalid]
  rfl

section Leads

variable (pos : Nat) {b : UInt8}

theorem ofLead?_two (h : 0xc2 ≤ b.toNat ∧ b.toNat < 0xe0) :
    Pending.ofLead? pos b = some ⟨pos, b, 1, 0x80, 0xbf, b.toNat - 0xc0⟩ := by
  unfold Pending.ofLead?
  dsimp only
  rw [if_neg (by omega), if_pos h.2]

theorem ofLead?_three (h : 0xe0 ≤ b.toNat ∧ b.toNat < 0xf0) :
    Pending.ofLead? pos b = some ⟨pos, b, 2, if b.toNat == 0xe0 then 0xa0 else 0x80,
      if b.toNat == 0xed then 0x9f else 0xbf, b.toNat - 0xe0⟩ := by
  unfold Pending.ofLead?
  dsimp only
  rw [if_neg (by omega), if_neg (by omega), if_pos h.2]

theorem ofLead?_four (h : 0xf0 ≤ b.toNat ∧ b.toNat < 0xf5) :
    Pending.ofLead? pos b = some ⟨pos, b, 3, if b.toNat == 0xf0 then 0x90 else 0x80,
      if b.toNat == 0xf4 then 0x8f else 0xbf, b.toNat - 0xf0⟩ := by
  unfold Pending.ofLead?
  dsimp only
  rw [if_neg (by omega), if_neg (by omega), if_neg (by omega), if_pos h.2]

end Leads

/-- A first byte promises one, two or three more. -/
theorem ofLead?_cases {pos : Nat} {b : UInt8} {p : Pending} (h : Pending.ofLead? pos b = some p) :
    (0xc2 ≤ b.toNat ∧ b.toNat < 0xe0) ∧ p = ⟨pos, b, 1, 0x80, 0xbf, b.toNat - 0xc0⟩ ∨
    (0xe0 ≤ b.toNat ∧ b.toNat < 0xf0) ∧
      p = ⟨pos, b, 2, if b.toNat == 0xe0 then 0xa0 else 0x80,
        if b.toNat == 0xed then 0x9f else 0xbf, b.toNat - 0xe0⟩ ∨
    (0xf0 ≤ b.toNat ∧ b.toNat < 0xf5) ∧
      p = ⟨pos, b, 3, if b.toNat == 0xf0 then 0x90 else 0x80,
        if b.toNat == 0xf4 then 0x8f else 0xbf, b.toNat - 0xf0⟩ := by
  by_cases htwo : 0xc2 ≤ b.toNat ∧ b.toNat < 0xe0
  · exact Or.inl ⟨htwo, Option.some.inj (h.symm.trans (ofLead?_two pos htwo))⟩
  by_cases hthree : 0xe0 ≤ b.toNat ∧ b.toNat < 0xf0
  · exact Or.inr (Or.inl ⟨hthree, Option.some.inj (h.symm.trans (ofLead?_three pos hthree))⟩)
  by_cases hfour : 0xf0 ≤ b.toNat ∧ b.toNat < 0xf5
  · exact Or.inr (Or.inr ⟨hfour, Option.some.inj (h.symm.trans (ofLead?_four pos hfour))⟩)
  · have hnone : Pending.ofLead? pos b = none := by
      unfold Pending.ofLead?
      dsimp only
      by_cases hlow : b.toNat < 0xc2
      · rw [if_pos hlow]
      · rw [if_neg hlow, if_neg (by omega), if_neg (by omega), if_neg (by omega)]
    cases hnone.symm.trans h

theorem missing_of_ofLead {pos : Nat} {b : UInt8} {p : Pending}
    (hlead : Pending.ofLead? pos b = some p) : 0 < p.missing := by
  rcases ofLead?_cases hlead with ⟨-, rfl⟩ | ⟨-, rfl⟩ | ⟨-, rfl⟩
  · exact Nat.one_pos
  · exact Nat.two_pos
  · exact Nat.succ_pos 2

/-- What a first byte and the bytes that it promises come to is written as these bytes. -/
theorem encode_of_takes {pos : Nat} {b : UInt8} {p : Pending} {more : List UInt8}
    (hlead : Pending.ofLead? pos b = some p) (htakes : p.Takes more) :
    String.utf8EncodeChar (Char.ofNat (codeFrom p.bits more)) = b :: more := by
  obtain ⟨hlength, hfirst, hothers⟩ := htakes
  rcases ofLead?_cases hlead with ⟨hb, rfl⟩ | ⟨hb, rfl⟩ | ⟨hb, rfl⟩
  · -- Two bytes.
    obtain ⟨b₁, rfl⟩ := List.length_eq_one_iff.1 hlength
    have h₁ := hfirst b₁ rfl
    dsimp only at h₁
    have hcode : codeFrom (b.toNat - 0xc0) [b₁] = 64 * (b.toNat - 0xc0) + (b₁.toNat - 0x80) := rfl
    unfold String.utf8EncodeChar
    rw [hcode, toNat_ofNat_of_valid (by omega)]
    dsimp only
    rw [if_neg (by omega), if_pos (by omega), ofNat_of_eq (b := b) (by omega),
      ofNat_of_eq (b := b₁) (by omega)]
  · -- Three bytes.
    obtain ⟨b₁, b₂, rfl⟩ := List.length_eq_two.1 hlength
    have h₂ := hothers b₂ List.mem_cons_self
    have h₁ : (0x80 ≤ b₁.toNat ∧ b₁.toNat ≤ 0xbf) ∧ (b.toNat = 0xe0 → 0xa0 ≤ b₁.toNat) ∧
        (b.toNat = 0xed → b₁.toNat ≤ 0x9f) := by
      have h := hfirst b₁ rfl
      simp only [beq_iff_eq] at h
      split at h <;> split at h <;> omega
    have hcode : codeFrom (b.toNat - 0xe0) [b₁, b₂] =
      64 * (64 * (b.toNat - 0xe0) + (b₁.toNat - 0x80)) + (b₂.toNat - 0x80) := rfl
    unfold String.utf8EncodeChar
    rw [hcode, toNat_ofNat_of_valid (by omega)]
    dsimp only
    rw [if_neg (by omega), if_neg (by omega), if_pos (by omega), ofNat_of_eq (b := b) (by omega),
      ofNat_of_eq (b := b₁) (by omega), ofNat_of_eq (b := b₂) (by omega)]
  · -- Four bytes.
    obtain ⟨b₁, b₂, b₃, rfl⟩ := List.length_eq_three.1 hlength
    have h₂ := hothers b₂ List.mem_cons_self
    have h₃ := hothers b₃ (List.mem_cons_of_mem _ List.mem_cons_self)
    have h₁ : (0x80 ≤ b₁.toNat ∧ b₁.toNat ≤ 0xbf) ∧ (b.toNat = 0xf0 → 0x90 ≤ b₁.toNat) ∧
        (b.toNat = 0xf4 → b₁.toNat ≤ 0x8f) := by
      have h := hfirst b₁ rfl
      simp only [beq_iff_eq] at h
      split at h <;> split at h <;> omega
    have hcode : codeFrom (b.toNat - 0xf0) [b₁, b₂, b₃] =
      64 * (64 * (64 * (b.toNat - 0xf0) + (b₁.toNat - 0x80)) + (b₂.toNat - 0x80)) +
        (b₃.toNat - 0x80) := rfl
    unfold String.utf8EncodeChar
    rw [hcode, toNat_ofNat_of_valid (by omega)]
    dsimp only
    rw [if_neg (by omega), if_neg (by omega), if_neg (by omega), ofNat_of_eq (b := b) (by omega),
      ofNat_of_eq (b := b₁) (by omega), ofNat_of_eq (b := b₂) (by omega),
      ofNat_of_eq (b := b₃) (by omega)]

/-- A character that is written as more than one byte is promised by the first of them. -/
theorem takes_of_encode (pos : Nat) {c : Char} (hc : 0x80 ≤ c.val.toNat) :
    ∃ b more p, String.utf8EncodeChar c = b :: more ∧ 0x80 ≤ b.toNat ∧
      Pending.ofLead? pos b = some p ∧ p.Takes more ∧ Char.ofNat (codeFrom p.bits more) = c := by
  have hvalid : c.val.toNat < 0xd800 ∨ 0xdfff < c.val.toNat ∧ c.val.toNat < 0x110000 := c.valid
  have hself : ∀ n, n = c.val.toNat → Char.ofNat n = c := by
    rintro n rfl
    exact Char.ofNat_toNat c
  have hbyte : ∀ n, n < 0x100 → (UInt8.ofNat n).toNat = n := by
    intro n hn
    rw [UInt8.toNat_ofNat']
    exact Nat.mod_eq_of_lt hn
  generalize hv : c.val.toNat = v at hc hvalid hself
  unfold String.utf8EncodeChar
  rw [hv]
  dsimp only
  rw [if_neg (by omega)]
  by_cases htwo : v ≤ 0x7ff
  · have hb := hbyte (v / 64 % 0x20 + 0xc0) (by omega)
    have h₁ := hbyte (v % 64 + 0x80) (by omega)
    rw [if_pos htwo]
    refine ⟨_, _, _, rfl, by omega, ofLead?_two pos (by omega), ⟨rfl, ?_, nofun⟩, hself _ ?_⟩
    · intro d hd
      rw [← Option.some.inj hd, h₁]
      dsimp only
      omega
    · change 64 * (_ - _) + _ = _
      omega
  · rw [if_neg htwo]
    by_cases hthree : v ≤ 0xffff
    · have hb := hbyte (v / 4096 % 0x10 + 0xe0) (by omega)
      have h₁ := hbyte (v / 64 % 64 + 0x80) (by omega)
      have h₂ := hbyte (v % 64 + 0x80) (by omega)
      rw [if_pos hthree]
      refine ⟨_, _, _, rfl, by omega, ofLead?_three pos (by omega), ⟨rfl, ?_, ?_⟩, hself _ ?_⟩
      · intro d hd
        rw [← Option.some.inj hd, h₁, hb]
        simp only [beq_iff_eq]
        split <;> split <;> omega
      · intro d hd
        rw [List.mem_singleton.1 hd, h₂]
        omega
      · change 64 * (64 * (_ - _) + _) + _ = _
        omega
    · have hb := hbyte (v / 262144 % 8 + 0xf0) (by omega)
      have h₁ := hbyte (v / 4096 % 64 + 0x80) (by omega)
      have h₂ := hbyte (v / 64 % 64 + 0x80) (by omega)
      have h₃ := hbyte (v % 64 + 0x80) (by omega)
      rw [if_neg hthree]
      refine ⟨_, _, _, rfl, by omega, ofLead?_four pos (by omega), ⟨rfl, ?_, ?_⟩, hself _ ?_⟩
      · intro d hd
        rw [← Option.some.inj hd, h₁, hb]
        simp only [beq_iff_eq]
        split <;> split <;> omega
      · intro d hd
        rcases List.mem_cons.1 hd with rfl | hd
        · rw [h₂]
          omega
        · rw [List.mem_singleton.1 hd, h₃]
          omega
      · change 64 * (64 * (64 * (_ - _) + _) + _) + _ = _
        omega

/-! ## Whole texts -/

theorem encode_of_lt {c : Char} (hc : c.val.toNat < 0x80) :
    String.utf8EncodeChar c = [UInt8.ofNat c.val.toNat] := by
  unfold String.utf8EncodeChar
  exact if_pos (Nat.le_of_lt_succ hc)

theorem decodeUtf8From_of_lt {pos : Nat} {b : UInt8} (hb : b.toNat < 0x80) (bytes : List UInt8) :
    decodeUtf8From pos none (b :: bytes) =
      (Char.ofNat b.toNat :: ·) <$> decodeUtf8From (pos + 1) none bytes := by
  simp [decodeUtf8From, hb]

theorem decodeUtf8From_of_lead {pos : Nat} {b : UInt8} {p : Pending} (hb : 0x80 ≤ b.toNat)
    (hlead : Pending.ofLead? pos b = some p) (bytes : List UInt8) :
    decodeUtf8From pos none (b :: bytes) = decodeUtf8From (pos + 1) (some p) bytes := by
  simp [decodeUtf8From, Nat.not_lt_of_le hb, hlead]

/-- What is read is what the characters are written as. -/
theorem encode_of_decodeUtf8From {pos : Nat} {bytes : List UInt8} {cs : List Char}
    (h : decodeUtf8From pos none bytes = .ok cs) : bytes = cs.flatMap String.utf8EncodeChar := by
  -- A character takes one byte at least, so that there are fewer behind it.
  induction hlength : bytes.length using Nat.strongRecOn generalizing pos bytes cs with
  | ind length ih =>
    subst hlength
    cases bytes with
    | nil =>
      cases h
      rfl
    | cons b bytes =>
      by_cases hb : b.toNat < 0x80
      · rw [decodeUtf8From_of_lt hb] at h
        obtain ⟨ds, hds, rfl⟩ := Except.map_eq_ok.1 h
        have hcode : (Char.ofNat b.toNat).val.toNat = b.toNat :=
          toNat_ofNat_of_valid (Or.inl (Nat.lt_trans hb (by decide)))
        have hchar : String.utf8EncodeChar (Char.ofNat b.toNat) = [b] := by
          rw [encode_of_lt (Nat.lt_of_le_of_lt (Nat.le_of_eq hcode) hb), hcode, UInt8.ofNat_toNat]
        rw [List.flatMap_cons, hchar, ← ih _ (Nat.lt_succ_self _) hds rfl]
        rfl
      · cases hlead : Pending.ofLead? pos b with
        | none => simp [decodeUtf8From, hb, hlead] at h
        | some p =>
          rw [decodeUtf8From_of_lead (Nat.le_of_not_lt hb) hlead] at h
          obtain ⟨more, rest, ds, rfl, htakes, rfl, hds⟩ :=
            (decodeUtf8From_pending (missing_of_ofLead hlead)).1 h
          have hshorter : rest.length < (b :: (more ++ rest)).length := by
            rw [List.length_cons, List.length_append]
            omega
          rw [List.flatMap_cons, encode_of_takes hlead htakes, ← ih _ hshorter hds rfl]
          rfl

/-- What characters are written as is read. -/
theorem decodeUtf8From_encode (pos : Nat) (cs : List Char) :
    decodeUtf8From pos none (cs.flatMap String.utf8EncodeChar) = .ok cs := by
  induction cs generalizing pos with
  | nil => rfl
  | cons c cs ih =>
    rw [List.flatMap_cons]
    by_cases hc : c.val.toNat < 0x80
    · have hbyte : (UInt8.ofNat c.val.toNat).toNat = c.val.toNat := by
        rw [UInt8.toNat_ofNat']
        exact Nat.mod_eq_of_lt (Nat.lt_trans hc (by decide))
      rw [encode_of_lt hc, List.singleton_append, decodeUtf8From_of_lt (hbyte.symm ▸ hc), ih, hbyte]
      exact congrArg (fun d => Except.ok (d :: cs)) (Char.ofNat_toNat c)
    · obtain ⟨b, more, p, hencode, hb, hlead, htakes, hself⟩ :=
        takes_of_encode pos (Nat.le_of_not_lt hc)
      rw [hencode, List.cons_append, decodeUtf8From_of_lead hb hlead,
        decodeUtf8From_pending (missing_of_ofLead hlead)]
      exact ⟨more, _, cs, rfl, htakes, congrArg (· :: cs) hself.symm, ih _⟩

/-- Bytes are read as characters exactly if these are written as the bytes. -/
theorem decodeUtf8_eq_ok_iff {bytes : List UInt8} {cs : List Char} :
    decodeUtf8 bytes = .ok cs ↔ bytes = cs.flatMap String.utf8EncodeChar := by
  constructor
  · exact encode_of_decodeUtf8From
  · rintro rfl
    exact decodeUtf8From_encode 0 cs

end Text
end HtmlTemplate
