import HtmlTemplate.Proofs.Text.CodePoint
import HtmlTemplate.Text.Key

/-!
# Key — field names can be told from what is written of them

A key is written so that it can be read back, whatever stands behind it
(`Text.readKey_encodePoints`), but for halves of surrogate pairs that stand as the units of one
character do.  So no text is the start of another one as a key (`Text.encodeKey_append_inj`).  A key
is written in shown characters on one line (`Text.all_isShown_encodeKey`).
-/

namespace HtmlTemplate
namespace Text

open CodePoint

/-! ## Writing -/

/-- How a code point is written in a key: half of a pair is a unit of its own. -/
def encodePoint (p : CodePoint) : List Char :=
  match p.char? with
  | some c => encodeKeyChar c
  | none => escapeUnits p.val

/-- The key of any sequence of code points. -/
def encodePoints (ps : List CodePoint) : String :=
  String.ofList ('"' :: (ps.flatMap encodePoint ++ ['"']))

theorem encodePoint_ofChar (c : Char) : encodePoint (ofChar c) = encodeKeyChar c := by
  rw [encodePoint, char?_ofChar]

/-- The key of a text is that of its code points. -/
theorem encodeKey_eq (key : String) : encodeKey key = encodePoints (points key) := by
  simp only [encodeKey, encodePoints, points, List.flatMap_map, encodePoint_ofChar]

/-! ## Reading -/

/-- The letters that stand for one character after a backslash. -/
def keyEscapes : List (Char × Char) :=
  [('"', '"'), ('\\', '\\'), ('/', '/'), ('b', '\x08'), ('f', '\x0c'), ('n', '\n'), ('r', '\r'),
    ('t', '\t')]

/-- Reads the four digits of a unit. -/
def readUnit (cs : List Char) : Option (CodePoint × List Char) :=
  (readHex 4 0 cs).map fun unit => (ofCode unit.1, unit.2)

/-- Reads the escape of the second half of a pair. -/
def readLow : List Char → Option (CodePoint × List Char)
  | '\\' :: 'u' :: cs => (readUnit cs).filter fun (low, _) => low.IsLow
  | _ => none

/-- Reads the units of one code point, behind the letter of the first: a high half goes together
with a low one directly behind it. -/
def readUnits (cs : List Char) : Option (CodePoint × List Char) := do
  let (unit, rest) ← readUnit cs
  if unit.IsHigh then
    match readLow rest with
    | some (low, rest) => return (pair unit low, rest)
    | none => return (unit, rest)
  else return (unit, rest)

/-- Reads what follows a backslash: the code point that it stands for, and the rest. -/
def readKeyEscape : List Char → Option (CodePoint × List Char)
  | [] => none
  | 'u' :: cs => readUnits cs
  | letter :: cs => (keyEscapes.lookup letter).map fun c => (ofChar c, cs)

theorem readUnit_length {cs rest : List Char} {p : CodePoint}
    (h : readUnit cs = some (p, rest)) : rest.length ≤ cs.length := by
  obtain ⟨⟨n, after⟩, hn, h⟩ := Option.map_eq_some_iff.1 h
  cases h
  exact readHex_length hn

theorem readLow_length {cs rest : List Char} {p : CodePoint}
    (h : readLow cs = some (p, rest)) : rest.length ≤ cs.length := by
  unfold readLow at h
  split at h
  · rename_i cs'
    calc rest.length ≤ cs'.length := readUnit_length (Option.filter_eq_some_iff.1 h).1
      _ ≤ cs'.length + 2 := Nat.le_add_right _ 2
  · cases h

theorem readUnits_length {cs rest : List Char} {p : CodePoint}
    (h : readUnits cs = some (p, rest)) : rest.length ≤ cs.length := by
  obtain ⟨⟨unit, after⟩, hunit, h⟩ := Option.bind_eq_some_iff.1 h
  have hafter := readUnit_length hunit
  dsimp only at h
  split at h
  · split at h
    · rename_i low last hlow
      obtain ⟨-, rfl⟩ := Prod.mk.inj (Option.some.inj h)
      exact Nat.le_trans (readLow_length hlow) hafter
    · cases h
      exact hafter
  · cases h
    exact hafter

theorem readKeyEscape_length {cs rest : List Char} {p : CodePoint}
    (h : readKeyEscape cs = some (p, rest)) : rest.length ≤ cs.length := by
  unfold readKeyEscape at h
  split at h
  · cases h
  · exact Nat.le_succ_of_le (readUnits_length h)
  · obtain ⟨d, -, h⟩ := Option.map_eq_some_iff.1 h
    cases h
    exact Nat.le_succ _

/-- Reads the inside of a key up to its closing quote.  A control character is always escaped. -/
def readKeyText : List Char → Option (List CodePoint × List Char)
  | [] => none
  | c :: cs =>
    if c == '"' then some ([], cs)
    else if c == '\\' then
      match h : readKeyEscape cs with
      | none => none
      | some (p, rest) =>
        have : rest.length ≤ cs.length := readKeyEscape_length h
        (readKeyText rest).map fun (text, after) => (p :: text, after)
    else if c.toNat < 0x20 then none
    else (readKeyText cs).map fun (text, after) => (ofChar c :: text, after)
termination_by cs => cs.length

theorem readKeyText_length {cs rest : List Char} {text : List CodePoint}
    (h : readKeyText cs = some (text, rest)) : rest.length < cs.length := by
  fun_induction readKeyText cs generalizing text with
  | case1 => cases h
  | case2 =>
    cases h
    exact Nat.lt_succ_self _
  | case3 => cases h
  | case4 c cs _ _ p after _ hle ih =>
    obtain ⟨⟨t, r⟩, ht, h⟩ := Option.map_eq_some_iff.1 h
    cases h
    exact Nat.lt_of_lt_of_le (ih ht) (Nat.le_succ_of_le hle)
  | case5 => cases h
  | case6 c cs _ _ _ ih =>
    obtain ⟨⟨t, r⟩, ht, h⟩ := Option.map_eq_some_iff.1 h
    cases h
    exact Nat.lt_succ_of_lt (ih ht)

/-- Reads a key at the start of a text, and gives the rest. -/
def readKey : List Char → Option (List CodePoint × List Char)
  | '"' :: cs => readKeyText cs
  | _ => none

theorem readKey_length {cs rest : List Char} {key : List CodePoint}
    (h : readKey cs = some (key, rest)) : rest.length < cs.length := by
  unfold readKey at h
  split at h
  · exact Nat.lt_succ_of_lt (readKeyText_length h)
  · cases h

/-! ## Units -/

theorem readUnit_hexDigits {p : CodePoint} (h : p.val < 0x10000) (rest : List Char) :
    readUnit (hexDigits 4 p.val ++ rest) = some (p, rest) := by
  have hlt : p.val < 16 ^ 4 := h
  rw [readUnit, readHex_hexDigits, Nat.mul_zero, Nat.zero_add, Nat.mod_eq_of_lt hlt]
  exact congrArg (fun unit => some (unit, rest)) (ofCode_val p)

/-- A low half is read as such. -/
theorem readLow_escapeUnit {low : CodePoint} (h : low.IsLow) (rest : List Char) :
    readLow (escapeUnit low.val ++ rest) = some (low, rest) := by
  have hlt : low.val < 0x10000 := Nat.lt_trans h.2 (by decide)
  simp only [escapeUnit, List.cons_append, readLow, readUnit_hexDigits hlt, Option.filter_some,
    decide_eq_true h, if_true]

theorem readUnits_pair {high low : CodePoint} (hhigh : high.IsHigh) (hlow : low.IsLow)
    (rest : List Char) :
    readUnits (hexDigits 4 high.val ++ (escapeUnit low.val ++ rest)) =
      some (pair high low, rest) := by
  have hlt : high.val < 0x10000 := Nat.lt_trans hhigh.2 (by decide)
  simp only [readUnits, readUnit_hexDigits hlt, readLow_escapeUnit hlow, Option.bind_eq_bind,
    Option.bind_some, if_pos hhigh]
  rfl

theorem readUnits_single {p : CodePoint} {rest : List Char} (h : p.val < 0x10000)
    (hrest : p.IsHigh → readLow rest = none) :
    readUnits (hexDigits 4 p.val ++ rest) = some (p, rest) := by
  simp only [readUnits, readUnit_hexDigits h, Option.bind_eq_bind, Option.bind_some]
  split
  · rename_i hhigh
    rw [hrest hhigh]
    rfl
  · rfl

/-- The units of a pair are those of its halves. -/
theorem escapeUnits_pair {high low : CodePoint} (hhigh : high.IsHigh) (hlow : low.IsLow) :
    escapeUnits (pair high low).val = escapeUnit high.val ++ escapeUnit low.val := by
  have hval := val_pair hhigh hlow
  obtain ⟨hhigh, hhigh'⟩ := hhigh
  obtain ⟨hlow, hlow'⟩ := hlow
  have hlarge : ¬ (pair high low).val < 0x10000 := by omega
  have hfirst : 0xd800 + ((pair high low).val - 0x10000) / 0x400 = high.val := by omega
  have hsecond : 0xdc00 + ((pair high low).val - 0x10000) % 0x400 = low.val := by omega
  simp only [escapeUnits, if_neg hlarge, hfirst, hsecond]

/-- The units of a code point start with a backslash and a letter, and are read as it, unless its
only unit goes together with what stands behind it. -/
theorem readUnits_escapeUnits {p : CodePoint} {rest : List Char}
    (hrest : p.IsHigh → readLow rest = none) :
    ∃ cs, escapeUnits p.val = '\\' :: 'u' :: cs ∧ readUnits (cs ++ rest) = some (p, rest) := by
  by_cases h : p.val < 0x10000
  · exact ⟨hexDigits 4 p.val, if_pos h, readUnits_single h hrest⟩
  · obtain ⟨high, low, hhigh, hlow, rfl⟩ := exists_pair (Nat.le_of_not_lt h)
    refine ⟨hexDigits 4 high.val ++ escapeUnit low.val, escapeUnits_pair hhigh hlow, ?_⟩
    rw [List.append_assoc, readUnits_pair hhigh hlow]

/-! ## Code points -/

/-- A character from the space to the tilde. -/
def isShown (c : Char) : Bool := 0x20 ≤ c.toNat && c.toNat ≤ 0x7e

/-- A character is written by a short escape, as it is, or by its units. -/
theorem encodeKeyChar_cases (c : Char) :
    (∃ letter, (letter, c) ∈ keyEscapes ∧ encodeKeyChar c = ['\\', letter]) ∨
      (encodeKeyChar c = [c] ∧ isShown c = true ∧ c ≠ '"' ∧ c ≠ '\\') ∨
      encodeKeyChar c = escapeUnits c.toNat := by
  unfold encodeKeyChar
  split
  · exact Or.inl ⟨'"', by decide, rfl⟩
  · exact Or.inl ⟨'\\', by decide, rfl⟩
  · exact Or.inl ⟨'n', by decide, rfl⟩
  · exact Or.inl ⟨'r', by decide, rfl⟩
  · exact Or.inl ⟨'t', by decide, rfl⟩
  · exact Or.inl ⟨'b', by decide, rfl⟩
  · exact Or.inl ⟨'f', by decide, rfl⟩
  · rename_i hquote hslash _ _ _ _ _
    split
    · rename_i hshown
      exact Or.inr (Or.inl ⟨rfl, hshown, hquote, hslash⟩)
    · exact Or.inr (Or.inr rfl)

/-- So is a code point; half of a pair is written by its only unit. -/
theorem encodePoint_cases (p : CodePoint) :
    (∃ letter c, (letter, c) ∈ keyEscapes ∧ p = ofChar c ∧ encodePoint p = ['\\', letter]) ∨
      (∃ c, p = ofChar c ∧ encodePoint p = [c] ∧ isShown c = true ∧ c ≠ '"' ∧ c ≠ '\\') ∨
      encodePoint p = escapeUnits p.val := by
  cases hc : p.char? with
  | none => exact Or.inr (Or.inr (by rw [encodePoint, hc]))
  | some c =>
    obtain rfl := ofChar_of_char? hc
    rw [encodePoint_ofChar]
    rcases encodeKeyChar_cases c with ⟨letter, hmem, h⟩ | h | h
    · exact Or.inl ⟨letter, c, hmem, rfl, h⟩
    · exact Or.inr (Or.inl ⟨c, rfl, h⟩)
    · exact Or.inr (Or.inr h)

theorem encodePoint_of_half {p : CodePoint} (h : p.IsHigh ∨ p.IsLow) :
    encodePoint p = escapeUnit p.val := by
  have hlt : p.val < 0x10000 := by
    rcases h with ⟨-, h⟩ | ⟨-, h⟩ <;> exact Nat.lt_trans h (by decide)
  rw [encodePoint, char?_of_half h]
  exact if_pos hlt

theorem escapeUnits_cases (n : Nat) :
    (∃ unit, escapeUnits n = escapeUnit unit) ∨
      ∃ high low, escapeUnits n = escapeUnit high ++ escapeUnit low := by
  unfold escapeUnits
  split
  · exact Or.inl ⟨_, rfl⟩
  · exact Or.inr ⟨_, _, rfl⟩

theorem encodeKeyChar_head (c : Char) : ∃ d ds, encodeKeyChar c = d :: ds ∧ d ≠ '"' := by
  rcases encodeKeyChar_cases c with ⟨letter, -, h⟩ | ⟨h, -, hquote, -⟩ | h
  · exact ⟨'\\', [letter], h, by decide⟩
  · exact ⟨c, [], h, hquote⟩
  · rcases escapeUnits_cases c.toNat with ⟨unit, hunits⟩ | ⟨high, low, hunits⟩
    · exact ⟨'\\', _, h.trans hunits, by decide⟩
    · exact ⟨'\\', _, h.trans hunits, by decide⟩

/-- Each letter is read as the character that it stands for. -/
theorem readKeyEscape_of_mem {letter c : Char} (h : (letter, c) ∈ keyEscapes) (cs : List Char) :
    readKeyEscape (letter :: cs) = some (ofChar c, cs) := by
  have hall : ∀ entry ∈ keyEscapes,
      entry.1 ≠ 'u' ∧ keyEscapes.lookup entry.1 = some entry.2 := by decide
  obtain ⟨hu, hlookup⟩ := hall _ h
  rw [readKeyEscape.eq_3 letter cs hu, hlookup, Option.map_some]

theorem readKeyText_escape {cs rest : List Char} {p : CodePoint}
    (h : readKeyEscape cs = some (p, rest)) : readKeyText ('\\' :: cs) =
      (readKeyText rest).map fun (text, after) => (p :: text, after) := by
  have hne : ('\\' == '"') = false := rfl
  rw [readKeyText]
  simp only [hne, Bool.false_eq_true, if_false, beq_self_eq_true, if_true]
  split
  · rename_i hn
    rw [h] at hn
    cases hn
  · rename_i hs
    rw [h] at hs
    cases hs
    rfl

/-- A written code point reads back as itself, unless it goes together with what stands behind. -/
theorem readKeyText_encodePoint {p : CodePoint} {cs : List Char}
    (hcs : p.IsHigh → readLow cs = none) : readKeyText (encodePoint p ++ cs) =
      (readKeyText cs).map fun (text, after) => (p :: text, after) := by
  -- Only in the last case can it be half of a pair, so that the rest matters.
  rcases encodePoint_cases p with
    ⟨letter, c, hmem, rfl, h⟩ | ⟨c, rfl, h, hshown, hquote, hslash⟩ | h
  · rw [h]
    exact readKeyText_escape (readKeyEscape_of_mem hmem cs)
  · have hcontrol : ¬ c.toNat < 0x20 :=
      Nat.not_lt_of_le (of_decide_eq_true (Bool.and_eq_true_iff.1 hshown).1)
    rw [h, List.singleton_append, readKeyText, if_neg (by simpa using hquote),
      if_neg (by simpa using hslash), if_neg hcontrol]
  · obtain ⟨units, hunits, hread⟩ := readUnits_escapeUnits hcs
    rw [h, hunits]
    exact readKeyText_escape hread

/-- Two halves are read as the character of both. -/
theorem readKeyText_pair {high low : CodePoint} (hhigh : high.IsHigh) (hlow : low.IsLow)
    (cs : List Char) : readKeyText (encodePoint high ++ (encodePoint low ++ cs)) =
      (readKeyText cs).map fun (text, after) => (pair high low :: text, after) := by
  rw [encodePoint_of_half (Or.inl hhigh), encodePoint_of_half (Or.inr hlow)]
  exact readKeyText_escape (readUnits_pair hhigh hlow cs)

/-- Only a low half is read as one. -/
theorem readLow_encodePoint {p : CodePoint} (h : ¬ p.IsLow) (cs : List Char) :
    readLow (encodePoint p ++ cs) = none := by
  have hunit : ∀ {unit : CodePoint} {rest : List Char}, unit.val < 0x10000 → ¬ unit.IsLow →
      readLow (escapeUnit unit.val ++ rest) = none := by
    intro unit rest hlt hnot
    simp only [escapeUnit, List.cons_append, readLow, readUnit_hexDigits hlt, Option.filter_some,
      decide_eq_false hnot, Bool.false_eq_true, if_false]
  rcases encodePoint_cases p with ⟨letter, c, hmem, -, hp⟩ | ⟨c, -, hp, -, -, hslash⟩ | hp
  · have hall : ∀ entry ∈ keyEscapes, entry.1 ≠ 'u' := by decide
    rw [hp]
    exact readLow.eq_2 _ fun rest he => hall _ hmem (List.cons.inj (List.cons.inj he).2).1
  · rw [hp]
    exact readLow.eq_2 _ fun rest he => hslash (List.cons.inj he).1
  · rw [hp]
    by_cases hlt : p.val < 0x10000
    · rw [escapeUnits, if_pos hlt]
      exact hunit hlt h
    · -- The first unit is a high half then.
      obtain ⟨high, low, hhigh, hlow, rfl⟩ := exists_pair (Nat.le_of_not_lt hlt)
      rw [escapeUnits_pair hhigh hlow, List.append_assoc]
      exact hunit (Nat.lt_trans hhigh.2 (by decide)) fun hlow =>
        absurd hhigh.2 (Nat.not_lt_of_le hlow.1)

/-! ## Keys -/

/-- The character of two halves is written as the halves are. -/
theorem encodePoint_pair {high low : CodePoint} (hhigh : high.IsHigh) (hlow : low.IsLow) :
    encodePoint (pair high low) = encodePoint high ++ encodePoint low := by
  have hchar : ∀ c, pair high low = ofChar c → 0x10000 ≤ c.toNat := by
    intro c hc
    calc 0x10000 ≤ (pair high low).val := by
          rw [val_pair hhigh hlow, Nat.add_assoc]
          exact Nat.le_add_right _ _
      _ = c.toNat := congrArg Fin.val hc
  rw [encodePoint_of_half (Or.inl hhigh), encodePoint_of_half (Or.inr hlow),
    ← escapeUnits_pair hhigh hlow]
  -- A character that is written otherwise is not one of those from U+10000 on.
  rcases encodePoint_cases (pair high low) with
    ⟨letter, c, hmem, hc, -⟩ | ⟨c, hc, -, hshown, -⟩ | h
  · have hall : ∀ entry ∈ keyEscapes, entry.2.toNat < 0x10000 := by decide
    exact absurd (hall _ hmem) (Nat.not_lt_of_le (hchar c hc))
  · have hle : c.toNat ≤ 0x7e := of_decide_eq_true (Bool.and_eq_true_iff.1 hshown).2
    exact absurd (hchar c hc) (by omega)
  · exact h

theorem flatMap_combined (text : List CodePoint) :
    (combined text).flatMap encodePoint = text.flatMap encodePoint := by
  fun_induction combined text with
  | case1 => rfl
  | case2 => rfl
  | case3 high low text hpair ih =>
    simp only [List.flatMap_cons, encodePoint_pair hpair.1 hpair.2, ih, List.append_assoc]
  | case4 high low text _ ih =>
    rw [List.flatMap_cons, ih]
    exact List.flatMap_cons.symm

/-- Putting halves together leaves the key. -/
theorem encodePoints_combined (key : List CodePoint) :
    encodePoints (combined key) = encodePoints key := by
  rw [encodePoints, flatMap_combined, encodePoints]

/-- The inside of a key is read as what UTF-16 tells of it. -/
theorem readKeyText_flatMap (text : List CodePoint) (rest : List Char) :
    readKeyText (text.flatMap encodePoint ++ '"' :: rest) = some (combined text, rest) := by
  have hend : readKeyText ('"' :: rest) = some ([], rest) := by
    rw [readKeyText]
    exact if_pos (beq_self_eq_true '"')
  fun_induction combined text with
  | case1 => exact hend
  | case2 p =>
    -- The closing quote is no unit that could go together with the last one.
    rw [List.flatMap_cons, List.flatMap_nil, List.append_nil,
      readKeyText_encodePoint fun _ => rfl, hend, Option.map_some]
  | case3 high low text hpair ih =>
    rw [List.flatMap_cons, List.flatMap_cons, List.append_assoc, List.append_assoc,
      readKeyText_pair hpair.1 hpair.2, ih, Option.map_some]
  | case4 high low text hpair ih =>
    -- If the first is a high half, what is written behind it is no low one.
    have hlow : high.IsHigh →
        readLow ((low :: text).flatMap encodePoint ++ '"' :: rest) = none := by
      intro hhigh
      rw [List.flatMap_cons, List.append_assoc]
      exact readLow_encodePoint (fun hlow => hpair ⟨hhigh, hlow⟩) _
    rw [List.flatMap_cons, List.append_assoc, readKeyText_encodePoint hlow, ih, Option.map_some]

/-- A key reads back as what UTF-16 tells of it, whatever stands behind it. -/
theorem readKey_encodePoints (key : List CodePoint) (rest : List Char) :
    readKey ((encodePoints key).toList ++ rest) = some (combined key, rest) := by
  rw [encodePoints, String.toList_ofList, List.cons_append, List.append_assoc,
    List.singleton_append, readKey, readKeyText_flatMap]

/-- The key of a text reads back as the text. -/
theorem readKey_encodeKey (key : String) (rest : List Char) :
    readKey ((encodeKey key).toList ++ rest) = some (points key, rest) := by
  rw [encodeKey_eq, readKey_encodePoints, combined_of_unpaired (unpaired_points key)]

/-- A key can be cancelled from the start of a text. -/
theorem encodeKey_append_inj {a b : String} {xs ys : List Char}
    (h : (encodeKey a).toList ++ xs = (encodeKey b).toList ++ ys) : a = b := by
  have hread := congrArg readKey h
  rw [readKey_encodeKey, readKey_encodeKey] at hread
  exact points_injective (Prod.mk.inj (Option.some.inj hread)).1

/-! ## One line -/

/-- What holds of sixteen characters holds of all digits. -/
theorem forall_hexDigits {P : Char → Prop} (h : ∀ m : Fin 16, P (hexDigit m)) (width n : Nat) :
    ∀ c ∈ hexDigits width n, P c := by
  induction width generalizing n with
  | zero => exact fun _ hc => absurd hc List.not_mem_nil
  | succ width ih =>
    intro c hc
    rcases List.mem_append.1 hc with hc | hc
    · exact ih _ c hc
    · rw [List.mem_singleton.1 hc]
      exact h ⟨n % 16, Nat.mod_lt n (by decide)⟩

/-- A key is written in the characters from the space to the tilde. -/
theorem all_isShown_encodeKey (key : String) : (encodeKey key).toList.all isShown = true := by
  have hunit : ∀ unit, (escapeUnit unit).all isShown = true := fun unit =>
    List.all_eq_true.2 (List.forall_mem_cons.2 ⟨rfl, List.forall_mem_cons.2
      ⟨rfl, forall_hexDigits (P := fun c => isShown c = true) (by decide) 4 unit⟩⟩)
  have hchar : ∀ c, (encodeKeyChar c).all isShown = true := by
    intro c
    rcases encodeKeyChar_cases c with ⟨letter, hmem, h⟩ | ⟨h, hshown, -⟩ | h
    · have hletters : ∀ entry ∈ keyEscapes, isShown entry.1 = true := by decide
      rw [h, List.all_cons, List.all_cons, hletters _ hmem]
      rfl
    · rw [h, List.all_cons, hshown]
      rfl
    · rcases escapeUnits_cases c.toNat with ⟨unit, hunits⟩ | ⟨high, low, hunits⟩
      · rw [h, hunits, hunit]
      · rw [h, hunits, List.all_append, hunit, hunit]
        rfl
  have hbody : (key.toList.flatMap encodeKeyChar).all isShown = true := by
    rw [List.all_flatMap]
    exact List.all_eq_true.2 fun c _ => hchar c
  unfold encodeKey
  rw [String.toList_ofList, List.all_cons, List.all_append, hbody]
  rfl

/-- A key is written on one line. -/
theorem newline_not_mem_key (key : String) : '\n' ∉ (encodeKey key).toList := fun h =>
  absurd (List.all_eq_true.1 (all_isShown_encodeKey key) '\n' h) (by decide)

end Text
end HtmlTemplate
