import HtmlTemplate.Bundle.FunctionName
import HtmlTemplate.Proofs.Code.Names

/-!
# FunctionName — names of functions are identifiers

A stem has a name if it has a letter or digit (`FunctionName.ofStem_isOk_iff`).  The name is made of
letters, digits and underscores, and starts with a letter that no keyword goes on from
(`FunctionName.isIdentifier_ofStem`).
-/

namespace HtmlTemplate

open Text

namespace Text

variable {p : Char → Bool}

/-- There is a run if there is a character for it. -/
theorem runsFrom_eq_nil_iff {run cs : List Char} :
    runsFrom p run cs = [] ↔ run = [] ∧ ∀ c ∈ cs, p c = false := by
  induction cs generalizing run with
  | nil => simp [runsFrom]
  | cons c cs ih =>
    unfold runsFrom
    split
    · rename_i hc
      simp [ih, hc]
    · rename_i hc
      split
      · rename_i hrun
        simp [ih, List.isEmpty_iff.1 hrun, Bool.eq_false_iff.2 hc]
      · rename_i hrun
        simp [mt List.isEmpty_iff.2 hrun]

/-- A run is made of its characters. -/
theorem of_mem_runsFrom {run cs word : List Char} (hrun : ∀ c ∈ run, p c = true)
    (hword : word ∈ runsFrom p run cs) : ∀ c ∈ word, p c = true := by
  induction cs generalizing run with
  | nil =>
    unfold runsFrom at hword
    split at hword
    · cases hword
    · exact List.mem_singleton.1 hword ▸ hrun
  | cons c cs ih =>
    unfold runsFrom at hword
    split at hword
    · rename_i hc
      refine ih (fun d hd => ?_) hword
      rcases List.mem_append.1 hd with hd | hd
      · exact hrun d hd
      · exact List.mem_singleton.1 hd ▸ hc
    · split at hword
      · exact ih (fun _ h => absurd h List.not_mem_nil) hword
      · rcases List.mem_cons.1 hword with rfl | hword
        · exact hrun
        · exact ih (fun _ h => absurd h List.not_mem_nil) hword

/-- A letter or digit is an ASCII character. -/
theorem isAlphanum_ascii {c : Char} (h : c.isAlphanum = true) : c.toNat < 0x80 :=
  Binding.isNameChar_ascii (by simp [Path.isNameChar, isWordChar, h])

/-- A property of all ASCII characters is checked value by value. -/
theorem forall_ascii {P : Char → Prop} (h : ∀ n < 0x80, P (Char.ofNat n)) {c : Char}
    (hc : c.toNat < 0x80) : P c := by
  have hself := h c.toNat hc
  rwa [Char.ofNat_toNat] at hself

/-- Letters and digits stay what they are in small letters. -/
theorem isAlphanum_toLower {c : Char} (h : c.isAlphanum = true) : c.toLower.isAlphanum = true :=
  forall_ascii (P := fun c => c.isAlphanum = true → c.toLower.isAlphanum = true) (by decide)
    (isAlphanum_ascii h) h

/-- A letter, digit or underscore goes on in an identifier. -/
theorem continuesIdentifier_of_isWordChar {c : Char} (h : isWordChar c = true) :
    continuesIdentifier c = true := by
  have hascii : c.toNat < 0x80 := Binding.isNameChar_ascii (by simp [Path.isNameChar, h])
  unfold continuesIdentifier
  rwa [if_pos hascii]

/-- What is put between texts is there besides them. -/
theorem of_mem_intersperse {α : Type} {separator a : α} {l : List α}
    (h : a ∈ l.intersperse separator) : a = separator ∨ a ∈ l := by
  fun_induction List.intersperse separator l with
  | case1 => cases h
  | case2 b => exact Or.inr h
  | case3 b c l ih =>
    rcases List.mem_cons.1 h with rfl | h
    · exact Or.inr List.mem_cons_self
    · rcases List.mem_cons.1 h with rfl | h
      · exact Or.inl rfl
      · exact (ih h).imp_right (List.mem_cons_of_mem b)

end Text

namespace FunctionName

/-- A template is a file whose name ends like one. -/
theorem isTemplate_iff {file : String} :
    isTemplate file = true ↔ extension.toList <:+ file.toList := by
  unfold isTemplate
  rw [String.endsWith_eq_endsWith_toSlice, String.Slice.endsWith_string_iff, String.copy_toSlice]

/-- A stem that a name can be made of. -/
def HasWord (stem : String) : Prop := ∃ c ∈ stem.toList, c.isAlphanum = true

/-- Nothing is lost, and nothing but underscores comes in. -/
theorem mem_splitHumps {c : Char} (hc : c ≠ '_') {cs : List Char} :
    c ∈ splitHumps cs ↔ c ∈ cs := by
  fun_induction splitHumps cs with
  | case1 a b cs _ ih => simp [ih, hc]
  | case2 a b cs _ ih => simp [ih]
  | case3 cs _ => exact Iff.rfl

theorem wordsOf_eq_nil_iff {stem : String} : wordsOf stem = [] ↔ ¬ HasWord stem := by
  have hsplit : ∀ c, c.isAlphanum = true → (c ∈ splitHumps stem.toList ↔ c ∈ stem.toList) := by
    intro c hc
    apply mem_splitHumps
    rintro rfl
    cases hc
  unfold wordsOf runs HasWord
  rw [List.map_eq_nil_iff, runsFrom_eq_nil_iff]
  constructor
  · rintro ⟨-, hnone⟩ ⟨c, hmem, hc⟩
    have hno := hnone c ((hsplit c hc).2 hmem)
    rw [hc] at hno
    cases hno
  · intro hnone
    refine ⟨rfl, fun c hmem => Bool.eq_false_iff.2 fun hc => ?_⟩
    exact hnone ⟨c, (hsplit c hc).1 hmem, hc⟩

/-- A word is made of letters and digits. -/
theorem isAlphanum_of_mem_wordsOf {stem word : String} (h : word ∈ wordsOf stem) :
    ∀ c ∈ word.toList, c.isAlphanum = true := by
  obtain ⟨run, hrun, rfl⟩ := List.mem_map.1 h
  intro c hc
  rw [String.toList_ofList] at hc
  obtain ⟨d, hd, rfl⟩ := List.mem_map.1 hc
  exact isAlphanum_toLower (of_mem_runsFrom (fun _ h => absurd h List.not_mem_nil) hrun d hd)

/-- A stem has a name if it has a letter or digit. -/
theorem ofStem_isOk_iff {stem : String} : (∃ name, ofStem stem = .ok name) ↔ HasWord stem := by
  unfold ofStem
  cases hwords : wordsOf stem with
  | nil => simpa using wordsOf_eq_nil_iff.1 hwords
  | cons word words =>
    have hword : HasWord stem := Classical.not_not.1 fun hno => by
      rw [wordsOf_eq_nil_iff.2 hno] at hwords
      cases hwords
    exact iff_of_true ⟨_, rfl⟩ hword

/-- A stem without a letter or digit is what cannot be named. -/
theorem ofStem_of_not_hasWord {stem : String} (h : ¬ HasWord stem) :
    ofStem stem = .error (.unnamedTemplate stem) := by
  unfold ofStem
  rw [wordsOf_eq_nil_iff.2 h]

theorem ofStem_eq_ok {stem name : String} (h : ofStem stem = .ok name) :
    name = leading ++ "_".intercalate (wordsOf stem) := by
  unfold ofStem at h
  split at h
  · cases h
  · exact (Except.ok.inj h).symm

/-- A name is made of letters, digits and underscores. -/
theorem isWordChar_of_ofStem {stem name : String} (h : ofStem stem = .ok name) :
    ∀ c ∈ name.toList, isWordChar c = true := by
  obtain rfl := ofStem_eq_ok h
  intro c hc
  rw [String.toList_append] at hc
  rcases List.mem_append.1 hc with hc | hc
  · exact List.all_eq_true.1 (by decide : leading.toList.all isWordChar = true) c hc
  · rw [String.toList_intercalate, List.intercalate, List.mem_flatten] at hc
    obtain ⟨word, hword, hc⟩ := hc
    rcases of_mem_intersperse hword with rfl | hword
    · exact List.mem_singleton.1 hc ▸ rfl
    · obtain ⟨text, htext, rfl⟩ := List.mem_map.1 hword
      rw [isWordChar, isAlphanum_of_mem_wordsOf htext c hc, Bool.true_or]

/-- A name is an identifier, and no keyword. -/
theorem isIdentifier_ofStem {stem name : String} (h : ofStem stem = .ok name) :
    isIdentifier name = true ∧ isKeyword name = false := by
  have hname : ∃ tail, name.toList = leading.toList ++ tail := by
    rw [ofStem_eq_ok h, String.toList_append]
    exact ⟨_, rfl⟩
  obtain ⟨tail, htail⟩ := hname
  constructor
  · have hcontinues : ∀ c ∈ name.toList.tail, continuesIdentifier c = true := fun c hc =>
      continuesIdentifier_of_isWordChar (isWordChar_of_ofStem h c (List.mem_of_mem_tail hc))
    unfold isIdentifier
    rw [htail] at hcontinues ⊢
    exact Bool.and_eq_true_iff.2 ⟨rfl, List.all_eq_true.2 hcontinues⟩
  · have hkeywords : ∀ keyword ∈ keywords, ¬ leading.toList <+: keyword.toList := by decide
    refine Bool.eq_false_iff.2 fun hkeyword => ?_
    exact hkeywords name (List.contains_iff_mem.1 hkeyword) ⟨tail, htail.symm⟩

end FunctionName
end HtmlTemplate
