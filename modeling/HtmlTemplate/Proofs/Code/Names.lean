import HtmlTemplate.Proofs.Code.Written
import HtmlTemplate.Proofs.Except
import HtmlTemplate.Proofs.Text.NormalHead

/-!
# Names — the names of generated code are told apart

Generated code uses the name of the context, variables of loops and the names of helpers.  All of
them may stand in an expression, the last two are their own normal spelling, and neither a helper
nor any spelling of a context's name is a variable.
-/

namespace HtmlTemplate

open Text

/-- Whether a name starts like the variable of a loop. -/
def startsLikeVariable (name : String) : Prop := name.toList.head? = some '_'

namespace Binding

/-! ## Variables of loops -/

theorem encodeChar_cases (c : Char) : c = '_' ∨ c = '$' ∨ c ≠ '_' ∧ encodeChar c = [c] := by
  by_cases hu : c = '_'
  · exact Or.inl hu
  · by_cases hd : c = '$'
    · exact Or.inr (Or.inl hd)
    · exact Or.inr (Or.inr ⟨hu, by simp [encodeChar, hu, hd]⟩)

theorem encodeChar_ne_nil (c : Char) : encodeChar c ≠ [] := by
  rcases encodeChar_cases c with rfl | rfl | ⟨-, h⟩
  · decide
  · decide
  · rw [h]
    exact List.cons_ne_nil _ _

theorem encodeChar_append_inj {c d : Char} {cs ds : List Char}
    (h : encodeChar c ++ cs = encodeChar d ++ ds) : c = d ∧ cs = ds := by
  have hu : encodeChar '_' = ['_', '_'] := rfl
  have hd : encodeChar '$' = ['_', 'd'] := rfl
  -- An escape is an underscore and a second character that tells which one it is.  Any other
  -- character stays, and is no underscore.
  rcases encodeChar_cases c with rfl | rfl | ⟨hc, hce⟩
  · rcases encodeChar_cases d with rfl | rfl | ⟨hd', hde⟩
    · simpa [hu] using h
    · simp [hu, hd] at h
    · rw [hu, hde] at h
      exact absurd (List.cons.inj h).1.symm hd'
  · rcases encodeChar_cases d with rfl | rfl | ⟨hd', hde⟩
    · simp [hu, hd] at h
    · simpa [hd] using h
    · rw [hd, hde] at h
      exact absurd (List.cons.inj h).1.symm hd'
  · rcases encodeChar_cases d with rfl | rfl | ⟨hd', hde⟩
    · rw [hce, hu] at h
      exact absurd (List.cons.inj h).1 hc
    · rw [hce, hd] at h
      exact absurd (List.cons.inj h).1 hc
    · rw [hce, hde] at h
      exact List.cons.inj h

theorem encode_injective {cs ds : List Char}
    (h : cs.flatMap encodeChar = ds.flatMap encodeChar) : cs = ds := by
  have hne : ∀ (e : Char) (es : List Char), [] ≠ (e :: es).flatMap encodeChar := by
    intro e es he
    exact encodeChar_ne_nil e (List.append_eq_nil_iff.1 he.symm).1
  induction cs generalizing ds with
  | nil =>
    cases ds with
    | nil => rfl
    | cons d ds => exact absurd h (hne d ds)
  | cons c cs ih =>
    cases ds with
    | nil => exact absurd h.symm (hne c cs)
    | cons d ds =>
      obtain ⟨rfl, hrest⟩ := encodeChar_append_inj h
      rw [ih hrest]

/-- Different bindings have different variables. -/
theorem variableOf_inj {a b : String} : variableOf a = variableOf b ↔ a = b := by
  constructor
  · intro h
    have hlist := congrArg String.toList h
    simp only [variableOf, String.toList_ofList, List.cons.injEq, true_and] at hlist
    exact String.toList_inj.1 (encode_injective hlist)
  · exact congrArg variableOf

theorem startsLikeVariable_variableOf (b : String) : startsLikeVariable (variableOf b) := by
  unfold startsLikeVariable variableOf
  rw [String.toList_ofList]
  rfl

theorem not_isKeyword {w : String} (h : startsLikeVariable w) : isKeyword w = false := by
  have hkeywords : ∀ k ∈ keywords, ¬ startsLikeVariable k := by
    unfold startsLikeVariable
    decide
  unfold isKeyword
  rw [List.contains_eq_mem, decide_eq_false_iff_not]
  exact fun hmem => hkeywords w hmem h

/-- What a check of a binding has found out. -/
theorem check_ok {contextName b w : String} (h : check contextName b = .ok w) :
    w = variableOf b ∧ Path.isName b.toList = true ∧ b ≠ contextName ∧
      isIdentifier (variableOf b) = true := by
  unfold check at h
  split at h
  · cases h
  · split at h
    · cases h
    · rename_i hname
      split at h
      · cases h
      · rename_i hne
        split at h
        · cases h
        · rename_i hi
          cases h
          exact ⟨rfl, by simpa using hname, hne, by simpa using hi⟩

theorem usable_variableOf {b : String} (h : isIdentifier (variableOf b) = true) :
    Expr.Usable (variableOf b) :=
  ⟨h, not_isKeyword (startsLikeVariable_variableOf b)⟩

theorem isNameChar_ascii {c : Char} (h : Path.isNameChar c = true) : c.toNat < 0x80 := by
  have hupper : c.isUpper = true → c.toNat ≤ 'Z'.toNat := fun hc => (of_decide_eq_true hc).2
  have hlower : c.isLower = true → c.toNat ≤ 'z'.toNat := fun hc =>
    of_decide_eq_true (Bool.and_eq_true_iff.1 hc).2
  have hdigit : c.isDigit = true → c.toNat ≤ '9'.toNat := fun hc =>
    of_decide_eq_true (Bool.and_eq_true_iff.1 hc).2
  have hword : c.isAlphanum = true → c.toNat < 0x80 := by
    intro hc
    rcases Bool.or_eq_true_iff.1 hc with ha | hd
    · rcases Bool.or_eq_true_iff.1 ha with hu | hl
      · exact Nat.lt_of_le_of_lt (hupper hu) (by decide)
      · exact Nat.lt_of_le_of_lt (hlower hl) (by decide)
    · exact Nat.lt_of_le_of_lt (hdigit hd) (by decide)
  simp only [Path.isNameChar, isWordChar, Bool.or_eq_true, beq_iff_eq] at h
  rcases h with (hc | rfl) | rfl
  · exact hword hc
  · decide
  · decide

theorem isNameChar_of_isName {b : String} (h : Path.isName b.toList = true) :
    ∀ c ∈ b.toList, Path.isNameChar c = true := by
  cases hcs : b.toList with
  | nil => intro c hc; cases hc
  | cons c cs =>
    rw [hcs] at h
    simp only [Path.isName, Bool.and_eq_true, List.all_eq_true] at h
    intro d hd
    rcases List.mem_cons.1 hd with rfl | hd
    · have hstart := h.1
      simp only [Path.startsName, Bool.or_eq_true] at hstart
      simp only [Path.isNameChar, isWordChar, Char.isAlphanum, Bool.or_eq_true]
      rcases hstart with (ha | hs) | hu
      · exact Or.inl (Or.inl (Or.inl ha))
      · exact Or.inr hs
      · exact Or.inl (Or.inr hu)
    · exact h.2 d hd

/-- The variable of a binding is its own normal spelling. -/
theorem normalName_variableOf {b : String} (h : Path.isName b.toList = true) :
    normalName (variableOf b) = variableOf b := by
  refine normalName_ascii ?_
  unfold variableOf
  rw [String.toList_ofList, List.all_cons, Bool.and_eq_true, List.all_eq_true]
  refine ⟨by decide, ?_⟩
  intro d hd
  obtain ⟨c, hc, hdc⟩ := List.mem_flatMap.1 hd
  have hascii := isNameChar_ascii (isNameChar_of_isName h c hc)
  unfold encodeChar at hdc
  split at hdc
  · simp only [List.mem_cons, List.not_mem_nil, or_false, or_self] at hdc
    subst hdc
    decide
  · split at hdc
    · simp only [List.mem_cons, List.not_mem_nil, or_false] at hdc
      rcases hdc with rfl | rfl <;> decide
    · rw [List.mem_singleton.1 hdc]
      exact decide_eq_true hascii

end Binding

namespace Helper

/-! ## Helpers -/

theorem ofName?_name (h : Helper) : ofName? h.name = some h := by
  cases h <;> decide

theorem usable_name (h : Helper) : Expr.Usable h.name := by
  cases h <;> exact ⟨by decide, by decide⟩

theorem normalName_name (h : Helper) : normalName h.name = h.name := by
  refine normalName_ascii ?_
  cases h <;> decide

theorem name_not_startsLikeVariable (h : Helper) : ¬ startsLikeVariable h.name := by
  unfold startsLikeVariable
  cases h <;> decide

end Helper

namespace Generator

/-! ## The context -/

/-- What a check of the context's name has found out. -/
theorem checkContextName_ok {name : String} (h : checkContextName name = .ok ()) :
    Expr.Usable name ∧ ¬ startsLikeVariable name ∧ Helper.ofName? name = none := by
  unfold checkContextName at h
  split at h
  · cases h
  · rename_i hvalid
    split at h
    · cases h
    · rename_i hhelper
      simp only [Bool.or_eq_true, not_or, Bool.not_eq_true, Bool.not_eq_false', beq_iff_eq] at hvalid
      exact ⟨⟨hvalid.1.1, hvalid.1.2⟩, hvalid.2, by simpa using hhelper⟩

theorem ofContextName_ok {name : String} {g : Generator} (h : ofContextName name = .ok g) :
    g = ⟨name, .empty, #[], none⟩ ∧ checkContextName name = .ok () := by
  obtain ⟨_, hcheck, h⟩ := Except.bind_eq_ok.1 h
  cases h
  exact ⟨rfl, hcheck⟩

/-- No spelling of a context's name is a variable. -/
theorem normalName_ne_variableOf {name : String} (h : checkContextName name = .ok ()) (b : String) :
    normalName name ≠ Binding.variableOf b := by
  obtain ⟨⟨hi, -⟩, hv, -⟩ := checkContextName_ok h
  intro he
  -- A variable starts with an underscore, which no spelling of the name does.
  exact head_normalName hi hv (he ▸ Binding.startsLikeVariable_variableOf b)

end Generator
end HtmlTemplate
