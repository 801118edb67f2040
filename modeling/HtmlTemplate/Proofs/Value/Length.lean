import HtmlTemplate.Value.Text

/-!
# Length — which lengths can be had

A range tells its length unless it is longer than any sequence, and an object unless it refuses, or
reports a length that no sequence has (`Value.size?_eq_error_iff`).
-/

namespace HtmlTemplate
namespace Value

variable {v : Value} {fault : RenderFault}

theorem rangeSize_eq_ok {start stop step : Int} {n : Nat} (h : rangeSize start stop step = .ok n) :
    rangeLength start stop step < lengthBound ∧ n = rangeLength start stop step := by
  unfold rangeSize at h
  by_cases hbound : lengthBound ≤ rangeLength start stop step
  · rw [if_pos hbound] at h
    cases h
  · rw [if_neg hbound] at h
    exact ⟨Nat.lt_of_not_le hbound, (Except.ok.inj h).symm⟩

theorem rangeSize_eq_error_iff {start stop step : Int} :
    rangeSize start stop step = .error fault ↔
      lengthBound ≤ rangeLength start stop step ∧ fault = .rangeTooLong := by
  unfold rangeSize
  dsimp only
  split
  · rename_i hbound
    simp [hbound, eq_comm]
  · rename_i hbound
    simp [hbound]

theorem reported_eq_error_iff {n : Int} : reported n = .error fault ↔
    n < 0 ∧ fault = .negativeLength ∨ (lengthBound : Int) ≤ n ∧ fault = .lengthTooLarge := by
  unfold reported
  split
  · rename_i hnegative
    have hsmall : ¬ (lengthBound : Int) ≤ n := by omega
    simp [hnegative, hsmall, eq_comm]
  · rename_i hnegative
    split
    · rename_i hbound
      have hbound' : (lengthBound : Int) ≤ n := by omega
      simp [hnegative, hbound', eq_comm]
    · rename_i hbound
      have hbound' : ¬ (lengthBound : Int) ≤ n := by omega
      simp [hnegative, hbound']

theorem objectSize?_eq_error_iff {traits : ObjectTraits} {items? : Option (List Value)} :
    objectSize? traits items? = some (.error fault) ↔
      (traits.refuses .length = true ∧ fault = .conversion) ∨
      (traits.refuses .length = false ∧
        ∃ n, traits.length? = some n ∧ reported n = .error fault) := by
  unfold objectSize?
  split
  · rename_i hrefuses
    simp [hrefuses, eq_comm]
  · rename_i hrefuses
    rw [Bool.not_eq_true] at hrefuses
    split
    · rename_i n hn
      simp [hrefuses, hn]
    · rename_i hn _
      simp [hrefuses, hn]
    · rename_i hn _
      simp [hrefuses, hn]

/-- Only what is too long, reports a length below zero, or refuses cannot be asked for its
length. -/
theorem size?_eq_error_iff : v.size? = some (.error fault) ↔
    (∃ start stop step, v = range start stop step ∧ lengthBound ≤ rangeLength start stop step ∧
      fault = .rangeTooLong) ∨
    ∃ traits attributes items?, v = object traits attributes items? ∧
      ((traits.refuses .length = true ∧ fault = .conversion) ∨
        (traits.refuses .length = false ∧ ∃ n, traits.length? = some n ∧
          (n < 0 ∧ fault = .negativeLength ∨
            (lengthBound : Int) ≤ n ∧ fault = .lengthTooLarge))) := by
  simp only [← reported_eq_error_iff]
  constructor
  · intro h
    cases v with
    | none | bool | int | float | str | markup | bytes | list | tuple | dict | iterator |
      function => cases h
    | range start stop step =>
      exact Or.inl ⟨start, stop, step, rfl, rangeSize_eq_error_iff.1 (Option.some.inj h)⟩
    | object traits attributes items? =>
      exact Or.inr ⟨traits, attributes, items?, rfl, objectSize?_eq_error_iff.1 h⟩
  · rintro (⟨start, stop, step, rfl, h⟩ | ⟨traits, attributes, items?, rfl, h⟩)
    · exact congrArg some (rangeSize_eq_error_iff.2 h)
    · exact objectSize?_eq_error_iff.2 h

end Value
end HtmlTemplate
