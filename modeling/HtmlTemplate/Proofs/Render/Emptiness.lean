import HtmlTemplate.Proofs.Template.Privacy
import HtmlTemplate.Proofs.Value.Length

/-!
# Emptiness — a test for elements, and a loop over them

`Render.isNonempty` asks a value for its length, or for a first element, and `Render.loop` goes
through the elements.  They agree on every value that may be gone through more than once, each time
to its end, and reports no other length than the number of its elements, as long as its length can
be had (`Render.isNonempty_of_measured`).
-/

namespace HtmlTemplate

variable {v : Value}

/-! ## Lengths -/

namespace Value

/-- Whether a value that can be gone through yields its elements to the end, and has no other length
than their number. -/
def Faithful (v : Value) : Prop :=
  v.isIterable = true →
    v.breaksOff = false ∧ ∀ n, v.size? = some (.ok n) → n = v.elements.length

/-- Whether nothing goes wrong when a value that can be gone through is asked for its length. -/
def Measured (v : Value) : Prop :=
  v.isIterable = true → ∀ fault, v.size? ≠ some (.error fault)

theorem elements_of_not_iterator (hv : ∀ id items, v ≠ iterator id items) :
    v.elements = v.items?.getD [] := by
  cases v with
  | iterator id items => exact absurd rfl (hv id items)
  | _ => rfl

theorem elements_of_not_iterable (h : v.isIterable = false) : v.elements = [] := by
  cases v with
  | none | bool | int | float | function => rfl
  | str | markup | bytes | list | tuple | range | dict | iterator => cases h
  | object traits attributes items? =>
    cases items? with
    | none => rfl
    | some items => cases h

/-- What cannot be gone through does not break off. -/
theorem Faithful.ends (h : v.Faithful) : v.breaksOff = false := by
  by_cases hiterable : v.isIterable = true
  · exact (h hiterable).1
  · cases v with
    | iterator id items => exact absurd rfl hiterable
    | object traits attributes items? =>
      cases items? with
      | none => rfl
      | some items => exact absurd rfl hiterable
    | _ => rfl

theorem length_rangeFrom (start step : Int) (count : Nat) :
    (rangeFrom start step count).length = count := by
  induction count generalizing start with
  | zero => rfl
  | succ count ih => rw [rangeFrom, List.length_cons, ih]

/-- Every value is faithful but an object, which may report what it likes, and an iterator. -/
theorem faithful_of_not_object
    (hobject : ∀ traits attributes items?, v ≠ object traits attributes items?)
    (hiterator : ∀ id items, v ≠ iterator id items) : v.Faithful := by
  refine fun _ => ⟨?ends, fun n hn => ?counted⟩
  case ends =>
    cases v with
    | iterator id items => exact absurd rfl (hiterator id items)
    | object traits attributes items? => exact absurd rfl (hobject _ _ _)
    | _ => rfl
  case counted =>
    cases v with
    | none | bool | int | float | iterator | function => cases hn
    | str | markup | bytes | list | tuple | dict =>
      cases hn
      simp [elements, items?, String.length_toList]
    | range start stop step =>
      obtain ⟨-, rfl⟩ := rangeSize_eq_ok (Option.some.inj hn)
      exact (length_rangeFrom start step _).symm
    | object traits attributes items? => exact absurd rfl (hobject _ _ _)

end Value

namespace Render

/-! ## Elements -/

theorem eachOf_eq {α : Type} (hv : ∀ id items, v ≠ .iterator id items) (hends : v.breaksOff = false)
    (each : Value → Render α) : eachOf v each = eachItem each v.elements := by
  rw [eachOf_of_not_iterator hv, Value.elements_of_not_iterator hv, hends]
  cases v.items? with
  | none => rfl
  | some items =>
    simp only [ended, Bool.false_eq_true, if_false, pure_bind, bind_pure]
    rfl

/-- A test for elements says whether there is one, unless it cannot get the length. -/
theorem isNonempty_of_measured (hv : ∀ id items, v ≠ .iterator id items) (hlength : v.Faithful)
    (hmeasured : v.Measured) : isNonempty v = return !v.elements.isEmpty := by
  rw [isNonempty_of_not_iterator hv]
  split
  case isFalse h =>
    rw [Value.elements_of_not_iterable (Bool.eq_false_iff.2 h)]
    rfl
  case isTrue h =>
    obtain ⟨hends, hcount⟩ := hlength h
    split
    · rename_i size hsize
      cases size with
      | error fault => exact absurd hsize (hmeasured h fault)
      | ok n =>
        obtain rfl := hcount n hsize
        cases v.elements <;> rfl
    · -- Where there is no length, a first element is asked for.
      rw [Value.elements_of_not_iterator hv, hends]
      cases v.items? with
      | none => rfl
      | some items => cases items <;> rfl

/-- A test for elements stops where the length cannot be had. -/
theorem isNonempty_of_error (hv : ∀ id items, v ≠ .iterator id items)
    (hiterable : v.isIterable = true) {fault : RenderFault} (h : v.size? = some (.error fault)) :
    isNonempty v = throw fault := by
  rw [isNonempty_of_not_iterator hv, if_pos hiterable, h]
  rfl

theorem pure_inj {α : Type} {a b : α} : (pure a : Render α) = pure b ↔ a = b := by
  refine ⟨fun h => ?_, congrArg pure⟩
  cases congrArg (fun x => StateT.run x []) h
  rfl

/-! ## Calls -/

/-- Whether every loop over a value starts with a call for one of its elements. -/
def CallsEach (v : Value) : Prop :=
  ∃ first ∈ v.elements, ∀ each empty?, ∃ rest : Value → Render Value,
    loop v each empty? = each first >>= rest

/-- Whether every loop over a value comes to what it has for the case that there is no element. -/
def CallsEmpty (v : Value) : Prop := ∀ each empty, loop v each (some empty) = empty

theorem callsEach_of_elements (hv : ∀ id items, v ≠ .iterator id items)
    (hends : v.breaksOff = false) (h : v.elements ≠ []) : CallsEach v := by
  obtain ⟨first, others, helements⟩ := List.exists_cons_of_ne_nil h
  refine ⟨first, helements ▸ List.mem_cons_self, fun each empty? => ?_⟩
  refine ⟨fun result => do joined "" (result :: (← eachItem each others)), ?_⟩
  unfold loop
  rw [eachOf_eq hv hends, helements, eachItem]
  simp only [bind_assoc, pure_bind]

theorem callsEmpty_of_no_elements (hv : ∀ id items, v ≠ .iterator id items)
    (hends : v.breaksOff = false) (h : v.elements = []) : CallsEmpty v := by
  intro each empty
  unfold loop
  rw [eachOf_eq hv hends, h]
  exact pure_bind _ _

/-- No value has loops of both kinds. -/
theorem not_callsEach_and_callsEmpty : ¬ (CallsEach v ∧ CallsEmpty v) := by
  rintro ⟨⟨first, -, heach⟩, hempty⟩
  -- With two faults of its own, a loop would have to stop with both.
  obtain ⟨rest, hrest⟩ := heach (fun _ => throw .conversion) (some (throw .rangeTooLong))
  cases congrArg (fun x => StateT.run x []) ((hempty _ _).symm.trans hrest)

/-- A loop calls for an element exactly if there is one, and for none exactly if there is none. -/
theorem calls_iff (hv : ∀ id items, v ≠ .iterator id items) (hends : v.breaksOff = false) :
    (CallsEach v ↔ v.elements ≠ []) ∧ (CallsEmpty v ↔ v.elements = []) := by
  by_cases h : v.elements = []
  · have hempty := callsEmpty_of_no_elements hv hends h
    exact ⟨iff_of_false (fun heach => not_callsEach_and_callsEmpty ⟨heach, hempty⟩) (not_not.2 h),
      iff_of_true hempty h⟩
  · have heach := callsEach_of_elements hv hends h
    exact ⟨iff_of_true heach h,
      iff_of_false (fun hempty => not_callsEach_and_callsEmpty ⟨heach, hempty⟩) h⟩

/-- A test for elements says which of the two a loop does, unless it cannot get the length. -/
theorem isNonempty_iff (hv : ∀ id items, v ≠ .iterator id items) (hlength : v.Faithful)
    (hmeasured : v.Measured) :
    (isNonempty v = pure true ↔ CallsEach v) ∧ (isNonempty v = pure false ↔ CallsEmpty v) := by
  obtain ⟨heach, hempty⟩ := calls_iff hv hlength.ends
  rw [isNonempty_of_measured hv hlength hmeasured, pure_inj, pure_inj, heach, hempty]
  cases v.elements <;> simp

end Render
end HtmlTemplate
