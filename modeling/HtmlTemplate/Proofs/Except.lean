/-!
# Except — what computations in a row come to

Two computations in a row give a result if both do (`Except.bind_eq_ok`), and stop with the fault of
the first one that has any (`Except.bind_eq_error`).  `Except.Within` tells of what kind the result
is, or else the fault.
-/

namespace Except

variable {ε α β : Type}

theorem exists_of_isOk {x : Except ε α} (h : x.isOk = true) : ∃ a, x = .ok a := by
  cases x with
  | error fault => cases h
  | ok a => exact ⟨a, rfl⟩

theorem bind_eq_ok {x : Except ε α} {f : α → Except ε β} {b : β} :
    (x >>= f) = .ok b ↔ ∃ a, x = .ok a ∧ f a = .ok b := by
  cases x with
  | error fault => simp [bind, Except.bind]
  | ok a => simp [bind, Except.bind]

theorem bind_eq_error {x : Except ε α} {f : α → Except ε β} {fault : ε} :
    (x >>= f) = .error fault ↔ x = .error fault ∨ ∃ a, x = .ok a ∧ f a = .error fault := by
  cases x with
  | error fault' => simp [bind, Except.bind]
  | ok a => simp [bind, Except.bind]

theorem map_eq_ok {x : Except ε α} {f : α → β} {b : β} :
    f <$> x = .ok b ↔ ∃ a, x = .ok a ∧ f a = b := by
  cases x with
  | error fault => simp [Functor.map, Except.map]
  | ok a => simp [Functor.map, Except.map]

theorem mapError_eq_ok {x : Except ε α} {f : ε → β} {a : α} :
    x.mapError f = .ok a ↔ x = .ok a := by
  cases x with
  | error fault =>
    constructor
    · intro h
      cases h
    · intro h
      cases h
  | ok a' =>
    constructor
    · intro h
      cases h
      rfl
    · intro h
      cases h
      rfl

/-- The result is of one kind, or else the fault is of another. -/
def Within (result : α → Prop) (fault : ε → Prop) : Except ε α → Prop
  | .ok a => result a
  | .error e => fault e

namespace Within

variable {result : α → Prop} {result' : β → Prop} {fault : ε → Prop} {x : Except ε α}

theorem bind {f : α → Except ε β} (hx : x.Within result fault)
    (hf : ∀ a, result a → (f a).Within result' fault) : (x >>= f).Within result' fault := by
  cases x with
  | error e => exact hx
  | ok a => exact hf a hx

theorem map {f : α → β} (hx : x.Within result fault) (hf : ∀ a, result a → result' (f a)) :
    (f <$> x).Within result' fault := by
  cases x with
  | error e => exact hx
  | ok a => exact hf a hx

theorem of_ok {a : α} (hx : x.Within result fault) (h : x = .ok a) : result a := by
  rw [h] at hx
  exact hx

theorem of_error {e : ε} (hx : x.Within result fault) (h : x = .error e) : fault e := by
  rw [h] at hx
  exact hx

end Within
end Except
