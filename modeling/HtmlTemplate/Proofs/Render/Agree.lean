import HtmlTemplate.Render.Output

/-!
# Agree — computations with the same outcome

`Render.Agrees False x y` says that `x` and `y` do the same: they give the same result, take the
same items from iterators, or stop with the same fault.  `Render.Agrees True x y` lets `x` stop
with a fault whenever it wants to, so that only what it gives is as `y` says.
-/

namespace HtmlTemplate
namespace Render

variable {α β : Type} {excused : Prop}

/-- Whether `x` does what `y` does, or stops with a fault if that is excused. -/
def Agrees (excused : Prop) (x y : Render α) : Prop :=
  ∀ p, x.run p = y.run p ∨ excused ∧ ∃ fault, x.run p = .error fault

namespace Agrees

theorem refl (x : Render α) : Agrees excused x x := fun _ => Or.inl rfl

theorem of_eq {x y : Render α} (h : x = y) : Agrees excused x y := h ▸ refl x

theorem trans {x y z : Render α} (hxy : Agrees excused x y) (hyz : Agrees excused y z) :
    Agrees excused x z := by
  intro p
  rcases hxy p with h | h
  · rcases hyz p with h' | ⟨he, fault, h'⟩
    · exact Or.inl (h.trans h')
    · exact Or.inr ⟨he, fault, h.trans h'⟩
  · exact Or.inr h

theorem bind {x y : Render α} {f g : α → Render β} (hxy : Agrees excused x y)
    (hfg : ∀ a, Agrees excused (f a) (g a)) : Agrees excused (x >>= f) (y >>= g) := by
  intro p
  rw [StateT.run_bind, StateT.run_bind]
  rcases hxy p with h | ⟨he, fault, h⟩
  · rw [h]
    cases y.run p with
    | error fault => exact Or.inl rfl
    | ok result => exact hfg result.1 result.2
  · rw [h]
    -- The rest is not run after a fault.
    exact Or.inr ⟨he, fault, rfl⟩

theorem map {x y : Render α} (f : α → β) (h : Agrees excused x y) :
    Agrees excused (f <$> x) (f <$> y) := by
  rw [map_eq_pure_bind, map_eq_pure_bind]
  exact h.bind fun a => refl _

/-- Without an excuse, agreeing is equality. -/
theorem eq {x y : Render α} (h : Agrees False x y) : x = y := by
  funext p
  rcases h p with h | ⟨he, -⟩
  · exact h
  · exact he.elim

/-- What is given is given by both. -/
theorem run_ok {x y : Render α} (h : Agrees excused x y) {p : Progress} {r : α × Progress}
    (hx : x.run p = .ok r) : y.run p = .ok r := by
  rcases h p with h | ⟨-, fault, h⟩
  · exact h ▸ hx
  · rw [h] at hx
    cases hx

/-! ## Going through a value -/

variable {f g : Value → Render α}

theorem eachItem (h : ∀ v, Agrees excused (f v) (g v)) (vs : List Value) :
    Agrees excused (Render.eachItem f vs) (Render.eachItem g vs) := by
  induction vs with
  | nil => exact refl _
  | cons v vs ih => exact (h v).bind fun first => ih.bind fun rest => refl _

theorem eachLeft (h : ∀ v, Agrees excused (f v) (g v)) (id : IteratorId) (items : List Value)
    (count : Nat) :
    Agrees excused (Render.eachLeft f id items count) (Render.eachLeft g id items count) := by
  induction count with
  | zero => exact refl _
  | succ count ih =>
    refine (refl _).bind fun n => ?_
    cases items[n]? with
    | none => exact refl _
    | some v => exact (refl _).bind fun _ => (h v).bind fun first => ih.bind fun rest => refl _

theorem eachOf (v : Value) (h : ∀ v, Agrees excused (f v) (g v)) :
    Agrees excused (Render.eachOf v f) (Render.eachOf v g) := by
  unfold Render.eachOf
  split
  · exact eachLeft h _ _ _
  · split
    · exact (eachItem h _).bind fun results => refl _
    · exact refl _

end Agrees

/-! ## Results turned into others -/

theorem eachItem_map (f : α → β) (g : Value → Render α) (vs : List Value) :
    eachItem (fun v => f <$> g v) vs = List.map f <$> eachItem g vs := by
  induction vs with
  | nil => simp [eachItem]
  | cons v vs ih => simp [eachItem, ih]

theorem eachLeft_map (f : α → β) (g : Value → Render α) (id : IteratorId) (items : List Value)
    (count : Nat) :
    eachLeft (fun v => f <$> g v) id items count = List.map f <$> eachLeft g id items count := by
  induction count with
  | zero => simp [eachLeft]
  | succ count ih =>
    simp only [eachLeft, map_bind, ih]
    congr 1
    funext n
    cases items[n]? with
    | none => simp
    | some v => simp

theorem eachOf_map (f : α → β) (g : Value → Render α) (v : Value) :
    eachOf v (fun v => f <$> g v) = List.map f <$> eachOf v g := by
  unfold eachOf
  split
  · exact eachLeft_map f g _ _ _
  · split
    · simp [eachItem_map]
    · simp

end Render
end HtmlTemplate
