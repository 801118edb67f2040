import HtmlTemplate.Proofs.Except
import HtmlTemplate.Render.Output

/-!
# Ensures — what is known of the results of a computation

`Render.Ensures P x` says that whatever `x` gives has the property `P`.  It says nothing of when
`x` stops with a fault.
-/

namespace HtmlTemplate

/-- The values that one gives when it is gone through, an iterator from its start on. -/
def Value.elements : Value → List Value
  | .iterator _ items => items
  | v => v.items?.getD []

theorem Value.elements_of_items {v : Value} {items : List Value}
    (hiterator : ∀ id items, v ≠ .iterator id items) (hitems : v.items? = some items) :
    v.elements = items := by
  unfold elements
  split
  · exact absurd rfl (hiterator _ _)
  · rw [hitems, Option.getD_some]

namespace Render

variable {α β : Type} {P : α → Prop} {Q : β → Prop}

/-- Whether every result has a property. -/
def Ensures (P : α → Prop) (x : Render α) : Prop :=
  ∀ p a q, x.run p = .ok (a, q) → P a

namespace Ensures

theorem pure {a : α} (h : P a) : Ensures P (pure a) := by
  intro p b q hrun
  cases hrun
  exact h

/-- The rest of a computation may rely on what the start ensures. -/
theorem bind {x : Render α} {f : α → Render β} (hx : Ensures P x)
    (hf : ∀ a, P a → Ensures Q (f a)) : Ensures Q (x >>= f) := by
  intro p b q hrun
  rw [StateT.run_bind] at hrun
  obtain ⟨result, hstart, hrest⟩ := Except.bind_eq_ok.1 hrun
  exact hf result.1 (hx p result.1 result.2 hstart) result.2 b q hrest

/-- The rest of a computation only matters for what the start ensures. -/
theorem bind_congr {x : Render α} {f g : α → Render β} (hx : Ensures P x)
    (hfg : ∀ a, P a → f a = g a) : x >>= f = x >>= g := by
  funext p
  change (x >>= f).run p = (x >>= g).run p
  rw [StateT.run_bind, StateT.run_bind]
  cases hstart : x.run p with
  | error fault => rfl
  | ok result =>
    have hrest := hfg result.1 (hx p result.1 result.2 hstart)
    exact congrArg (fun y : Render β => y.run result.2) hrest

theorem mono {P' : α → Prop} {x : Render α} (hx : Ensures P x) (h : ∀ a, P a → P' a) :
    Ensures P' x := fun p a q hrun => h a (hx p a q hrun)

theorem any (x : Render α) : Ensures (fun _ => True) x := fun _ _ _ _ => trivial

theorem ofExcept (x : Except RenderFault α) :
    Ensures (fun a => x = .ok a) (Render.ofExcept x) := by
  intro p a q hrun
  cases x with
  | error fault => cases hrun
  | ok b =>
    cases hrun
    rfl

/-! ## Going through a value -/

variable {f : Value → Render α}

theorem eachItem {vs : List Value} (h : ∀ v ∈ vs, Ensures P (f v)) :
    Ensures (fun results => ∀ a ∈ results, P a) (Render.eachItem f vs) := by
  induction vs with
  | nil => exact pure (by simp)
  | cons v vs ih =>
    refine (h v List.mem_cons_self).bind fun first hfirst => ?_
    refine (ih fun w hw => h w (List.mem_cons_of_mem _ hw)).bind fun rest hrest => pure ?_
    exact List.forall_mem_cons.2 ⟨hfirst, hrest⟩

theorem eachLeft {items : List Value} (h : ∀ v ∈ items, Ensures P (f v)) (id : IteratorId)
    (count : Nat) :
    Ensures (fun results => ∀ a ∈ results, P a) (Render.eachLeft f id items count) := by
  induction count with
  | zero => exact pure (by simp)
  | succ count ih =>
    refine (any _).bind fun n _ => ?_
    cases hv : items[n]? with
    | none => exact (any _).bind fun _ _ => pure (by simp)
    | some v =>
      refine (any _).bind fun _ _ => ?_
      refine (h v (List.mem_of_getElem? hv)).bind fun first hfirst => ?_
      exact ih.bind fun rest hrest => pure (List.forall_mem_cons.2 ⟨hfirst, hrest⟩)

theorem eachOf {v : Value} (h : ∀ element ∈ v.elements, Ensures P (f element)) :
    Ensures (fun results => ∀ a ∈ results, P a) (Render.eachOf v f) := by
  unfold Render.eachOf
  split
  · exact eachLeft h _ _
  · rename_i hiterator
    split
    · rename_i items hitems
      refine (eachItem (Value.elements_of_items hiterator hitems ▸ h)).bind fun results hresults => ?_
      exact (any _).bind fun _ _ => pure hresults
    · exact pure (by simp)

end Ensures
end Render
end HtmlTemplate
