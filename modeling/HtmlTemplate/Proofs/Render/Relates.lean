import HtmlTemplate.Render.Output
import Mathlib.Data.List.Forall2

/-!
# Relates — computations that cannot be told apart by their faults

`Render.Relates R x y` says that `x` and `y` stop with the same fault, or take the same items from
iterators and give results that are related by `R`.  It is `Render.Agrees` for results that need not
be equal.
-/

namespace Except

variable {ε α β γ δ : Type} {R : α → β → Prop} {S : γ → δ → Prop}

/-- Whether two computations come to related results, or to the same fault. -/
inductive Relates (R : α → β → Prop) : Except ε α → Except ε β → Prop
  | error (fault : ε) : Relates R (.error fault) (.error fault)
  | ok {a : α} {b : β} : R a b → Relates R (.ok a) (.ok b)

namespace Relates

theorem refl (x : Except ε α) : Relates Eq x x := by
  cases x with
  | error fault => exact error fault
  | ok a => exact ok rfl

theorem mono {R' : α → β → Prop} {x : Except ε α} {y : Except ε β} (hxy : Relates R x y)
    (h : ∀ a b, R a b → R' a b) : Relates R' x y := by
  cases hxy with
  | error fault => exact error fault
  | ok hab => exact ok (h _ _ hab)

theorem symm {R' : β → α → Prop} {x : Except ε α} {y : Except ε β} (hxy : Relates R x y)
    (h : ∀ a b, R a b → R' b a) : Relates R' y x := by
  cases hxy with
  | error fault => exact error fault
  | ok hab => exact ok (h _ _ hab)

theorem trans {T : α → γ → Prop} {Q : β → γ → Prop} {x : Except ε α} {y : Except ε β}
    {z : Except ε γ} (hxy : Relates R x y) (hyz : Relates Q y z)
    (h : ∀ a b c, R a b → Q b c → T a c) : Relates T x z := by
  cases hxy with
  | error fault =>
    cases hyz
    exact error fault
  | ok hab =>
    cases hyz with
    | ok hbc => exact ok (h _ _ _ hab hbc)

theorem bind {x : Except ε α} {y : Except ε β} {f : α → Except ε γ} {g : β → Except ε δ}
    (hxy : Relates R x y) (hfg : ∀ a b, R a b → Relates S (f a) (g b)) :
    Relates S (x >>= f) (y >>= g) := by
  cases hxy with
  | error fault => exact error fault
  | ok h => exact hfg _ _ h

end Relates
end Except

namespace HtmlTemplate
namespace Render

variable {α β γ δ : Type} {R : α → β → Prop} {S : γ → δ → Prop}

/-- Whether two computations give related results and take the same items from iterators, or stop
with the same fault. -/
def Relates (R : α → β → Prop) (x : Render α) (y : Render β) : Prop :=
  ∀ p, Except.Relates (fun r s => R r.1 s.1 ∧ r.2 = s.2) (x.run p) (y.run p)

namespace Relates

theorem pure {a : α} {b : β} (h : R a b) : Relates R (pure a) (pure b) :=
  fun _ => .ok ⟨h, rfl⟩

theorem throw (fault : RenderFault) : Relates R (throw fault) (throw fault) :=
  fun _ => .error fault

theorem refl (x : Render α) : Relates Eq x x := by
  intro p
  cases x.run p with
  | error fault => exact .error fault
  | ok result => exact .ok ⟨rfl, rfl⟩

/-- Related by equality, they are one computation. -/
theorem eq {x y : Render α} (hxy : Relates Eq x y) : x = y := by
  funext p
  change x.run p = y.run p
  generalize x.run p = r, y.run p = s, hxy p = hp
  cases hp with
  | error fault => rfl
  | ok h => exact congrArg Except.ok (Prod.ext h.1 h.2)

theorem mono {R' : α → β → Prop} {x : Render α} {y : Render β} (hxy : Relates R x y)
    (h : ∀ a b, R a b → R' a b) : Relates R' x y :=
  fun p => (hxy p).mono fun _ _ hab => ⟨h _ _ hab.1, hab.2⟩

theorem symm {R' : β → α → Prop} {x : Render α} {y : Render β} (hxy : Relates R x y)
    (h : ∀ a b, R a b → R' b a) : Relates R' y x :=
  fun p => (hxy p).symm fun _ _ hab => ⟨h _ _ hab.1, hab.2.symm⟩

theorem trans {T : α → γ → Prop} {Q : β → γ → Prop} {x : Render α} {y : Render β} {z : Render γ}
    (hxy : Relates R x y) (hyz : Relates Q y z) (h : ∀ a b c, R a b → Q b c → T a c) :
    Relates T x z := by
  intro p
  refine (hxy p).trans (hyz p) ?_
  rintro a b c ⟨hab, hp⟩ ⟨hbc, hq⟩
  exact ⟨h _ _ _ hab hbc, hp.trans hq⟩

theorem bind {x : Render α} {y : Render β} {f : α → Render γ} {g : β → Render δ}
    (hxy : Relates R x y) (hfg : ∀ a b, R a b → Relates S (f a) (g b)) :
    Relates S (x >>= f) (y >>= g) := by
  intro p
  rw [StateT.run_bind, StateT.run_bind]
  refine (hxy p).bind ?_
  rintro ⟨a, q⟩ ⟨b, q'⟩ ⟨hab, rfl⟩
  exact hfg a b hab q

/-- The same computation may go on in ways that are related. -/
theorem bind_same (x : Render α) {f : α → Render γ} {g : α → Render δ}
    (hfg : ∀ a, Relates S (f a) (g a)) : Relates S (x >>= f) (x >>= g) := by
  refine (refl x).bind ?_
  rintro a _ rfl
  exact hfg a

/-- Results that some functions make equal. -/
theorem map_eq_map_iff {f : α → γ} {g : β → γ} {x : Render α} {y : Render β} :
    Relates (fun a b => f a = g b) x y ↔ f <$> x = g <$> y := by
  constructor
  · intro h
    have hmap : Relates Eq (x >>= fun a => Pure.pure (f a)) (y >>= fun b => Pure.pure (g b)) :=
      h.bind fun a b hab => pure hab
    simpa using hmap.eq
  · intro h p
    have hp : (f <$> x).run p = (g <$> y).run p := congrArg (·.run p) h
    rw [StateT.run_map, StateT.run_map] at hp
    -- Both end in the same fault, or in results that the functions make equal.
    generalize x.run p = r, y.run p = s at hp ⊢
    cases r with
    | error fault =>
      cases s with
      | error fault' =>
        cases hp
        exact .error fault
      | ok b => cases hp
    | ok a =>
      cases s with
      | error fault => cases hp
      | ok b =>
        obtain ⟨hfirst, hsecond⟩ := Prod.mk.inj (Except.ok.inj hp)
        exact .ok ⟨hfirst, hsecond⟩

theorem ofExcept {x : Except RenderFault α} {y : Except RenderFault β} (h : Except.Relates R x y) :
    Relates R (Render.ofExcept x) (Render.ofExcept y) := by
  intro p
  cases h with
  | error fault => exact .error fault
  | ok h => exact .ok ⟨h, rfl⟩

/-! ## Going through values -/

variable {Q : Value → Value → Prop} {f : Value → Render α} {g : Value → Render β}

theorem eachItem (h : ∀ v w, Q v w → Relates R (f v) (g w)) {vs ws : List Value}
    (hvs : List.Forall₂ Q vs ws) :
    Relates (List.Forall₂ R) (Render.eachItem f vs) (Render.eachItem g ws) := by
  induction hvs with
  | nil => exact pure .nil
  | cons hv _ ih =>
    refine (h _ _ hv).bind fun a b hab => ?_
    exact ih.bind fun as bs has => pure (.cons hab has)

theorem eachLeft (h : ∀ v w, Q v w → Relates R (f v) (g w)) (id : IteratorId) {vs ws : List Value}
    (hvs : List.Forall₂ Q vs ws) (count : Nat) :
    Relates (List.Forall₂ R) (Render.eachLeft f id vs count) (Render.eachLeft g id ws count) := by
  induction count with
  | zero => exact pure .nil
  | succ count ih =>
    -- The position is a part of the state, which is the same on both sides.
    refine bind_same _ fun n => ?_
    rcases List.forall₂_iff_get.1 hvs with ⟨hlength, hget⟩
    by_cases hn : n < vs.length
    · have hn' : n < ws.length := hlength ▸ hn
      rw [List.getElem?_eq_getElem hn, List.getElem?_eq_getElem hn']
      refine bind_same _ fun _ => ?_
      refine (h _ _ (hget n hn hn')).bind fun a b hab => ?_
      exact ih.bind fun as bs has => pure (.cons hab has)
    · have hn' : ¬ n < ws.length := hlength ▸ hn
      rw [List.getElem?_eq_none (Nat.le_of_not_lt hn), List.getElem?_eq_none (Nat.le_of_not_lt hn')]
      exact bind_same _ fun _ => pure .nil

/-- The same value is gone through in the same way. -/
theorem eachOf_same (v : Value) (h : ∀ a, Relates R (f a) (g a)) :
    Relates (List.Forall₂ R) (Render.eachOf v f) (Render.eachOf v g) := by
  have heq : ∀ a b, a = b → Relates R (f a) (g b) := by
    rintro a _ rfl
    exact h a
  unfold Render.eachOf
  split
  · exact eachLeft heq _ (List.forall₂_refl _) _
  · split
    · refine (eachItem heq (List.forall₂_refl _)).bind fun as bs has => ?_
      exact bind_same _ fun _ => pure has
    · exact pure .nil

end Relates
end Render
end HtmlTemplate
