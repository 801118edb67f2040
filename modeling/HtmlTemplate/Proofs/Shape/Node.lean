import HtmlTemplate.Proofs.Lookup
import HtmlTemplate.Shape

/-!
# Node — what a change along an address does to the nodes of a shape

`Shape.nodeAt` is the node at an address, or a fresh one if nothing is known of it.  A change along
an address is seen at the address and below it, and above it only in the fields of the nodes on the
way.  This module says so for the counters of live bindings, for the marks and for the fields.
-/

namespace HtmlTemplate

/-- The name of a step to a field. -/
def Step.name? : Step → Option String
  | .field name => some name
  | .element => none

@[simp] theorem Step.name?_field (name : String) : (Step.field name).name? = some name := rfl

@[simp] theorem Step.name?_element : Step.element.name? = none := rfl

namespace Shape

/-- The node at an address, fresh if there is none. -/
def nodeAt (s : Shape) (address : Address) : Shape := (s.at? address).getD fresh

/-! ## Children -/

@[simp] theorem bound_fresh : fresh.bound = 0 := rfl

@[simp] theorem fieldNames_fresh : fresh.fieldNames = [] := rfl

section Children

variable (s : Shape) (f : Shape → Shape) (step other : Step) (r : Bool)

@[simp] theorem bound_updateChild : (s.updateChild step f).bound = s.bound := by
  cases s
  rfl

@[simp] theorem required_updateChild : (s.updateChild step f).required = s.required := by
  cases s
  rfl

@[simp] theorem bound_require : (s.require r).bound = s.bound := by
  cases s
  rfl

@[simp] theorem required_require : (s.require r).required = (s.required || r) := by
  cases s
  rfl

@[simp] theorem child?_require : (s.require r).child? step = s.child? step := by
  cases s
  rfl

@[simp] theorem fieldNames_require : (s.require r).fieldNames = s.fieldNames := by
  cases s
  rfl

theorem lookup_updateChildren (children : List (Step × Shape)) :
    (updateChildren step f children).lookup other =
      if other = step then some (f ((children.lookup step).getD fresh))
      else children.lookup other := by
  induction children with
  | nil =>
    by_cases h : other = step
    · simp [updateChildren, h]
    · simp [updateChildren, h, lookup_cons_ne h]
  | cons entry rest ih =>
    obtain ⟨key, child⟩ := entry
    -- Only the first entry of the key is changed; the rest matters if this one has another key.
    by_cases hk : key = step
    · subst hk
      by_cases h : other = key
      · simp [updateChildren, h]
      · simp [updateChildren, h, lookup_cons_ne h]
    · have hk' : step ≠ key := fun e => hk e.symm
      by_cases h : other = key
      · subst h
        simp [updateChildren, hk]
      · simp [updateChildren, hk, ih, lookup_cons_ne hk', lookup_cons_ne h]

/-- Two changes of a child are one. -/
theorem updateChildren_updateChildren (g : Shape → Shape) (children : List (Step × Shape)) :
    updateChildren step f (updateChildren step g children) =
      updateChildren step (f ∘ g) children := by
  induction children with
  | nil => simp [updateChildren]
  | cons entry rest ih =>
    obtain ⟨key, child⟩ := entry
    by_cases hk : key = step
    · simp [updateChildren, hk]
    · simp [updateChildren, hk, ih]

/-- A change at a step touches no other child. -/
theorem child?_updateChild :
    (s.updateChild step f).child? other =
      if other = step then some (f ((s.child? step).getD fresh)) else s.child? other := by
  cases s
  exact lookup_updateChildren f step other _

theorem filterMap_updateChildren (children : List (Step × Shape)) :
    (updateChildren step f children).filterMap (·.1.name?) =
      children.filterMap (·.1.name?) ++
        if (children.lookup step).isSome then [] else step.name?.toList := by
  induction children with
  | nil =>
    cases step <;> rfl
  | cons entry rest ih =>
    obtain ⟨key, child⟩ := entry
    by_cases hk : key = step
    · subst hk
      cases hn : key.name? <;> simp [updateChildren, hn]
    · have hk' : step ≠ key := fun e => hk e.symm
      rw [lookup_cons_ne hk']
      cases hn : key.name? <;> simp [updateChildren, hk, hn, ih]

theorem fieldNames_eq : s.fieldNames = s.children.filterMap (·.1.name?) := by
  unfold fieldNames
  congr 1
  funext entry
  obtain ⟨key, child⟩ := entry
  cases key <;> rfl

/-- A field that is not there yet comes last. -/
theorem fieldNames_updateChild :
    (s.updateChild step f).fieldNames =
      s.fieldNames ++ if (s.child? step).isSome then [] else step.name?.toList := by
  rw [fieldNames_eq, fieldNames_eq]
  cases s
  exact filterMap_updateChildren f step _

/-- The fields are the names of the children. -/
theorem mem_fieldNames (name : String) :
    name ∈ s.fieldNames ↔ (s.child? (.field name)).isSome = true := by
  rw [fieldNames_eq]
  obtain ⟨r, b, children⟩ := s
  show name ∈ children.filterMap _ ↔ (children.lookup (.field name)).isSome = true
  induction children with
  | nil => simp
  | cons entry rest ih =>
    obtain ⟨key, child⟩ := entry
    cases key with
    | field key =>
      by_cases h : name = key
      · simp [h]
      · have hf : Step.field name ≠ .field key := by simpa using h
        rw [lookup_cons_ne hf, ← ih]
        simp [h]
    | element =>
      rw [lookup_cons_ne (by simp), ← ih]
      simp

end Children

/-! ## The node at an address -/

section Address

variable (s : Shape) (f : Shape → Shape)

@[simp] theorem nodeAt_nil : s.nodeAt [] = s := rfl

@[simp] theorem nodeAt_fresh (a : Address) : fresh.nodeAt a = fresh := by
  cases a <;> rfl

theorem nodeAt_cons (step : Step) (a : Address) :
    s.nodeAt (step :: a) = ((s.child? step).getD fresh).nodeAt a := by
  unfold nodeAt
  cases h : s.child? step with
  | none =>
    have hf : (fresh.at? a).getD fresh = fresh := nodeAt_fresh a
    simp [at?, h, hf]
  | some c => simp [at?, h]

theorem nodeAt_append (a b : Address) : s.nodeAt (a ++ b) = (s.nodeAt a).nodeAt b := by
  induction a generalizing s with
  | nil => rfl
  | cons step a ih => rw [List.cons_append, nodeAt_cons, nodeAt_cons, ih]

theorem nodeAt_of_at? {a : Address} {node : Shape} (h : s.at? a = some node) :
    s.nodeAt a = node := by
  simp [nodeAt, h]

theorem nodeAt_updateChild_self (step : Step) (a : Address) :
    (s.updateChild step f).nodeAt (step :: a) = (f (s.nodeAt [step])).nodeAt a := by
  rw [nodeAt_cons, child?_updateChild, if_pos rfl, nodeAt_cons]
  rfl

theorem nodeAt_updateChild_ne {step other : Step} (h : other ≠ step) (a : Address) :
    (s.updateChild step f).nodeAt (other :: a) = s.nodeAt (other :: a) := by
  rw [nodeAt_cons, child?_updateChild, if_neg h, nodeAt_cons]

/-- At an address and below it, a change along the address is a change of the node there. -/
theorem nodeAt_update_append (a b : Address) :
    (update f a s).nodeAt (a ++ b) = (f (s.nodeAt a)).nodeAt b := by
  induction a generalizing s with
  | nil => rfl
  | cons step a ih =>
    have hs : (s.nodeAt [step]).nodeAt a = s.nodeAt (step :: a) := (nodeAt_append s [step] a).symm
    rw [update, List.cons_append, nodeAt_updateChild_self, ih, hs]

/-- What the children of a node do not matter to, a change below the node or beside it leaves. -/
theorem observe_update {α : Type} {g : Shape → α}
    (hc : ∀ s step f, g (updateChild step f s) = g s) {a b : Address}
    (h : ¬ a <+: b) : g ((update f a s).nodeAt b) = g (s.nodeAt b) := by
  induction a generalizing s b with
  | nil => exact absurd (List.nil_prefix) h
  | cons step a ih =>
    cases b with
    | nil => exact hc s step _
    | cons other b =>
      -- Either the change goes on below the same child, or it has left the way to `b`.
      by_cases ho : other = step
      · subst ho
        have hb : ¬ a <+: b := fun hp => h ((List.prefix_cons_inj other).2 hp)
        have hs : (s.nodeAt [other]).nodeAt b = s.nodeAt (other :: b) :=
          (nodeAt_append s [other] b).symm
        rw [update, nodeAt_updateChild_self, ih _ hb, hs]
      · rw [update, nodeAt_updateChild_ne s _ ho]

/-- The counters of live bindings below a change that adds `k` of them at the address itself. -/
theorem bound_update {a : Address} {k : Nat → Nat}
    (hf : ∀ s b, ((f s).nodeAt b).bound = if b = [] then k s.bound else (s.nodeAt b).bound)
    (b : Address) :
    ((update f a s).nodeAt b).bound =
      if b = a then k (s.nodeAt a).bound else (s.nodeAt b).bound := by
  -- At the address and below it the change is one of the node there.  Elsewhere only children
  -- change, which the counter of a node does not depend on.
  by_cases hp : a <+: b
  · obtain ⟨c, rfl⟩ := hp
    rw [nodeAt_update_append, hf, ← nodeAt_append]
    by_cases hc : c = []
    · simp [hc]
    · simp [hc]
  · have hb : b ≠ a := fun e => hp (e ▸ List.prefix_rfl)
    rw [if_neg hb, observe_update s f (fun s step f => bound_updateChild s f step) hp]

theorem bound_update_of_eq {a : Address}
    (hf : ∀ s b, ((f s).nodeAt b).bound = (s.nodeAt b).bound) (b : Address) :
    ((update f a s).nodeAt b).bound = (s.nodeAt b).bound := by
  by_cases hp : a <+: b
  · obtain ⟨c, rfl⟩ := hp
    rw [nodeAt_update_append, hf, ← nodeAt_append]
  · exact observe_update s f (fun s step f => bound_updateChild s f step) hp

/-- A change along an address makes the node there. -/
theorem isSome_at?_update (a : Address) : ((update f a s).at? a).isSome = true := by
  induction a generalizing s with
  | nil => rfl
  | cons step a ih => simpa [update, at?, child?_updateChild] using ih _

end Address

/-! ## The changes of a scope -/

section Changes

variable (s : Shape)

theorem nodeAt_require_cons (r : Bool) (step : Step) (a : Address) :
    (s.require r).nodeAt (step :: a) = s.nodeAt (step :: a) := by
  rw [nodeAt_cons, nodeAt_cons, child?_require]

theorem bound_nodeAt_require (r : Bool) (b : Address) :
    ((s.require r).nodeAt b).bound = (s.nodeAt b).bound := by
  cases b with
  | nil => exact bound_require s r
  | cons step b => rw [nodeAt_require_cons]

theorem bound_nodeAt_requireAlong (r : Bool) (a b : Address) :
    ((requireAlong r a s).nodeAt b).bound = (s.nodeAt b).bound := by
  induction a generalizing s b with
  | nil => exact bound_nodeAt_require s r b
  | cons step a ih =>
    cases b with
    | nil => simp [requireAlong]
    | cons other b =>
      by_cases h : other = step
      · subst h
        rw [requireAlong, nodeAt_updateChild_self, ih, nodeAt_require_cons,
          ← nodeAt_append, List.singleton_append]
      · rw [requireAlong, nodeAt_updateChild_ne _ _ h, nodeAt_require_cons]

theorem nodeAt_bind_cons (step : Step) (a : Address) :
    s.bind.nodeAt (step :: a) = s.nodeAt (step :: a) := by
  cases s
  rfl

theorem nodeAt_unbind_cons (step : Step) (a : Address) :
    s.unbind.nodeAt (step :: a) = s.nodeAt (step :: a) := by
  cases s
  rfl

/-- One more live binding stands for the node at an address. -/
theorem bound_update_bind (a b : Address) :
    ((update bind a s).nodeAt b).bound =
      if b = a then (s.nodeAt a).bound + 1 else (s.nodeAt b).bound := by
  refine bound_update s bind (k := (· + 1)) (fun s b => ?_) b
  cases b with
  | nil =>
    cases s
    rfl
  | cons step b => simp [nodeAt_bind_cons]

/-- One live binding less stands for the node at an address. -/
theorem bound_update_unbind (a b : Address) :
    ((update unbind a s).nodeAt b).bound =
      if b = a then (s.nodeAt a).bound - 1 else (s.nodeAt b).bound := by
  refine bound_update s unbind (k := (· - 1)) (fun s b => ?_) b
  cases b with
  | nil =>
    cases s
    rfl
  | cons step b => simp [nodeAt_unbind_cons]

end Changes

end Shape
end HtmlTemplate
