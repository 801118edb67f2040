import HtmlTemplate.Proofs.Shape.Node

/-!
# Shown — what the text of a shape shows of it

The text shows the fields of a node in their order, the marks of the fields, and the elements.  It
does not show the counters of live bindings, nor whether the root or the elements of a node are
marked.  `Shape.shown` takes away what does not show, and commutes with every change of a shape.
-/

namespace HtmlTemplate

namespace Shape

/-! ## What a text shows of a shape -/

mutual

/-- A node without counters, and with the marks that a text shows: those of fields. -/
def shown (keep : Bool) : Shape → Shape
  | node r _ c => node (r && keep) 0 (shownAll c)

def shownAll : List (Step × Shape) → List (Step × Shape)
  | [] => []
  | (step, s) :: rest => (step, shown step.name?.isSome s) :: shownAll rest

end

mutual

theorem describe_shown (indent : String) (keep : Bool) :
    ∀ s : Shape, describe indent (s.shown keep) = describe indent s
  | node r b c => by
    rw [shown, describe, describe, fieldLines_shown, elementLines_shown]

theorem fieldLines_shown (indent : String) :
    ∀ c : List (Step × Shape), fieldLines indent (shownAll c) = fieldLines indent c
  | [] => rfl
  | (.field name, node r b c) :: rest => by
    have hs := describe_shown indent true (node r b c)
    simp only [shown, Bool.and_true] at hs
    simp [shownAll, shown, fieldLines, required, hs, fieldLines_shown indent rest]
  | (.element, s) :: rest => by
    simp [shownAll, fieldLines, fieldLines_shown indent rest]

theorem elementLines_shown (indent : String) :
    ∀ c : List (Step × Shape), elementLines indent (shownAll c) = elementLines indent c
  | [] => rfl
  | (.field name, s) :: rest => by
    simp [shownAll, elementLines, elementLines_shown indent rest]
  | (.element, s) :: rest => by
    simp [shownAll, elementLines, describe_shown indent false s,
      elementLines_shown indent rest]

end

section Shown

variable (k : Bool) (s : Shape)

theorem shown_fresh : fresh.shown k = fresh := rfl

theorem require_false : s.require false = s := by
  cases s
  simp [require]

theorem shown_require (r : Bool) : (s.require r).shown k = (s.shown k).require (r && k) := by
  cases s
  simp [require, shown, Bool.and_or_distrib_right]

theorem lookup_shownAll (step : Step) (c : List (Step × Shape)) :
    (shownAll c).lookup step = (c.lookup step).map (shown step.name?.isSome) := by
  induction c with
  | nil => rfl
  | cons entry rest ih =>
    obtain ⟨key, child⟩ := entry
    by_cases hk : step = key
    · subst hk
      simp [shownAll]
    · rw [shownAll, lookup_cons_ne hk, lookup_cons_ne hk, ih]

theorem isIterated_shown : (s.shown k).isIterated = s.isIterated := by
  obtain ⟨r, b, c⟩ := s
  show ((shownAll c).lookup .element).isSome = (c.lookup .element).isSome
  rw [lookup_shownAll, Option.isSome_map]

theorem shownAll_updateChildren {step : Step} {f g : Shape → Shape}
    (h : ∀ t, (f t).shown step.name?.isSome = g (t.shown step.name?.isSome))
    (c : List (Step × Shape)) :
    shownAll (updateChildren step f c) = updateChildren step g (shownAll c) := by
  induction c with
  | nil =>
    have hf := h fresh
    rw [shown_fresh] at hf
    simp [updateChildren, shownAll, hf]
  | cons entry rest ih =>
    obtain ⟨key, child⟩ := entry
    by_cases hk : key = step
    · subst hk
      simp [updateChildren, shownAll, h]
    · simp [updateChildren, shownAll, hk, ih]

theorem shown_updateChild {step : Step} {f g : Shape → Shape}
    (h : ∀ t, (f t).shown step.name?.isSome = g (t.shown step.name?.isSome)) :
    (s.updateChild step f).shown k = (s.shown k).updateChild step g := by
  cases s
  simp [updateChild, shown, shownAll_updateChildren h]

theorem shownAll_updateChildren_of_lookup {step : Step} {f : Shape → Shape} {child : Shape}
    {c : List (Step × Shape)} (hc : c.lookup step = some child)
    (h : (f child).shown step.name?.isSome = child.shown step.name?.isSome) :
    shownAll (updateChildren step f c) = shownAll c := by
  induction c with
  | nil => simp at hc
  | cons entry rest ih =>
    obtain ⟨key, other⟩ := entry
    by_cases hk : key = step
    · subst hk
      simp only [List.lookup_cons_self, Option.some.injEq] at hc
      simp [updateChildren, shownAll, hc, h]
    · rw [lookup_cons_ne (Ne.symm hk)] at hc
      simp [updateChildren, shownAll, hk, ih hc]

/-- A change that shows nowhere at a known address. -/
theorem shown_update_of_isSome {f : Shape → Shape} (hf : ∀ k t, (f t).shown k = t.shown k)
    {a : Address} (ha : (s.at? a).isSome = true) : (update f a s).shown k = s.shown k := by
  induction a generalizing s k with
  | nil => exact hf k s
  | cons step a ih =>
    obtain ⟨r, b, c⟩ := s
    cases hc : c.lookup step with
    | none => simp [at?, child?, children, hc] at ha
    | some child =>
      -- The child is known, so the change makes no node that would show.
      have hat : (child.at? a).isSome = true := by
        simpa [at?, child?, children, hc] using ha
      have hl := shownAll_updateChildren_of_lookup (f := update f a) hc (ih _ child hat)
      simp [update, updateChild, shown, hl]

theorem shown_bind : s.bind.shown k = s.shown k := by
  cases s
  rfl

theorem shown_unbind : s.unbind.shown k = s.shown k := by
  cases s
  rfl

end Shown

/-! ## Lines -/

theorem lookup_of_nodup {c : List (Step × Shape)} (hc : (c.filterMap (·.1.name?)).Nodup)
    {name : String} {child : Shape} (hm : (Step.field name, child) ∈ c) :
    c.lookup (.field name) = some child := by
  induction c with
  | nil => simp at hm
  | cons entry rest ih =>
    obtain ⟨key, other⟩ := entry
    rcases List.mem_cons.1 hm with e | hr
    · cases e
      simp
    · cases key with
      | element =>
        rw [lookup_cons_ne (by simp)]
        exact ih hc hr
      -- The child is among the rest, so that the first name is another one.
      | field n =>
        obtain ⟨hn, hrest⟩ := List.nodup_cons.1 hc
        have hne : Step.field name ≠ .field n := by
          intro e
          refine hn (List.mem_filterMap.2 ⟨_, hr, ?_⟩)
          cases e
          rfl
        rw [lookup_cons_ne hne]
        exact ih hrest hr

/-- The fields of a node, each looked up by its name. -/
theorem filterMap_fields {c : List (Step × Shape)} {g : String → Option Shape}
    (h : ∀ name child, (Step.field name, child) ∈ c → g name = some child) :
    (c.filterMap (·.1.name?)).filterMap (fun name => (g name).map fun s => (Step.field name, s)) =
      c.filter (·.1.name?.isSome) := by
  induction c with
  | nil => rfl
  | cons entry rest ih =>
    obtain ⟨key, child⟩ := entry
    have hr := ih fun name other hm => h name other (List.mem_cons_of_mem _ hm)
    cases key with
    | element => simpa [List.filterMap_cons] using hr
    | field name => simpa [List.filter_cons, h name child List.mem_cons_self] using hr

theorem fieldLines_filter (indent : String) (c : List (Step × Shape)) :
    fieldLines indent (c.filter (·.1.name?.isSome)) = fieldLines indent c := by
  induction c with
  | nil => rfl
  | cons entry rest ih =>
    obtain ⟨key, child⟩ := entry
    cases key <;> simp [List.filter_cons, fieldLines, ih]

theorem elementLines_filter (indent : String) (c : List (Step × Shape)) :
    elementLines indent (c.filter (·.1.name?.isSome)) = [] := by
  induction c with
  | nil => rfl
  | cons entry rest ih =>
    obtain ⟨key, child⟩ := entry
    cases key <;> simp [List.filter_cons, elementLines, ih]

theorem elementLines_of_lookup (indent : String) {c : List (Step × Shape)}
    (h : c.lookup .element = none) : elementLines indent c = [] := by
  induction c with
  | nil => rfl
  | cons entry rest ih =>
    obtain ⟨key, child⟩ := entry
    cases key with
    | element => simp at h
    | field name =>
      rw [lookup_cons_ne (by simp)] at h
      simpa [elementLines] using ih h

end Shape

end HtmlTemplate
