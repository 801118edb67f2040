import HtmlTemplate.Proofs.Shape.Growth

/-!
# Label — a shape as what it says at each address

The label of a node is what stands at the node itself: its mark, its counter and the steps that lead
on from it.  A change that leaves what the steps lead to changes the label of one node, if that node
is known (`Shape.label_update`).  So a mark and a new child are each told by one label.
-/

namespace HtmlTemplate

namespace Shape

/-- The steps that lead on from a node, in the order in which they were first walked. -/
def steps (s : Shape) : List Step := s.children.map (·.1)

/-- What stands at a node itself. -/
structure Label where
  required : Bool
  bound : Nat
  steps : List Step

def label (s : Shape) : Label := ⟨s.required, s.bound, s.steps⟩

section Steps

variable (s : Shape) (f : Shape → Shape) (step : Step)

theorem mem_steps : step ∈ s.steps ↔ (s.child? step).isSome = true := by
  obtain ⟨r, b, c⟩ := s
  show step ∈ c.map (·.1) ↔ (c.lookup step).isSome = true
  induction c with
  | nil => simp
  | cons entry rest ih =>
    obtain ⟨key, child⟩ := entry
    by_cases h : step = key
    · simp [h]
    · rw [lookup_cons_ne h, ← ih]
      simp [h]

theorem fieldNames_eq_steps : s.fieldNames = s.steps.filterMap Step.name? := by
  rw [fieldNames_eq, steps, List.filterMap_map]
  rfl

/-- A step that is not there yet comes last. -/
theorem steps_updateChild :
    (s.updateChild step f).steps = if step ∈ s.steps then s.steps else s.steps ++ [step] := by
  obtain ⟨r, b, c⟩ := s
  show (updateChildren step f c).map (·.1) =
    if step ∈ c.map (·.1) then c.map (·.1) else c.map (·.1) ++ [step]
  induction c with
  | nil => simp [updateChildren]
  | cons entry rest ih =>
    obtain ⟨key, child⟩ := entry
    by_cases h : key = step
    · simp [updateChildren, h]
    · rw [updateChildren, if_neg h, List.map_cons, ih, List.map_cons]
      simp only [List.mem_cons, Ne.symm h, false_or]
      split <;> rfl

end Steps

/-! ## Changes -/

section Changes

variable {s : Shape} {f : Shape → Shape} {a : Address}

/-- Two changes along an address are one. -/
theorem update_update (g : Shape → Shape) :
    update g a (update f a s) = update (g ∘ f) a s := by
  induction a generalizing s with
  | nil => rfl
  | cons step a ih =>
    obtain ⟨r, b, c⟩ := s
    simp only [update, updateChild, updateChildren_updateChildren]
    exact congrArg (fun h => node r b (updateChildren step h c)) (funext fun _ => ih)

/-- What an address leads through is known if its end is. -/
theorem isSome_at?_of_append {b : Address} (h : (s.at? (a ++ b)).isSome = true) :
    (s.at? a).isSome = true := by
  rw [at?_append] at h
  cases ha : s.at? a with
  | none => simp [ha] at h
  | some node => rfl

/-- A change makes the nodes on its way, and leaves which others are known. -/
theorem isSome_at?_update_iff (hf : ∀ t, (f t).children = t.children) (b : Address) :
    ((update f a s).at? b).isSome = true ↔ (s.at? b).isSome = true ∨ b <+: a := by
  induction a generalizing s b with
  | nil =>
    cases b with
    | nil => simp [at?]
    | cons step b => simp [update, at?, child?, hf]
  | cons step a ih =>
    cases b with
    | nil => simp [at?]
    | cons other b =>
      rw [List.cons_prefix_cons]
      by_cases h : other = step
      · subst h
        have hchild : (((s.child? other).getD fresh).at? b).isSome = true ∨ b <+: a ↔
            (s.at? (other :: b)).isSome = true ∨ b <+: a := by
          cases hc : s.child? other with
          | some child => simp [at?, hc]
          -- A child that is made has no children, so that only its own address is known.
          | none =>
            have hat : s.at? (other :: b) = none := by simp [at?, hc]
            rw [hat]
            cases b <;> simp [at?, child?, fresh, children]
        simpa [update, at?, child?_updateChild, ih] using hchild
      · simp [update, at?, child?_updateChild, h]

/-- A change that leaves what the steps from a node lead to. -/
def IsLocal (f : Shape → Shape) : Prop :=
  ∀ t step c, (f t).nodeAt (step :: c) = t.nodeAt (step :: c)

theorem isLocal_of_children (hf : ∀ t, (f t).children = t.children) : IsLocal f := by
  intro t step c
  rw [nodeAt_cons, nodeAt_cons, child?, hf, child?]

/-- A walk to a child leaves what is known of it. -/
theorem isLocal_updateChild (step : Step) : IsLocal (updateChild step id) := by
  intro t other c
  by_cases h : other = step
  · subst h
    rw [nodeAt_updateChild_self, id, ← nodeAt_append, List.singleton_append]
  · exact nodeAt_updateChild_ne t id h c

theorem steps_updateChild_of_isSome {step : Step} (h : (s.child? step).isSome = true) :
    (s.updateChild step f).steps = s.steps := by
  rw [steps_updateChild, if_pos ((s.mem_steps step).2 h)]

/-- A local change at a known address changes the label there, and no other. -/
theorem label_update (hf : IsLocal f) (ha : (s.at? a).isSome = true) (b : Address) :
    ((update f a s).nodeAt b).label =
      if b = a then (f (s.nodeAt a)).label else (s.nodeAt b).label := by
  induction a generalizing s b with
  | nil =>
    cases b with
    | nil => simp [update]
    | cons step b => simp [update, hf s step b]
  | cons step a ih =>
    cases hc : s.child? step with
    | none => simp [at?, hc] at ha
    | some child =>
      have hat : (child.at? a).isSome = true := by simpa [at?, hc] using ha
      have hnode : s.nodeAt [step] = child := by simp [nodeAt_cons, hc]
      cases b with
      | nil =>
        have hsteps : (s.updateChild step (update f a)).steps = s.steps :=
          steps_updateChild_of_isSome (by simp [hc])
        simp [update, label, hsteps]
      | cons other b =>
        by_cases h : other = step
        · subst h
          rw [update, nodeAt_updateChild_self, hnode, ih hat, nodeAt_cons, nodeAt_cons, hc]
          simp
        · rw [update, nodeAt_updateChild_ne s _ h]
          simp [h]

/-- What a step from a known node leads to. -/
theorem child?_nodeAt (ha : (s.at? a).isSome = true) (step : Step) :
    (s.nodeAt a).child? step = s.at? (a ++ [step]) := by
  obtain ⟨node, hnode⟩ := Option.isSome_iff_exists.1 ha
  rw [at?_append, nodeAt_of_at? s hnode, hnode, Option.bind_some]
  cases hc : node.child? step <;> simp [at?, hc]

/-- No step leads from a known node to what is not known. -/
theorem not_mem_steps {step : Step} (ha : (s.at? a).isSome = true)
    (hstep : s.at? (a ++ [step]) = none) : step ∉ (s.nodeAt a).label.steps := by
  show step ∉ (s.nodeAt a).steps
  rw [mem_steps, child?_nodeAt ha, hstep]
  simp

/-- A new child of a known node shows in the steps of this node. -/
theorem label_child {step : Step} (ha : (s.at? a).isSome = true)
    (hstep : s.at? (a ++ [step]) = none) (b : Address) :
    ((update id (a ++ [step]) s).nodeAt b).label =
      if b = a then { (s.nodeAt a).label with steps := (s.nodeAt a).label.steps ++ [step] }
      else (s.nodeAt b).label := by
  have hnot : step ∉ (s.nodeAt a).steps := not_mem_steps ha hstep
  have hchild : update id [step] = updateChild step id := rfl
  rw [update_append, hchild, label_update (isLocal_updateChild step) ha]
  simp only [label, required_updateChild, bound_updateChild, steps_updateChild, if_neg hnot]

end Changes

/-! ## Text -/

section Text

variable {indent : String} {c : List (Step × Shape)}

theorem fieldLines_eq {look : String → Shape}
    (h : ∀ name child, (Step.field name, child) ∈ c → look name = child) :
    fieldLines indent c = (c.filterMap (·.1.name?)).map fun name =>
      fieldLine indent name (look name).required (describe indent (look name)) := by
  induction c with
  | nil => rfl
  | cons entry rest ih =>
    obtain ⟨key, child⟩ := entry
    have hrest := ih fun name other hm => h name other (List.mem_cons_of_mem _ hm)
    cases key with
    | element => simpa [fieldLines, List.filterMap_cons] using hrest
    | field name => simp [fieldLines, hrest, h name child List.mem_cons_self]

theorem elementLines_eq (h : (c.map (·.1)).Nodup) :
    elementLines indent c =
      ((c.lookup .element).map fun child => elementLine indent (describe indent child)).toList := by
  induction c with
  | nil => rfl
  | cons entry rest ih =>
    obtain ⟨key, child⟩ := entry
    obtain ⟨hkey, hrest⟩ := List.nodup_cons.1 h
    cases key with
    | field name => simp [elementLines, ih hrest, lookup_cons_ne]
    | element =>
      have hnone : rest.lookup .element = none :=
        List.lookup_eq_none_iff.2 fun entry he =>
          bne_iff_ne.2 fun e => hkey (List.mem_map.2 ⟨entry, he, e.symm⟩)
      simp [elementLines, elementLines_of_lookup indent hnone]

/-- The text of a node, from what is at its fields and at its elements. -/
theorem describe_eq (s : Shape) (h : s.steps.Nodup) (indent : String) :
    describe indent s = bracket indent
      ((s.fieldNames.map fun name => fieldLine (indent ++ margin) name
          (s.nodeAt [.field name]).required
          (describe (indent ++ margin) (s.nodeAt [.field name]))) ++
        ((s.child? .element).map fun child =>
          elementLine (indent ++ margin) (describe (indent ++ margin) child)).toList) := by
  obtain ⟨r, b, c⟩ := s
  replace h : (c.map (·.1)).Nodup := h
  have hlook : ∀ name child, (Step.field name, child) ∈ c →
      (node r b c).nodeAt [.field name] = child := by
    intro name child hm
    rw [nodeAt_cons, nodeAt_nil]
    show (c.lookup (.field name)).getD fresh = child
    rw [lookup_of_mem h hm, Option.getD_some]
  rw [describe, fieldLines_eq hlook, elementLines_eq h, fieldNames_eq]
  rfl

end Text
end Shape
end HtmlTemplate
