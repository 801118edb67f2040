import HtmlTemplate.Proofs.Scope.Layer
import HtmlTemplate.Proofs.Scope.Operation

/-!
# Alias — which node a live binding stands for

`Scope.Consistent` ties the three parts of a scope together: frames are layers over the slots, the
fields of the context lie under them in the order of the shape, and every node counts the frames
whose binding stands for it.  Each step of a scope keeps it, and so does any run, refused calls
included (`Scope.consistent_run`).  What a name stands for, and whether it is a loop binding, is
then a matter of the frames alone (`Scope.slot?_eq`, `Scope.isLocal_eq`).
-/

namespace HtmlTemplate

namespace Shape

/-- A node that some live binding stands for has been walked to. -/
theorem isSome_of_bound_pos {s : Shape} {a : Address} (h : 0 < (s.nodeAt a).bound) :
    (s.at? a).isSome = true := by
  unfold nodeAt at h
  cases ha : s.at? a with
  | none => simp [ha] at h
  | some node => rfl

theorem isSome_child?_of_at? {s : Shape} {step : Step} {rest : Address}
    (h : (s.at? (step :: rest)).isSome = true) : (s.child? step).isSome = true := by
  cases hc : s.child? step with
  | none => simp [at?, hc] at h
  | some node => rfl

theorem isSome_child?_update {s : Shape} (f : Shape → Shape) (step : Step) (rest : Address) :
    ((update f (step :: rest) s).child? step).isSome = true := by
  simp [update, child?_updateChild]

/-- A change along a known address brings no new field to the root. -/
theorem fieldNames_update_of_isSome {s : Shape} (f : Shape → Shape) {step : Step} {rest : Address}
    (h : (s.child? step).isSome = true) :
    (update f (step :: rest) s).fieldNames = s.fieldNames := by
  simp [update, fieldNames_updateChild, h]

end Shape

namespace Path

theorem split_ne_nil (cs : List Char) : split cs ≠ [] := by
  induction cs with
  | nil => simp [split]
  | cons c cs ih =>
    unfold split
    split
    · simp
    · split <;> simp

theorem segments_ne_nil (path : String) : segments path ≠ [] := by
  simp [segments, split_ne_nil]

/-- A path has a head. -/
theorem exists_segments (path : String) : ∃ head rest, segments path = head :: rest :=
  List.exists_cons_of_ne_nil (segments_ne_nil path)

end Path

namespace Scope

/-- What ties shape, slots and frames together. -/
structure Consistent (s : Scope) : Prop where
  /-- A node counts the frames whose binding stands for it. -/
  counted : ∀ a, (s.shape.nodeAt a).bound = Frame.countAt s.frames a
  /-- Bindings stand for elements. -/
  element : ∀ f ∈ s.frames, ∀ a, f.address? = some a → ∃ b, a = b ++ [Step.element]
  layered : Layered s.shape.fieldNames s.frames s.slots
  nodup : s.shape.fieldNames.Nodup

variable {s : Scope}

namespace Consistent

/-! ## What a name stands for -/

theorem slot?_eq (h : s.Consistent) (name : String) :
    s.slot? name = (Frame.addressOf name s.frames).or
      (if name ∈ s.shape.fieldNames then some [.field name] else none) :=
  h.layered.lookup_eq name

theorem bound_pos (h : s.Consistent) {f : Frame} {a : Address} (hf : f ∈ s.frames)
    (ha : f.address? = some a) : 0 < (s.shape.nodeAt a).bound := by
  rw [h.counted]
  exact List.countP_pos_iff.2 ⟨f, hf, by simp [ha]⟩

/-- No binding stands for a field of the context. -/
theorem bound_field (h : s.Consistent) (name : String) :
    (s.shape.nodeAt [.field name]).bound = 0 := by
  rw [h.counted]
  refine List.countP_eq_zero.2 ?_
  intro f hf ha
  obtain ⟨b, hb⟩ := h.element f hf _ (by simpa using ha)
  cases b with
  | nil => cases hb
  | cons step b => simp at hb

theorem isLocal_eq (h : s.Consistent) (name : String) :
    s.isLocal name = (Frame.addressOf name s.frames).isSome := by
  have hslot := h.slot?_eq name
  cases ha : Frame.addressOf name s.frames with
  | some a =>
    -- The node in the slot counts the frame of the binding.
    obtain ⟨f, hf, hfa⟩ := Frame.exists_of_addressOf ha
    have hpos := h.bound_pos hf hfa
    obtain ⟨node, hnode⟩ := Option.isSome_iff_exists.1 (Shape.isSome_of_bound_pos hpos)
    rw [ha] at hslot
    rw [Shape.nodeAt_of_at? _ hnode] at hpos
    simp [isLocal, node?, hslot, hnode, hpos]
  | none =>
    rw [ha] at hslot
    -- The slot holds a field of the context, if anything, and no frame counts there.
    by_cases hn : name ∈ s.shape.fieldNames
    · have hzero := h.bound_field name
      rw [if_pos hn] at hslot
      unfold Shape.nodeAt at hzero
      cases hnode : s.shape.at? [.field name] with
      | none => simp [isLocal, node?, hslot, hnode]
      | some node =>
        rw [hnode] at hzero
        simp only [Option.getD_some] at hzero
        simp [isLocal, node?, hslot, hnode, hzero]
    · rw [if_neg hn] at hslot
      simp [isLocal, node?, hslot]

/-- What a name stands for is there, and its first step leads to a field. -/
theorem slot?_some (h : s.Consistent) {name : String} {a : Address} (ha : s.slot? name = some a) :
    ∃ step rest, a = step :: rest ∧ (s.shape.child? step).isSome = true := by
  rw [h.slot?_eq] at ha
  cases hf : Frame.addressOf name s.frames with
  | none =>
    rw [hf] at ha
    by_cases hn : name ∈ s.shape.fieldNames
    · rw [if_pos hn] at ha
      cases ha
      exact ⟨.field name, [], rfl, (s.shape.mem_fieldNames name).1 hn⟩
    · rw [if_neg hn] at ha
      cases ha
  | some b =>
    rw [hf] at ha
    cases ha
    obtain ⟨f, hmem, hfa⟩ := Frame.exists_of_addressOf hf
    obtain ⟨c, rfl⟩ := h.element f hmem a hfa
    have hsome := Shape.isSome_of_bound_pos (h.bound_pos hmem hfa)
    cases c with
    | nil => exact ⟨.element, [], rfl, Shape.isSome_child?_of_at? hsome⟩
    | cons step c => exact ⟨step, c ++ [.element], rfl, Shape.isSome_child?_of_at? hsome⟩

theorem slot?_none (h : s.Consistent) {name : String} (hn : s.slot? name = none) :
    name ∉ s.shape.fieldNames := by
  intro hm
  rw [h.slot?_eq, if_pos hm] at hn
  cases ha : Frame.addressOf name s.frames <;> simp [ha] at hn

/-! ## Steps -/

/-- A change of the shape that keeps counters and fields keeps the scope consistent. -/
theorem withShape (h : s.Consistent) {shape : Shape}
    (hb : ∀ a, (shape.nodeAt a).bound = (s.shape.nodeAt a).bound)
    (hn : shape.fieldNames = s.shape.fieldNames) :
    ({ s with shape } : Scope).Consistent where
  counted a := (hb a).trans (h.counted a)
  element := h.element
  layered := hn ▸ h.layered
  nodup := hn ▸ h.nodup

theorem push (h : s.Consistent) (hasElse : Bool) :
    ({ s with frames := .plain hasElse :: s.frames } : Scope).Consistent where
  counted a := by simpa using h.counted a
  element f hf a ha := by
    rcases List.mem_cons.1 hf with rfl | hf
    · cases ha
    · exact h.element f hf a ha
  layered := h.layered
  nodup := h.nodup

/-- A new layer: the binding takes its slot, and the frame keeps what the slot held. -/
theorem bind (h : s.Consistent) (name : String) {a b : Address} {step : Step} {rest : Address}
    (hb : a = b ++ [.element]) (ha : a = step :: rest) (hc : (s.shape.child? step).isSome = true) :
    (⟨s.shape.update Shape.bind a, s.slots.set name a,
      .binding name a (s.slot? name) :: s.frames⟩ : Scope).Consistent := by
  have hn : (s.shape.update Shape.bind a).fieldNames = s.shape.fieldNames := by
    rw [ha, Shape.fieldNames_update_of_isSome _ hc]
  refine ⟨?_, ?_, ?_, ?_⟩
  · intro c
    show ((Shape.update Shape.bind a s.shape).nodeAt c).bound = _
    rw [Shape.bound_update_bind, h.counted, h.counted]
    by_cases hca : c = a
    · simp [hca]
    · have hac : ¬a = c := fun e => hca e.symm
      simp [hca, hac]
  · intro f hf c hfc
    rcases List.mem_cons.1 hf with rfl | hf
    · exact ⟨b, by rw [← hb]; exact (Option.some.inj hfc).symm⟩
    · exact h.element f hf c hfc
  · show Layered _ (_ :: _) _
    rw [hn]
    refine ⟨Slots.lookup_set_self a, ?_⟩
    -- What the frame keeps is what the slot held, so that taking the layer off leads back to `s`.
    rw [slot?, Slots.restore_set]
    exact h.layered
  · exact hn.symm ▸ h.nodup

/-- The innermost layer comes off. -/
theorem release {frame : Frame} {rest : List Frame} (h : s.Consistent)
    (hf : s.frames = frame :: rest) :
    (({ s with frames := rest } : Scope).release frame).Consistent := by
  obtain ⟨shape, slots, frames⟩ := s
  cases hf
  cases frame with
  | plain hasElse =>
    refine ⟨?_, ?_, h.layered, h.nodup⟩
    · intro a
      simpa [Scope.release] using h.counted a
    · exact fun f hf => h.element f (List.mem_cons_of_mem _ hf)
  | binding name a previous =>
    have hpos := h.bound_pos (f := .binding name a previous) List.mem_cons_self rfl
    -- The frame itself is counted at its address, so there is a node, and none is made.
    have hn : (Shape.update Shape.unbind a shape).fieldNames = shape.fieldNames := by
      obtain ⟨b, hb⟩ := h.element _ List.mem_cons_self a rfl
      have hsome := Shape.isSome_of_bound_pos hpos
      cases a with
      | nil => simp at hb
      | cons step a => exact Shape.fieldNames_update_of_isSome _ (Shape.isSome_child?_of_at? hsome)
    refine ⟨?_, ?_, ?_, ?_⟩
    · intro c
      have hcount := h.counted c
      show ((Shape.update Shape.unbind a shape).nodeAt c).bound = _
      rw [Shape.bound_update_unbind]
      by_cases hca : c = a
      · subst hca
        rw [if_pos rfl, hcount]
        simp [Scope.release]
      · have hac : ¬a = c := fun e => hca e.symm
        rw [if_neg hca, hcount]
        simp [hac, Scope.release]
    · exact fun f hf => h.element f (List.mem_cons_of_mem _ hf)
    · show Layered (Shape.update Shape.unbind a shape).fieldNames rest _
      rw [hn]
      have hl := h.layered.2
      cases previous <;> exact hl
    · show (Shape.update Shape.unbind a shape).fieldNames.Nodup
      exact hn ▸ h.nodup

end Consistent

/-! ## References -/

theorem record_eq {path head : String} {rest : List String}
    (hp : Path.segments path = head :: rest) (r : Bool) :
    s.record path r =
      ((s.resolve head).1 ++ rest.map Step.field,
        ⟨Shape.update (Shape.requireAlong r (rest.map Step.field)) (s.resolve head).1
          (s.shape.require (r && !s.isLocal head)), (s.resolve head).2, s.frames⟩) := by
  simp [record, hp]

@[simp] theorem frames_record (path : String) (r : Bool) :
    (s.record path r).2.frames = s.frames := rfl

theorem resolve_of_some {name : String} {a : Address} (h : s.slot? name = some a) :
    s.resolve name = (a, s.slots) := by
  simp [resolve, h]

theorem resolve_of_none {name : String} (h : s.slot? name = none) :
    s.resolve name = ([.field name], s.slots ++ [(name, [.field name])]) := by
  simp [resolve, h]

namespace Consistent

/-- A reference starts at a step from the root, which is there from then on. -/
theorem record_address (h : s.Consistent) (path : String) (r : Bool) :
    ∃ step rest, (s.record path r).1 = step :: rest ∧
      ((s.record path r).2.shape.child? step).isSome = true := by
  obtain ⟨head, rest, hp⟩ := Path.exists_segments path
  rw [record_eq hp]
  cases hs : s.slot? head with
  | none =>
    rw [resolve_of_none hs]
    exact ⟨_, _, rfl, Shape.isSome_child?_update _ _ _⟩
  | some a =>
    obtain ⟨step, a, rfl, -⟩ := h.slot?_some hs
    rw [resolve_of_some hs]
    exact ⟨_, _, rfl, Shape.isSome_child?_update _ _ _⟩

theorem record (h : s.Consistent) (path : String) (r : Bool) :
    (s.record path r).2.Consistent := by
  obtain ⟨head, rest, hp⟩ := Path.exists_segments path
  rw [record_eq hp]
  -- Marking a path changes no counter, wherever it starts.
  have hb : ∀ (a b : Address) (r' : Bool),
      ((Shape.update (Shape.requireAlong r (rest.map Step.field)) a
        (s.shape.require r')).nodeAt b).bound = (s.shape.nodeAt b).bound := by
    intro a b r'
    rw [Shape.bound_update_of_eq _ _ (fun t c => Shape.bound_nodeAt_requireAlong t r _ c),
      Shape.bound_nodeAt_require]
  cases hs : s.slot? head with
  | some a =>
    obtain ⟨step, a, rfl, hc⟩ := h.slot?_some hs
    rw [resolve_of_some hs]
    refine h.withShape (hb _ · _) ?_
    rw [Shape.fieldNames_update_of_isSome _ (by simpa using hc), Shape.fieldNames_require]
  | none =>
    -- The head is a field of the context that was not read before.
    have hnot := h.slot?_none hs
    have hnone : s.shape.child? (.field head) = none := by
      simpa using mt (s.shape.mem_fieldNames head).2 hnot
    have hn : (Shape.update (Shape.requireAlong r (rest.map Step.field)) [.field head]
        (s.shape.require (r && !s.isLocal head))).fieldNames = s.shape.fieldNames ++ [head] := by
      simp [Shape.update, Shape.fieldNames_updateChild, hnone]
    rw [resolve_of_none hs]
    refine ⟨?_, h.element, ?_, ?_⟩
    · exact fun a => (hb _ a _).trans (h.counted a)
    · show Layered (Shape.fieldNames _) _ _
      rw [hn]
      exact h.layered.append hs
    · show (Shape.fieldNames _).Nodup
      rw [hn]
      refine List.nodup_append.2 ⟨h.nodup, by simp, ?_⟩
      intro a ha b hb e
      exact hnot (by simpa [← List.mem_singleton.1 hb, ← e] using ha)

theorem recordIterated (h : s.Consistent) (path : String) :
    (s.recordIterated path).2.Consistent ∧
      ∃ step rest b, (s.recordIterated path).1 = step :: rest ∧
        (s.recordIterated path).1 = b ++ [.element] ∧
        ((s.recordIterated path).2.shape.child? step).isSome = true := by
  obtain ⟨step, rest, ha, hc⟩ := h.record_address path false
  refine ⟨(h.record path false).withShape (fun b => ?_) ?_, step, rest ++ [.element], _, ?_, rfl, ?_⟩
  · exact Shape.bound_update_of_eq _ _ (fun _ _ => rfl) b
  · show (Shape.update id ((s.record path false).1 ++ [.element])
      (s.record path false).2.shape).fieldNames = _
    rw [ha, List.cons_append, Shape.fieldNames_update_of_isSome _ hc]
  · show (s.record path false).1 ++ [.element] = _
    rw [ha, List.cons_append]
  · show ((Shape.update id ((s.record path false).1 ++ [.element])
      (s.record path false).2.shape).child? step).isSome = true
    rw [ha, List.cons_append]
    exact Shape.isSome_child?_update _ _ _

end Consistent

/-! ## Blocks -/

/-- What opening a block over the elements of a path comes to. -/
theorem nestIterable_cases (path binding : String) :
    (s.nestIterable path binding = (.error (.semantic (.dottedBinding binding)), s)) ∨
    (s.nestIterable path binding =
      (.error (.structural .tooDeep), (s.recordIterated path).2)) ∨
    (binding.isEmpty = true ∧ s.nestIterable path binding =
      (.ok (s.recordIterated path).1, { (s.recordIterated path).2 with
        frames := .plain false :: s.frames })) ∨
    (binding.isEmpty = false ∧ s.nestIterable path binding =
      (.ok (s.recordIterated path).1,
        ⟨(s.recordIterated path).2.shape.update Shape.bind (s.recordIterated path).1,
          (s.recordIterated path).2.slots.set binding (s.recordIterated path).1,
          .binding binding (s.recordIterated path).1 ((s.recordIterated path).2.slot? binding) ::
            s.frames⟩)) := by
  unfold nestIterable
  by_cases hdot : '.' ∈ binding.toList
  · simp [hdot]
  · have hframes : (s.recordIterated path).2.frames = s.frames := rfl
    by_cases hd : maxDepth ≤ s.frames.length
    · cases hb : binding.isEmpty <;>
        simp [hdot, push, bindName, depth, hframes, hd, bind, Except.bind]
    · cases hb : binding.isEmpty <;>
        simp [hdot, push, bindName, depth, hframes, hd, bind, Except.bind, pure, Except.pure]

namespace Consistent

theorem nestIterable (h : s.Consistent) (path binding : String) :
    (s.nestIterable path binding).2.Consistent := by
  obtain ⟨hs, step, rest, b, ha, hb, hc⟩ := h.recordIterated path
  -- A block that is nested too deep is refused after its path was recorded.
  rcases nestIterable_cases (s := s) path binding with e | e | ⟨-, e⟩ | ⟨-, e⟩ <;> rw [e]
  · exact h
  · exact hs
  · exact hs.push false
  · exact hs.bind binding hb ha hc

theorem nestPlain {t : Scope} (h : s.Consistent) (ht : s.nestPlain = .ok t) : t.Consistent :=
  push_ok ht ▸ h.push false

theorem enterElse {t : Scope} (h : s.Consistent) (ht : s.enterElse = .ok t) : t.Consistent := by
  -- The frame is released as at the end of its block, and one without a binding takes its place.
  obtain ⟨frame, rest, hf, -, rfl⟩ := enterElse_ok ht
  have hr := (h.release hf).push true
  cases frame <;> exact hr

theorem pop {t : Scope} (h : s.Consistent) (ht : s.pop = .ok t) : t.Consistent := by
  obtain ⟨frame, rest, hf, rfl⟩ := pop_ok ht
  exact h.release hf

theorem orStay (h : s.Consistent) {next : Except StructureFault Scope}
    (hn : ∀ t, next = .ok t → t.Consistent) : (s.orStay next).2.Consistent := by
  cases next with
  | ok t => exact hn t rfl
  | error fault => exact h

theorem perform (h : s.Consistent) (operation : Operation) :
    (s.perform operation).2.Consistent := by
  cases operation with
  | record path required => exact h.record path required
  | nestIterable path binding => exact h.nestIterable path binding
  | nestPlain => exact h.orStay fun _ => h.nestPlain
  | enterElse => exact h.orStay fun _ => h.enterElse
  | pop => exact h.orStay fun _ => h.pop
  | finish => exact h

theorem run (h : s.Consistent) (operations : List Operation) : (s.run operations).Consistent := by
  induction operations generalizing s with
  | nil => exact h
  | cons operation rest ih => exact ih (h.perform operation)

end Consistent

theorem consistent_empty : empty.Consistent where
  counted a := by simp [empty, Frame.countAt]
  element := by simp [empty]
  layered := rfl
  nodup := by simp [empty]

/-- What is seen of the shape through a slot. -/
theorem child?_view {name : String} {a : Address} {node : Shape} (hs : s.slot? name = some a)
    (hn : s.shape.at? a = some node) : s.view.child? (.field name) = some node := by
  obtain ⟨shape, slots, frames⟩ := s
  show (slots.filterMap _).lookup (Step.field name) = some node
  replace hs : slots.lookup name = some a := hs
  induction slots with
  | nil => simp at hs
  | cons entry rest ih =>
    obtain ⟨n, b⟩ := entry
    by_cases h : n = name
    · subst h
      simp only [List.lookup_cons_self, Option.some.injEq] at hs
      simp [hs, show shape.at? a = some node from hn]
    · rw [Slots.lookup_cons_of_ne h] at hs
      have hne : Step.field name ≠ .field n := by simpa using fun e : name = n => h e.symm
      cases hb : shape.at? b with
      | none => simpa [hb] using ih hn hs
      | some other => simpa [hb, lookup_cons_ne hne] using ih hn hs

/-- Wherever a sequence of calls leads, refused ones included: a name is a loop binding exactly
while a frame of that binding is open, it is then the element node of the innermost such frame, and
every node counts the frames whose binding stands for it. -/
theorem run_isLocal_iff (operations : List Operation) :
    (∀ name, (empty.run operations).isLocal name = true ↔
      ∃ f ∈ (empty.run operations).frames, f.name? = some name) ∧
    (∀ name a, Frame.addressOf name (empty.run operations).frames = some a →
      (empty.run operations).slot? name = some a ∧
      (∃ iterated, a = iterated ++ [.element]) ∧
      ∃ node, (empty.run operations).view.child? (.field name) = some node ∧
        (empty.run operations).shape.at? a = some node) ∧
    (∀ a node, (empty.run operations).shape.at? a = some node →
      node.bound = Frame.countAt (empty.run operations).frames a) := by
  have h := consistent_empty.run operations
  refine ⟨fun name => ?_, fun name a ha => ?_, fun a node hnode => ?_⟩
  · rw [h.isLocal_eq, Frame.addressOf_isSome]
  · have hslot : (empty.run operations).slot? name = some a := by
      rw [h.slot?_eq, ha]
      rfl
    obtain ⟨f, hf, hfa⟩ := Frame.exists_of_addressOf ha
    obtain ⟨node, hnode⟩ :=
      Option.isSome_iff_exists.1 (Shape.isSome_of_bound_pos (h.bound_pos hf hfa))
    exact ⟨hslot, h.element f hf a hfa, node, child?_view hslot hnode, hnode⟩
  · rw [← h.counted, Shape.nodeAt_of_at? _ hnode]

end Scope
end HtmlTemplate
