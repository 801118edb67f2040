import HtmlTemplate.Proofs.Scope.Inference
import HtmlTemplate.Proofs.Shape.Growth

/-!
# Refusal — what a refused call leaves of a scope

A scope checks before it changes anything, and so a refused call leaves it as it was.  There is one
exception: a block over the elements of a path is refused for its depth after the path was recorded.
The frames, the loop bindings and the marks are still those from before, but the text of the shape
shows the elements, unless they were known (`Scope.refused_unchanged_iff`).
-/

namespace HtmlTemplate
namespace Scope

variable {s : Scope}

/-! ## Recorded elements -/

/-- The way from what the head of a path stands for to the elements of the path. -/
def wayToElements (path : String) : Address :=
  (Path.segments path).tail.map Step.field ++ [.element]

/-- Whether the elements of a path are known. -/
def Iterates (s : Scope) (path : String) : Prop :=
  ((s.node? ((Path.segments path).headD "")).bind (·.at? (wayToElements path))).isSome = true

instance (s : Scope) (path : String) : Decidable (s.Iterates path) :=
  inferInstanceAs (Decidable (_ = true))

/-- The elements of a path are recorded by walking to them. -/
theorem recordIterated_eq {path head : String} {rest : List String}
    (hp : Path.segments path = head :: rest) :
    (s.recordIterated path).2 =
      ⟨Shape.update id ((s.resolve head).1 ++ wayToElements path) s.shape,
        (s.resolve head).2, s.frames⟩ := by
  have hway : wayToElements path = rest.map Step.field ++ [.element] := by
    rw [wayToElements, hp, List.tail_cons]
  have hrecord : (s.record path false).2.shape =
      Shape.update id ((s.resolve head).1 ++ rest.map Step.field) s.shape := by
    rw [record_eq hp, Bool.false_and, Shape.require_false, Shape.update_append]
    exact congrArg (Shape.update · _ _) (funext fun t => Shape.requireAlong_false t _)
  have haddress : (s.record path false).1 = (s.resolve head).1 ++ rest.map Step.field := by
    rw [record_eq hp]
  have hslots : (s.record path false).2.slots = (s.resolve head).2 := by
    rw [record_eq hp]
  -- The walk to the elements goes the recorded way once more.
  have hshape : (s.recordIterated path).2.shape =
      Shape.update id ((s.resolve head).1 ++ wayToElements path) s.shape := by
    show Shape.update id ((s.record path false).1 ++ [.element]) (s.record path false).2.shape = _
    rw [haddress, hrecord, hway, ← List.append_assoc, Shape.update_update_append]
  show Scope.mk (s.recordIterated path).2.shape (s.record path false).2.slots s.frames = _
  rw [hshape, hslots]

/-- Elements that are known are not recorded again. -/
theorem recordIterated_of_iterates {path : String} (h : s.Iterates path) :
    (s.recordIterated path).2 = s := by
  obtain ⟨head, rest, hp⟩ := Path.exists_segments path
  rw [recordIterated_eq hp]
  unfold Iterates node? at h
  rw [hp, List.headD_cons] at h
  cases hs : s.slot? head with
  | none => simp [hs] at h
  | some a =>
    rw [hs, Option.bind_some, ← Shape.at?_append] at h
    rw [resolve_of_some hs, Shape.update_id_of_isSome s.shape h]

/-! ## The length of the text -/

/-- How much the text of a shape shows of what a slot holds. -/
def slotLength (shape : Shape) (slot : String × Address) : Nat :=
  match shape.at? slot.2 with
  | none => 0
  | some node => Shape.entryLength Shape.margin (.field slot.1, node)

/-- How much the text of a shape shows through slots. -/
def slotsLength (shape : Shape) (slots : Slots) : Nat := (slots.map (slotLength shape)).sum

section SlotLength

variable {shape : Shape} {name : String} {a : Address}

theorem slotLength_of_none (h : shape.at? a = none) : slotLength shape (name, a) = 0 := by
  simp only [slotLength, h]

theorem slotLength_of_some {node : Shape} (h : shape.at? a = some node) :
    slotLength shape (name, a) = Shape.entryLength Shape.margin (.field name, node) := by
  simp only [slotLength, h]

theorem slotsLength_concat (slots : Slots) (slot : String × Address) :
    slotsLength shape (slots ++ [slot]) = slotsLength shape slots + slotLength shape slot := by
  simp only [slotsLength, List.map_append, List.sum_append, List.map_singleton, List.sum_singleton]

theorem childrenLength_slots (shape : Shape) (slots : Slots) :
    Shape.childrenLength Shape.margin (slots.filterMap fun (name, address) =>
      (shape.at? address).map fun n => (Step.field name, n)) = slotsLength shape slots := by
  unfold Shape.childrenLength slotsLength
  induction slots with
  | nil => rfl
  | cons slot rest ih =>
    obtain ⟨name, a⟩ := slot
    cases h : shape.at? a with
    | none =>
      simp only [List.filterMap_cons, h, Option.map_none, List.map_cons, List.sum_cons,
        slotLength_of_none h, ih, Nat.zero_add]
    | some node =>
      simp only [List.filterMap_cons, h, Option.map_some, List.map_cons, List.sum_cons,
        slotLength_of_some h, ih]

theorem length_typeText (s : Scope) :
    s.typeText.length = Shape.bracketLength "" (slotsLength s.shape s.slots) := by
  rw [typeText, view, Shape.text, Shape.length_describe, String.empty_append,
    childrenLength_slots]

/-- A walk hides nothing of what a slot holds. -/
theorem slotLength_le (shape : Shape) (way : Address) (slot : String × Address) :
    slotLength shape slot ≤ slotLength (Shape.update id way shape) slot := by
  obtain ⟨name, a⟩ := slot
  cases h : shape.at? a with
  | none =>
    rw [slotLength_of_none h]
    exact Nat.zero_le _
  | some node =>
    obtain ⟨other, ho, hlonger⟩ := Shape.exists_noLonger_update way h
    rw [slotLength_of_some h, slotLength_of_some ho]
    exact hlonger.entryLength_le _ _

/-- A walk to a new node shows in the slot that it starts from. -/
theorem slotLength_lt {way : Address} (h : shape.at? (a ++ way) = none) :
    slotLength shape (name, a) < slotLength (Shape.update id (a ++ way) shape) (name, a) := by
  rw [slotLength_of_some (Shape.at?_update_append _ _ _ _)]
  cases hs : shape.at? a with
  | none =>
    rw [slotLength_of_none hs]
    exact Shape.entryLength_pos _ _
  | some node =>
    rw [Shape.at?_append, hs, Option.bind_some] at h
    rw [slotLength_of_some hs, Shape.nodeAt_of_at? _ hs]
    exact (Shape.grows_update h).entryLength_lt _ _

theorem slotsLength_le (shape : Shape) (a : Address) (slots : Slots) :
    slotsLength shape slots ≤ slotsLength (Shape.update id a shape) slots :=
  List.sum_le_sum fun slot _ => slotLength_le shape a slot

end SlotLength

theorem mem_slots_of_slot? {name : String} {a : Address} (h : s.slot? name = some a) :
    (name, a) ∈ s.slots :=
  mem_of_lookup h

/-- New elements show in the text. -/
theorem length_typeText_lt {path : String} (h : ¬ s.Iterates path) :
    s.typeText.length < (s.recordIterated path).2.typeText.length := by
  obtain ⟨head, rest, hp⟩ := Path.exists_segments path
  rw [recordIterated_eq hp, length_typeText, length_typeText]
  apply Shape.bracketLength_lt
  cases hs : s.slot? head with
  | none =>
    -- The head gets a slot of its own, and with it a line.
    rw [resolve_of_none hs, slotsLength_concat]
    refine Nat.lt_of_le_of_lt (slotsLength_le s.shape _ s.slots) (Nat.lt_add_of_pos_right ?_)
    rw [slotLength_of_some (Shape.at?_update_append s.shape id [.field head] _)]
    exact Shape.entryLength_pos _ _
  | some a =>
    have hnone : s.shape.at? (a ++ wayToElements path) = none := by
      simpa [Iterates, node?, hp, hs, Shape.at?_append] using h
    rw [resolve_of_some hs]
    exact List.sum_lt_sum _ _ (fun slot _ => slotLength_le s.shape _ slot)
      ⟨(head, a), mem_slots_of_slot? hs, slotLength_lt hnone⟩

/-! ## Refused calls -/

/-- Whether a call comes to record new elements: its binding is none to refuse at once. -/
def RecordsElements (s : Scope) : Operation → Prop
  | .nestIterable path binding => '.' ∉ binding.toList ∧ ¬ s.Iterates path
  | _ => False

instance decidableRecordsElements (s : Scope) :
    ∀ operation : Operation, Decidable (s.RecordsElements operation)
  | .nestIterable path binding =>
    inferInstanceAs (Decidable ('.' ∉ binding.toList ∧ ¬ s.Iterates path))
  | .record _ _ | .nestPlain | .enterElse | .pop | .finish => isFalse id

/-- A loop is refused for its binding at once, and for its depth after its path was recorded. -/
theorem nestIterable_refused {path binding : String} {fault : TemplateFault}
    (h : (s.nestIterable path binding).1 = .error fault) :
    ('.' ∈ binding.toList ∧ (s.nestIterable path binding).2 = s) ∨
    ('.' ∉ binding.toList ∧ fault = .structural .tooDeep ∧
      (s.nestIterable path binding).2 = (s.recordIterated path).2) := by
  by_cases hdot : '.' ∈ binding.toList
  · exact .inl ⟨hdot, by simp [Scope.nestIterable, hdot]⟩
  have hframes : (s.recordIterated path).2.frames = s.frames := rfl
  by_cases hd : maxDepth ≤ s.frames.length
  · refine .inr ⟨hdot, ?_⟩
    cases hb : binding.isEmpty <;>
      simp_all [nestIterable, push, bindName, depth, bind, Except.bind]
  · cases hb : binding.isEmpty <;>
      simp_all [nestIterable, push, bindName, depth, bind, Except.bind, pure, Except.pure]

theorem orStay_error {next : Except StructureFault Scope} {fault : TemplateFault}
    (h : (s.orStay next).1 = .error fault) : (s.orStay next).2 = s := by
  cases next with
  | ok t => cases h
  | error f => rfl

/-- A refused call records new elements, or leaves the scope as it was. -/
theorem perform_refused {operation : Operation} {fault : TemplateFault}
    (h : (s.perform operation).1 = .error fault) :
    (¬ s.RecordsElements operation ∧ (s.perform operation).2 = s) ∨
    ∃ path binding, operation = .nestIterable path binding ∧ s.RecordsElements operation ∧
      fault = .structural .tooDeep ∧ (s.perform operation).2 = (s.recordIterated path).2 := by
  cases operation with
  | record path required => cases h
  | nestIterable path binding =>
    have hn : (s.nestIterable path binding).1 = .error fault := by
      replace h : ((s.nestIterable path binding).1.map fun _ => ()) = .error fault := h
      cases hr : (s.nestIterable path binding).1 with
      | ok a =>
        rw [hr] at h
        cases h
      | error f =>
        rw [hr] at h
        exact congrArg Except.error (Except.error.inj h)
    rcases nestIterable_refused hn with ⟨hdot, hsame⟩ | ⟨hdot, hfault, hrecorded⟩
    · exact .inl ⟨fun hr => hr.1 hdot, hsame⟩
    · by_cases hiterates : s.Iterates path
      · exact .inl ⟨fun hr => hr.2 hiterates,
          hrecorded.trans (recordIterated_of_iterates hiterates)⟩
      · exact .inr ⟨path, binding, rfl, ⟨hdot, hiterates⟩, hfault, hrecorded⟩
  | nestPlain => exact .inl ⟨id, orStay_error h⟩
  | enterElse => exact .inl ⟨id, orStay_error h⟩
  | pop => exact .inl ⟨id, orStay_error h⟩
  | finish => exact .inl ⟨id, rfl⟩

theorem anyRequired_recordIterated (s : Scope) (path : String) :
    (s.recordIterated path).2.anyRequired = s.anyRequired := by
  obtain ⟨head, rest, hp⟩ := Path.exists_segments path
  rw [recordIterated_eq hp]
  exact Shape.required_update_id s.shape _

theorem isLocal_recordIterated (h : s.Consistent) (path name : String) :
    (s.recordIterated path).2.isLocal name = s.isLocal name := by
  rw [(h.recordIterated path).1.isLocal_eq, h.isLocal_eq]
  rfl

/-- A refused call leaves the depth, the loop bindings and the mark of the context as they were,
after any calls before it.  The text of the shape, and the scope as a whole, it leaves as they were
unless it comes to record new elements, which happens to a loop that is nested too deep: then those
elements have been recorded, and the text shows them. -/
theorem refused_unchanged_iff (operations : List Operation) {operation : Operation}
    {fault : TemplateFault}
    (h : ((empty.run operations).perform operation).1 = .error fault) :
    ((empty.run operations).perform operation).2.depth = (empty.run operations).depth ∧
    (∀ name, ((empty.run operations).perform operation).2.isLocal name =
      (empty.run operations).isLocal name) ∧
    ((empty.run operations).perform operation).2.anyRequired =
      (empty.run operations).anyRequired ∧
    (((empty.run operations).perform operation).2.typeText = (empty.run operations).typeText ↔
      ¬ (empty.run operations).RecordsElements operation) ∧
    (((empty.run operations).perform operation).2 = empty.run operations ↔
      ¬ (empty.run operations).RecordsElements operation) ∧
    ((empty.run operations).RecordsElements operation → fault = .structural .tooDeep ∧
      ∃ path binding, operation = .nestIterable path binding ∧
        ((empty.run operations).perform operation).2 =
          ((empty.run operations).recordIterated path).2) := by
  have hs := consistent_empty.run operations
  rcases perform_refused h with ⟨hnot, hsame⟩ | ⟨path, binding, rfl, hrecords, hfault, hrecorded⟩
  · rw [hsame]
    exact ⟨rfl, fun _ => rfl, rfl, iff_of_true rfl hnot, iff_of_true rfl hnot,
      fun hr => absurd hr hnot⟩
  · rw [hrecorded]
    have hlt := length_typeText_lt hrecords.2
    have htext : ((empty.run operations).recordIterated path).2.typeText ≠
        (empty.run operations).typeText :=
      fun e => Nat.ne_of_lt hlt (congrArg String.length e.symm)
    exact ⟨rfl, isLocal_recordIterated hs path, anyRequired_recordIterated _ path,
      iff_of_false htext (not_not_intro hrecords),
      iff_of_false (fun e => htext (congrArg typeText e)) (not_not_intro hrecords),
      fun _ => ⟨hfault, path, binding, rfl, rfl⟩⟩

/-- As many blocks as may be open, the outermost a loop. -/
def fullRun : List Operation :=
  .nestIterable "rows" "row" :: List.replicate (maxDepth - 1) .nestPlain

/-- In a full scope the cells of a row are new, and the rows are not. -/
theorem refused_unchanged_iff_full :
    (∃ fault, ((empty.run fullRun).perform (.nestIterable "row.cells" "row")).1 = .error fault) ∧
    (empty.run fullRun).RecordsElements (.nestIterable "row.cells" "row") ∧
    ((empty.run fullRun).perform (.nestIterable "row.cells" "row")).2.depth =
      (empty.run fullRun).depth ∧
    ((empty.run fullRun).perform (.nestIterable "row.cells" "row")).2.typeText ≠
      (empty.run fullRun).typeText ∧
    ((empty.run fullRun).perform (.nestIterable "rows" "row")).2 = empty.run fullRun :=
  have hnew : (empty.run fullRun).RecordsElements (.nestIterable "row.cells" "row") := by
    decide +kernel
  have hknown : ¬ (empty.run fullRun).RecordsElements (.nestIterable "rows" "row") := by
    decide +kernel
  have hrefused := @refused_unchanged_iff fullRun (.nestIterable "row.cells" "row")
    (.structural .tooDeep) (by decide +kernel)
  ⟨⟨.structural .tooDeep, by decide +kernel⟩, hnew, hrefused.1, fun e => hrefused.2.2.2.1.1 e hnew,
    (@refused_unchanged_iff fullRun (.nestIterable "rows" "row") (.structural .tooDeep)
      (by decide +kernel)).2.2.2.2.1.2 hknown⟩

/-- The text may show what a refused call has recorded. -/
theorem refused_shown :
    ¬ ∀ (operations : List Operation) (operation : Operation) (fault : TemplateFault),
      ((empty.run operations).perform operation).1 = .error fault →
        ((empty.run operations).perform operation).2.depth = (empty.run operations).depth ∧
        (∀ name, ((empty.run operations).perform operation).2.isLocal name =
          (empty.run operations).isLocal name) ∧
        ((empty.run operations).perform operation).2.anyRequired =
          (empty.run operations).anyRequired ∧
        ((empty.run operations).perform operation).2.typeText =
          (empty.run operations).typeText := by
  intro h
  have htext := (h (List.replicate maxDepth .nestPlain) (.nestIterable "items" "x")
    (.structural .tooDeep) (by decide +kernel)).2.2.2
  have hbefore : (empty.run (List.replicate maxDepth .nestPlain)).typeText = "Any" := by
    decide +kernel
  have hafter : ((empty.run (List.replicate maxDepth .nestPlain)).perform
      (.nestIterable "items" "x")).2.typeText =
        "\x7b\n    \"items\": NotRequired[\x7b\n" ++
          "        __iter__: Iterator[Any],\n    \x7d],\n\x7d" := by
    decide +kernel
  rw [hbefore, hafter] at htext
  exact absurd htext (by decide)

end Scope
end HtmlTemplate
