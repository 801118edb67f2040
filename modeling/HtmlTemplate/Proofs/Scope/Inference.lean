import HtmlTemplate.Proofs.Scope.Alias
import HtmlTemplate.Proofs.Scope.Reference
import HtmlTemplate.Proofs.Shape.Shown

/-!
# Inference — a scope infers the tree of the references that it was given

A scope follows a run when its shape, apart from what no text shows, is the tree of the references
read so far, and its frames are the blocks that are open (`Scope.Follows`).  Every accepted call
keeps it so, and once all blocks are closed nothing but that tree is left to be written out
(`Scope.typeText_run`).
-/

namespace HtmlTemplate

namespace Shape

/-! ## Changes as insertions -/

section Insertion

variable (k : Bool) (s : Shape)

/-- A required path marks what its reference marks. -/
theorem shown_requireAlong (r : Bool) (names : List String) :
    (requireAlong r (names.map Step.field) s).shown k =
      insertAlong (names.map (Step.field ·, r)) ((s.shown k).require (r && k)) := by
  induction names generalizing s k with
  | nil => exact shown_require k s r
  | cons name names ih =>
    rw [← shown_require]
    refine shown_updateChild k _ fun t => ?_
    simpa using ih true t

/-- What is marked below the elements that an address leads to. -/
theorem shown_update_element (a : Address) {f : Shape → Shape} {way : List (Step × Bool)}
    (h : ∀ t, (f t).shown false = insertAlong way (t.shown false)) :
    (update f (a ++ [.element]) s).shown k =
      insertAlong ((a ++ [Step.element]).map (·, false) ++ way) (s.shown k) := by
  induction a generalizing s k with
  | nil =>
    refine shown_updateChild k s fun t => ?_
    simpa [update, require_false] using h t
  | cons step a ih =>
    refine shown_updateChild k s fun t => ?_
    simpa [require_false] using ih step.name?.isSome t

theorem shown_update_id (a : Address) :
    (update id a s).shown k = insertAlong (a.map (·, false)) (s.shown k) := by
  induction a generalizing s k with
  | nil => rfl
  | cons step a ih =>
    refine shown_updateChild k s fun t => ?_
    simpa [require_false] using ih step.name?.isSome t

/-- Going a way once more, and then on, is going on at once. -/
theorem insertAlong_append (way more : List (Step × Bool)) :
    insertAlong ((way.map (·.1)).map (·, false) ++ more) (insertAlong way s) =
      insertAlong (way ++ more) s := by
  induction way generalizing s with
  | nil => rfl
  | cons entry way ih =>
    obtain ⟨step, mark⟩ := entry
    obtain ⟨r, b, c⟩ := s
    simp only [List.map_cons, List.cons_append, insertAlong, updateChild,
      updateChildren_updateChildren]
    congr 2
    funext t
    -- The second way marks nothing, so the marks of the first stay as they are.
    simpa [require_false] using ih (t.require mark)

end Insertion

end Shape

/-- The live binding of a frame, if it has one. -/
def Frame.binding? : Frame → Option (String × Address)
  | .plain _ => none
  | .binding name a _ => some (name, a)

namespace Scope

/-- Without open blocks the text is that of the context's own shape. -/
theorem typeText_of_closed {s : Scope} (h : s.Consistent) (hf : s.frames = [])
    (hr : s.shape.isIterated = false) : s.typeText = s.shape.text := by
  -- Without layers, every slot holds its own field.
  have hslots : s.slots = Slots.own s.shape.fieldNames := by
    have hl := h.layered
    rwa [hf] at hl
  obtain ⟨⟨r, b, c⟩, slots, frames⟩ := s
  have hn : (c.filterMap (·.1.name?)).Nodup := Shape.fieldNames_eq (.node r b c) ▸ h.nodup
  have hview : view ⟨.node r b c, Slots.own (c.filterMap (·.1.name?)), frames⟩ =
      .node r b (c.filter (·.1.name?.isSome)) := by
    unfold view
    refine congrArg (Shape.node r b) ?_
    rw [Slots.own, List.filterMap_map]
    refine Shape.filterMap_fields (g := fun name => (Shape.node r b c).at? [.field name]) ?_
    intro name child hm
    have hl := Shape.lookup_of_nodup hn hm
    simp [Shape.at?, Shape.child?, Shape.children, hl]
  have hnone : c.lookup .element = none := by
    simpa [Shape.isIterated, Shape.child?, Shape.children] using hr
  rw [Shape.fieldNames_eq] at hslots
  simp only at hslots
  subst hslots
  simp only [Shape.children] at *
  rw [typeText, hview]
  simp [Shape.text, Shape.describe, Shape.fieldLines_filter, Shape.elementLines_filter,
    Shape.elementLines_of_lookup _ hnone]

/-! ## One reference -/

variable {s : Scope} {blocks : Blocks} {refs : List Reference}

theorem addressOf_blocks (name : String) (frames : List Frame) :
    Blocks.addressOf name (frames.map Frame.binding?) = Frame.addressOf name frames := by
  induction frames with
  | nil => rfl
  | cons frame rest ih =>
    cases frame with
    | plain hasElse => exact ih
    | binding n a previous =>
      by_cases h : n = name <;> simp [Frame.binding?, Blocks.addressOf, Frame.addressOf, h, ih]

/-- A path is recorded along the way of its reference, and ends at its address. -/
theorem record_shown (h : s.Consistent) (path : String) (r : Bool) :
    (s.record path r).2.shape.shown false = Shape.insertAlong
        (Reference.ofPath (s.frames.map Frame.binding?) path r false).steps
        (s.shape.shown false) ∧
      (s.record path r).1 =
        (Reference.ofPath (s.frames.map Frame.binding?) path r false).address := by
  obtain ⟨head, rest, hp⟩ := Path.exists_segments path
  rw [record_eq hp]
  have hslot := h.slot?_eq head
  have hlocal := h.isLocal_eq head
  cases ha : Frame.addressOf head s.frames with
  | some a =>
    -- The head is a live binding: the names are followed below its elements.
    obtain ⟨f, hf, hfa⟩ := Frame.exists_of_addressOf ha
    obtain ⟨b, rfl⟩ := h.element f hf a hfa
    rw [ha] at hslot hlocal
    rw [resolve_of_some hslot, Reference.ofPath_of_some r false hp (by rw [addressOf_blocks, ha])]
    simp only [Option.isSome_some] at hlocal
    simp only [hlocal, Bool.not_true, Bool.and_false, Shape.require_false, Reference.steps,
      Reference.address]
    refine ⟨?_, by simp⟩
    have hway : ∀ t : Shape, (Shape.requireAlong r (rest.map Step.field) t).shown false =
        Shape.insertAlong (rest.map (Step.field ·, r)) (t.shown false) := by
      intro t
      simpa [Shape.require_false] using Shape.shown_requireAlong false t r rest
    simpa using Shape.shown_update_element false s.shape b hway
  | none =>
    -- The head is a field of the context, which is marked along with it.
    have hresolve : (s.resolve head).1 = [.field head] := by
      rw [ha] at hslot
      by_cases hm : head ∈ s.shape.fieldNames
      · rw [if_pos hm] at hslot
        rw [resolve_of_some hslot]
      · rw [if_neg hm] at hslot
        rw [resolve_of_none hslot]
    rw [ha] at hlocal
    rw [Reference.ofPath_of_none r false hp (by rw [addressOf_blocks, ha])]
    simp only [Option.isSome_none] at hlocal
    simp only [hlocal, hresolve, Bool.not_false, Bool.and_true, Reference.steps, Reference.address]
    refine ⟨?_, by simp⟩
    have hway : ∀ t : Shape, (Shape.requireAlong r (rest.map Step.field) t).shown true =
        Shape.insertAlong (rest.map (Step.field ·, r)) ((t.shown true).require r) := by
      intro t
      simpa using Shape.shown_requireAlong true t r rest
    have hfield : ((s.shape.require r).updateChild (.field head)
        (Shape.requireAlong r (rest.map Step.field))).shown false =
        ((s.shape.require r).shown false).updateChild (.field head)
          fun t => Shape.insertAlong (rest.map (Step.field ·, r)) (t.require r) :=
      Shape.shown_updateChild false _ hway
    rw [Shape.shown_require, Bool.and_false, Shape.require_false] at hfield
    show ((s.shape.require r).updateChild (.field head) _).shown false = _
    refine hfield.trans ?_
    simp [Shape.insertAlong]

/-- An iterated path is recorded along the way of its reference, the elements included. -/
theorem recordIterated_shown (h : s.Consistent) (path : String) :
    (s.recordIterated path).2.shape.shown false = Shape.insertAlong
        (Reference.ofPath (s.frames.map Frame.binding?) path false true).steps
        (s.shape.shown false) ∧
      (s.recordIterated path).1 =
        (Reference.ofPath (s.frames.map Frame.binding?) path false true).address := by
  obtain ⟨hs, ha⟩ := record_shown h path false
  have hsteps : (Reference.ofPath (s.frames.map Frame.binding?) path false true).steps =
      (Reference.ofPath (s.frames.map Frame.binding?) path false false).steps ++
        [(.element, false)] := by
    simp only [Reference.ofPath]
    split <;> simp [Reference.steps]
  have haddress : (Reference.ofPath (s.frames.map Frame.binding?) path false true).address =
      (Reference.ofPath (s.frames.map Frame.binding?) path false false).address ++
        [.element] := by
    simp only [Reference.ofPath]
    split <;> simp [Reference.address]
  refine ⟨?_, ?_⟩
  · show (Shape.update id ((s.record path false).1 ++ [.element])
      (s.record path false).2.shape).shown false = _
    -- Going to the elements is going the recorded way once more, and one step further.
    rw [Shape.shown_update_id, hs, ha, hsteps, ← Shape.insertAlong_append,
      Reference.map_fst_steps, List.map_append]
    rfl
  · rw [haddress, ← ha]
    rfl

theorem required_update (f : Shape → Shape) (step : Step) (rest : Address) (t : Shape) :
    (Shape.update f (step :: rest) t).required = t.required := by
  simp [Shape.update]

/-- The context is required by a required path that starts there. -/
theorem required_record (h : s.Consistent) (path : String) (r : Bool) :
    (s.record path r).2.shape.required = true ↔ s.shape.required = true ∨
      ((Reference.ofPath (s.frames.map Frame.binding?) path r false).required = true ∧
        (Reference.ofPath (s.frames.map Frame.binding?) path r false).start = []) := by
  obtain ⟨head, rest, hp⟩ := Path.exists_segments path
  have hway : ∃ step way, (s.resolve head).1 = step :: way := by
    cases hs : s.slot? head with
    | none => exact ⟨_, _, by rw [resolve_of_none hs]⟩
    | some a =>
      obtain ⟨step, way, rfl, -⟩ := h.slot?_some hs
      exact ⟨step, way, by rw [resolve_of_some hs]⟩
  obtain ⟨step, way, hw⟩ := hway
  rw [record_eq hp, hw]
  simp only [required_update, Shape.required_require, h.isLocal_eq]
  -- A binding's path leaves the context itself unmarked.
  cases ha : Frame.addressOf head s.frames with
  | none =>
    rw [Reference.ofPath_of_none r false hp (by rw [addressOf_blocks, ha])]
    simp
  | some a =>
    obtain ⟨f, hf, hfa⟩ := Frame.exists_of_addressOf ha
    obtain ⟨b, rfl⟩ := h.element f hf a hfa
    rw [Reference.ofPath_of_some r false hp (by rw [addressOf_blocks, ha])]
    simp

/-! ## A run -/

/-- A scope after the references of a run, with the blocks that are open then. -/
structure Follows (s : Scope) (blocks : Blocks) (refs : List Reference) : Prop where
  consistent : s.Consistent
  blocks_eq : blocks = s.frames.map Frame.binding?
  shape_eq : s.shape.shown false = Shape.ofReferences refs
  required_iff : s.shape.required = true ↔ ∃ r ∈ refs, r.required = true ∧ r.start = []
  /-- What bindings stand for was read as what a loop goes through. -/
  read : ∀ name a, some (name, a) ∈ blocks → ∃ r ∈ refs, r.address = a
  /-- Every reference goes through a field that was read from the context. -/
  rooted : ∀ r ∈ refs, ∃ q ∈ refs, q.start = [] ∧
    ∃ name, q.names.head? = some name ∧ r.address.head? = some (.field name)

theorem exists_of_addressOf_blocks {name : String} {a : Address}
    (h : blocks.addressOf name = some a) : some (name, a) ∈ blocks := by
  induction blocks with
  | nil => simp [Blocks.addressOf] at h
  | cons block rest ih =>
    cases block with
    | none => exact List.mem_cons_of_mem _ (ih h)
    | some binding =>
      obtain ⟨n, b⟩ := binding
      by_cases hn : n = name
      · simp only [Blocks.addressOf, hn, if_true, Option.some.injEq] at h
        simp [hn, h]
      · exact List.mem_cons_of_mem _ (ih (by simpa [Blocks.addressOf, hn] using h))

namespace Follows

/-- The tree with one more reference. -/
theorem ofReferences_concat (refs : List Reference) (r : Reference) :
    Shape.ofReferences (refs ++ [r]) = Shape.insertAlong r.steps (Shape.ofReferences refs) := by
  simp [Shape.ofReferences]

theorem rooted_concat (h : s.Follows blocks refs) (path : String) (required iterated : Bool) :
    ∀ r ∈ refs ++ [Reference.ofPath blocks path required iterated],
      ∃ q ∈ refs ++ [Reference.ofPath blocks path required iterated], q.start = [] ∧
        ∃ name, q.names.head? = some name ∧ r.address.head? = some (.field name) := by
  intro r hr
  rcases List.mem_append.1 hr with hr | hr
  · obtain ⟨q, hq, hs⟩ := h.rooted r hr
    exact ⟨q, List.mem_append_left _ hq, hs⟩
  obtain ⟨head, rest, hp⟩ := Path.exists_segments path
  obtain rfl := List.mem_singleton.1 hr
  cases ha : blocks.addressOf head with
  | none =>
    -- The path starts at the context, with its own head.
    refine ⟨_, List.mem_append_right _ hr, ?_⟩
    rw [Reference.ofPath_of_none required iterated hp ha]
    exact ⟨rfl, head, rfl, rfl⟩
  | some a =>
    -- It starts where an earlier reference leads to, which is rooted.
    obtain ⟨e, he, rfl⟩ := h.read head a (exists_of_addressOf_blocks ha)
    obtain ⟨q, hq, hs, name, hname, hhead⟩ := h.rooted e he
    refine ⟨q, List.mem_append_left _ hq, hs, name, hname, ?_⟩
    rw [Reference.ofPath_of_some required iterated hp ha, Reference.address, List.append_assoc,
      List.head?_append, hhead]
    rfl

theorem record (h : s.Follows blocks refs) (path : String) (required : Bool) :
    (s.record path required).2.Follows blocks
      (refs ++ [Reference.ofPath blocks path required false]) where
  consistent := h.consistent.record path required
  blocks_eq := h.blocks_eq
  shape_eq := by
    rw [(record_shown h.consistent path required).1, h.shape_eq, h.blocks_eq, ofReferences_concat]
  required_iff := by
    rw [required_record h.consistent path required, h.required_iff, h.blocks_eq]
    simp [or_and_right, exists_or]
  read name a hb := by
    obtain ⟨r, hr, ha⟩ := h.read name a hb
    exact ⟨r, List.mem_append_left _ hr, ha⟩
  rooted := h.rooted_concat path required false

theorem recordIterated (h : s.Follows blocks refs) (path : String) :
    (s.recordIterated path).2.Follows blocks
      (refs ++ [Reference.ofPath blocks path false true]) where
  consistent := (h.consistent.recordIterated path).1
  blocks_eq := h.blocks_eq
  shape_eq := by
    rw [(recordIterated_shown h.consistent path).1, h.shape_eq, h.blocks_eq, ofReferences_concat]
  required_iff := by
    obtain ⟨step, rest, ha, -⟩ := h.consistent.record_address path false
    have hr : (s.recordIterated path).2.shape.required =
        (s.record path false).2.shape.required := by
      show (Shape.update id ((s.record path false).1 ++ [.element]) _).required = _
      rw [ha, List.cons_append, required_update]
      rfl
    rw [hr, required_record h.consistent path false, h.required_iff]
    simp [Reference.ofPath_required, or_and_right, exists_or]
  read name a hb := by
    obtain ⟨r, hr, ha⟩ := h.read name a hb
    exact ⟨r, List.mem_append_left _ hr, ha⟩
  rooted := h.rooted_concat path false true

theorem push (h : s.Follows blocks refs) (hasElse : Bool) :
    ({ s with frames := .plain hasElse :: s.frames } : Scope).Follows (none :: blocks) refs where
  consistent := h.consistent.push hasElse
  blocks_eq := congrArg (none :: ·) h.blocks_eq
  shape_eq := h.shape_eq
  required_iff := h.required_iff
  read name a hb := by
    rcases List.mem_cons.1 hb with hb | hb
    · cases hb
    · exact h.read name a hb
  rooted := h.rooted

/-- A block whose binding stands for elements that were just read. -/
theorem bind (h : s.Follows blocks refs) {name : String} {a : Address} {previous : Option Address}
    (hc : (⟨s.shape.update Shape.bind a, s.slots.set name a,
      .binding name a previous :: s.frames⟩ : Scope).Consistent)
    (ha : (s.shape.at? a).isSome = true) (hr : ∃ r ∈ refs, r.address = a) :
    (⟨s.shape.update Shape.bind a, s.slots.set name a,
      .binding name a previous :: s.frames⟩ : Scope).Follows (some (name, a) :: blocks) refs where
  consistent := hc
  blocks_eq := congrArg (some (name, a) :: ·) h.blocks_eq
  shape_eq := (Shape.shown_update_of_isSome false _ (fun k t => Shape.shown_bind k t) ha).trans
    h.shape_eq
  required_iff := by
    rw [← h.required_iff]
    obtain ⟨⟨r, b, c⟩, slots, frames⟩ := s
    cases a <;> rfl
  read other b hb := by
    rcases List.mem_cons.1 hb with hb | hb
    · cases hb
      exact hr
    · exact h.read other b hb
  rooted := h.rooted

theorem release {frame : Frame} {rest : List Frame} (h : s.Follows blocks refs)
    (hf : s.frames = frame :: rest) :
    (({ s with frames := rest } : Scope).release frame).Follows blocks.tail refs := by
  have hblocks := h.blocks_eq
  rw [hf] at hblocks
  have hread : ∀ name a, some (name, a) ∈ blocks.tail → ∃ r ∈ refs, r.address = a :=
    fun name a hb => h.read name a (List.mem_of_mem_tail hb)
  cases frame with
  | plain hasElse =>
    exact ⟨h.consistent.release hf, by simp [hblocks, Scope.release], h.shape_eq, h.required_iff,
      hread, h.rooted⟩
  | binding name a previous =>
    have hmem : Frame.binding name a previous ∈ s.frames := by simp [hf]
    -- The binding's node is there, and its counter does not show.
    have hsome := Shape.isSome_of_bound_pos (h.consistent.bound_pos hmem rfl)
    refine ⟨h.consistent.release hf, by simp [hblocks, Scope.release], ?_, ?_, hread, h.rooted⟩
    · exact (Shape.shown_update_of_isSome false _ (fun k t => Shape.shown_unbind k t) hsome).trans
        h.shape_eq
    · rw [← h.required_iff]
      obtain ⟨⟨r, b, c⟩, slots, frames⟩ := s
      cases a <;> rfl

theorem nestIterable (h : s.Follows blocks refs) {path binding : String}
    (hok : (s.nestIterable path binding).1.isOk = true) :
    (s.nestIterable path binding).2.Follows
      ((Operation.nestIterable path binding).blocks blocks)
      (refs ++ [Reference.ofPath blocks path false true]) := by
  have hr := h.recordIterated path
  obtain ⟨-, step, rest, b, ha, hb, hc⟩ := h.consistent.recordIterated path
  have haddress : (s.recordIterated path).1 =
      (Reference.ofPath blocks path false true).address := by
    rw [(recordIterated_shown h.consistent path).2, h.blocks_eq]
  rcases nestIterable_cases (s := s) path binding with e | e | ⟨he, e⟩ | ⟨he, e⟩
  · rw [e] at hok
    cases hok
  · rw [e] at hok
    cases hok
  · have hblocks : (Operation.nestIterable path binding).blocks blocks = none :: blocks := by
      simp [Operation.blocks, he]
    rw [e, hblocks]
    exact hr.push false
  · have hblocks : (Operation.nestIterable path binding).blocks blocks =
        some (binding, (s.recordIterated path).1) :: blocks := by
      simp [Operation.blocks, he, haddress]
    rw [e, hblocks]
    exact hr.bind (hr.consistent.bind binding hb ha hc) (Shape.isSome_at?_update _ _ _)
      ⟨_, List.mem_append_right _ List.mem_cons_self, haddress.symm⟩

/-- Every accepted call is followed. -/
theorem perform (h : s.Follows blocks refs) {operation : Operation}
    (hok : (s.perform operation).1.isOk = true) :
    (s.perform operation).2.Follows (operation.blocks blocks)
      (refs ++ (operation.reference? blocks).toList) := by
  cases operation with
  | record path required => exact h.record path required
  | nestIterable path binding =>
    refine h.nestIterable ?_
    replace hok : ((s.nestIterable path binding).1.map fun _ => ()).isOk = true := hok
    cases hn : (s.nestIterable path binding).1 with
    | ok a => rfl
    | error fault =>
      rw [hn] at hok
      cases hok
  | nestPlain =>
    cases hn : s.nestPlain with
    | error fault =>
      rw [Scope.perform, hn] at hok
      cases hok
    | ok t =>
      rw [Scope.perform, hn, push_ok hn]
      exact (List.append_nil refs).symm ▸ h.push false
  | enterElse =>
    cases hn : s.enterElse with
    | error fault =>
      rw [Scope.perform, hn] at hok
      cases hok
    | ok t =>
      obtain ⟨frame, rest, hf, -, ht⟩ := enterElse_ok hn
      have hr := (h.release hf).push true
      rw [Scope.perform, hn, ht]
      cases frame <;> exact (List.append_nil refs).symm ▸ hr
  | pop =>
    cases hn : s.pop with
    | error fault =>
      rw [Scope.perform, hn] at hok
      cases hok
    | ok t =>
      obtain ⟨frame, rest, hf, ht⟩ := pop_ok hn
      rw [Scope.perform, hn, ht]
      exact (List.append_nil refs).symm ▸ h.release hf
  | finish => exact (List.append_nil refs).symm ▸ h

theorem run (h : s.Follows blocks refs) {operations : List Operation}
    (hok : s.Accepts operations) :
    ∃ left, (s.run operations).Follows left (refs ++ references blocks operations) := by
  induction operations generalizing s blocks refs with
  | nil => exact ⟨blocks, by simpa [references] using h⟩
  | cons operation rest ih =>
    obtain ⟨hop, hrest⟩ := hok
    simpa [references, List.append_assoc] using ih (h.perform hop) hrest

/-- Once all blocks are closed, the text is that of the tree of the references. -/
theorem typeText_eq (h : s.Follows blocks refs) (hclosed : s.frames = []) :
    s.typeText = (Shape.ofReferences refs).text := by
  -- Every reference is rooted in a field, so nothing goes to elements of the context itself.
  have hiterated : s.shape.isIterated = false := by
    rw [← Shape.isIterated_shown false, h.shape_eq, Bool.eq_false_iff, ne_eq]
    intro ht
    obtain ⟨r, hr, hn⟩ := ((Shape.records_ofReferences refs).iterated []).1 ht
    obtain ⟨q, -, -, name, -, hhead⟩ := h.rooted r hr
    rw [Shape.next?_nil, hhead] at hn
    cases hn
  rw [typeText_of_closed h.consistent hclosed hiterated, ← h.shape_eq, Shape.text, Shape.text,
    Shape.describe_shown]

end Follows

theorem follows_empty : empty.Follows [] [] where
  consistent := consistent_empty
  blocks_eq := rfl
  shape_eq := rfl
  required_iff := by simp [empty, Shape.fresh, Shape.required]
  read := by simp
  rooted := by simp

/-- Whether a scope tells just what references do. -/
structure Infers (s : Scope) (refs : List Reference) : Prop where
  /-- The text is that of the tree of the references, which knows what they tell and no more. -/
  typeText : s.typeText = (Shape.ofReferences refs).text
  records : (Shape.ofReferences refs).Records refs
  /-- The top-level fields are the heads of the paths that were read from the context. -/
  mem_fieldNames : ∀ name, name ∈ (Shape.ofReferences refs).fieldNames ↔
    ∃ r ∈ refs, r.start = [] ∧ r.names.head? = some name
  /-- The context is required if a required path was read from it. -/
  anyRequired_iff : s.anyRequired = true ↔ ∃ r ∈ refs, r.required = true ∧ r.start = []
  /-- The context is required if one of its fields is. -/
  anyRequired_iff_field : s.anyRequired = true ↔
    ∃ name, ((Shape.ofReferences refs).nodeAt [.field name]).required = true

/-- After a run of which no call was refused, and which closed its blocks, a scope tells just what
the references of the run do. -/
theorem infers_run {operations : List Operation} (hok : empty.Accepts operations)
    (hclosed : (empty.run operations).frames = []) :
    (empty.run operations).Infers (references [] operations) := by
  obtain ⟨blocks, h⟩ := follows_empty.run hok
  rw [List.nil_append] at h
  generalize references [] operations = refs at h ⊢
  have hrecords := Shape.records_ofReferences refs
  have hfields := hrecords.fieldNames []
  simp only [Shape.nodeAt_nil, Shape.next?_nil] at hfields
  have hrequired : (empty.run operations).anyRequired = true ↔
      ∃ r ∈ refs, r.required = true ∧ r.start = [] := h.required_iff
  refine ⟨h.typeText_eq hclosed, hrecords, fun name => ?_, hrequired, hrequired.trans ?_⟩
  · rw [hfields, List.mem_eraseDups, List.mem_filterMap]
    constructor
    · rintro ⟨r, hr, hn⟩
      obtain ⟨q, hq, hstart, other, hother, hhead⟩ := h.rooted r hr
      rw [hhead] at hn
      obtain rfl : other = name := by simpa using hn
      exact ⟨q, hq, hstart, hother⟩
    · rintro ⟨r, hr, hstart, hn⟩
      refine ⟨r, hr, ?_⟩
      obtain ⟨start, names, required, iterated⟩ := r
      cases names with
      | nil => cases hn
      | cons head rest => simpa [Reference.address, show start = [] from hstart] using hn
  · constructor
    · rintro ⟨r, hr, hreq, hstart⟩
      obtain ⟨q, -, -, name, -, hhead⟩ := h.rooted r hr
      refine ⟨name, (hrecords.required [] name).2 ⟨r, hr, hreq, by simp [hstart], ?_⟩⟩
      rw [Shape.next?_nil, hhead]
    -- A reference marks a top-level field only if it starts at the root.
    · rintro ⟨name, hname⟩
      obtain ⟨r, hr, hreq, hlen, -⟩ := (hrecords.required [] name).1 hname
      exact ⟨r, hr, hreq, List.length_eq_zero_iff.1 (Nat.le_zero.1 hlen)⟩

/-- A run that re-uses a binding, goes through the elements of elements and goes over to an else. -/
def nestedRun : List Operation :=
  [.record "x" false, .nestIterable "items" "x", .record "x.label" true, .nestIterable "x" "x",
    .record "x.size" true, .enterElse, .record "x" false, .pop, .pop, .record "title" true]

theorem infers_nestedRun :
    empty.Accepts nestedRun ∧ (empty.run nestedRun).frames = [] ∧
      (empty.run nestedRun).Infers (references [] nestedRun) :=
  ⟨by decide, by decide, infers_run (by decide) (by decide)⟩

end Scope
end HtmlTemplate
