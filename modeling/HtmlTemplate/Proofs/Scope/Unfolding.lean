import HtmlTemplate.Proofs.Scope.Alias
import HtmlTemplate.Proofs.Scope.Placing
import Mathlib.Data.List.Forall2
import Mathlib.Data.Option.Basic

/-!
# Unfolding — a graph of nodes as the tree, the slots and the frames of a scope

A graph unfolds to a scope if its nodes are at places in the tree, the fields of its root point at
the places that the slots hold, and its blocks keep what the frames keep (`Unfolds`).  Each call
leads from a graph and a scope that it unfolds to again to such two, and is answered alike
(`Unfolds.perform`).  So the two stay together in any run (`exists_unfolds_run`).
-/

namespace HtmlTemplate

/-! ## Names of slots -/

namespace Slots

variable {name : String} {slots : Slots}

theorem mem_names_set {other : String} {a : Address}
    (h : other ∈ (slots.set name a).map (·.1)) : other = name ∨ other ∈ slots.map (·.1) := by
  induction slots with
  | nil => exact .inl (by simpa [set] using h)
  | cons slot rest ih =>
    obtain ⟨n, b⟩ := slot
    by_cases hn : n = name
    · rw [set, if_pos hn] at h
      exact .inr h
    · rw [set, if_neg hn, List.map_cons, List.mem_cons] at h
      rw [List.map_cons, List.mem_cons]
      rcases h with rfl | h
      · exact .inr (.inl rfl)
      · exact (ih h).imp_right .inr

theorem nodup_set (h : (slots.map (·.1)).Nodup) (a : Address) :
    ((slots.set name a).map (·.1)).Nodup := by
  induction slots with
  | nil => exact List.nodup_singleton name
  | cons slot rest ih =>
    obtain ⟨n, b⟩ := slot
    obtain ⟨hnot, hrest⟩ := List.nodup_cons.1 h
    by_cases hn : n = name
    · rw [set, if_pos hn]
      exact h
    · rw [set, if_neg hn]
      exact List.nodup_cons.2 ⟨fun hm => (mem_names_set hm).elim hn hnot, ih hrest⟩

theorem nodup_restore (h : (slots.map (·.1)).Nodup) (previous : Option Address) :
    ((slots.restore name previous).map (·.1)).Nodup := by
  cases previous with
  | none => exact h.sublist (List.filter_sublist.map _)
  | some before => exact nodup_set h before

end Slots

namespace ShapeGraph

variable {g : ShapeGraph} {s : Scope} {places : List Address} {i : Nat} {a : Address}
  {name : String}

/-! ## Fields and slots -/

/-- Whether fields have the names of slots, and point at the places that the slots hold. -/
def PointAt (places : List Address) (fields : List (String × Nat)) (slots : Slots) : Prop :=
  List.Forall₂ (fun field slot => field.1 = slot.1 ∧ places[field.2]? = some slot.2) fields slots

namespace PointAt

variable {fields : List (String × Nat)} {slots : Slots}

theorem cons (hi : places[i]? = some a) (h : PointAt places fields slots) :
    PointAt places ((name, i) :: fields) ((name, a) :: slots) :=
  List.Forall₂.cons ⟨rfl, hi⟩ h

theorem append_places (h : PointAt places fields slots) (more : List Address) :
    PointAt (places ++ more) fields slots :=
  List.Forall₂.imp (fun _ _ hp => ⟨hp.1, Placed.getElem?_append_of_some hp.2 more⟩) h

theorem names (h : PointAt places fields slots) : fields.map (·.1) = slots.map (·.1) := by
  induction h with
  | nil => rfl
  | cons hp _ ih => rw [List.map_cons, List.map_cons, hp.1, ih]

theorem lookup (h : PointAt places fields slots) (name : String) :
    Option.Rel (fun i a => places[i]? = some a) (fields.lookup name) (slots.lookup name) := by
  induction h with
  | nil => exact .none
  | @cons field slot fields slots hp _ ih =>
    obtain ⟨key, i⟩ := field
    obtain ⟨key', a⟩ := slot
    obtain ⟨rfl, hi⟩ : key = key' ∧ places[i]? = some a := hp
    by_cases hk : name = key
    · subst hk
      simpa using Option.Rel.some hi
    · rwa [lookup_cons_ne hk, lookup_cons_ne hk]

theorem concat (h : PointAt places fields slots) (hi : places[i]? = some a) :
    PointAt places (fields ++ [(name, i)]) (slots ++ [(name, a)]) :=
  List.rel_append h (.cons ⟨rfl, hi⟩ .nil)

theorem set (h : PointAt places fields slots) (hi : places[i]? = some a) :
    PointAt places (setField name i fields) (slots.set name a) := by
  induction h with
  | nil => exact cons hi .nil
  | @cons field slot fields slots hp hrest ih =>
    obtain ⟨key, j⟩ := field
    obtain ⟨key', b⟩ := slot
    obtain ⟨rfl, hj⟩ : key = key' ∧ places[j]? = some b := hp
    by_cases hk : key = name
    · simpa only [setField, Slots.set, if_pos hk] using cons hi hrest
    · simpa only [setField, Slots.set, if_neg hk] using cons hj ih

theorem erase (h : PointAt places fields slots) :
    PointAt places (fields.filter (·.1 != name)) (slots.erase name) := by
  induction h with
  | nil => exact .nil
  | @cons field slot fields slots hp hrest ih =>
    obtain ⟨key, j⟩ := field
    obtain ⟨key', b⟩ := slot
    obtain ⟨rfl, hj⟩ : key = key' ∧ places[j]? = some b := hp
    unfold Slots.erase at ih ⊢
    by_cases hk : key = name
    · simpa [hk] using ih
    · simpa [hk] using cons hj ih

theorem restore (h : PointAt places fields slots) {previous : Option Nat}
    {before : Option Address} (hp : Option.Rel (fun i a => places[i]? = some a) previous before) :
    PointAt places (restoreField name previous fields) (slots.restore name before) := by
  cases hp with
  | none => exact h.erase
  | some hi => exact h.set hi

end PointAt

/-- Whether a block keeps what a frame keeps. -/
inductive KeptBy (places : List Address) : Block → Frame → Prop where
  | plain (hasElse : Bool) : KeptBy places (.plain hasElse) (.plain hasElse)
  | binding (name : String) {i : Nat} {a : Address} {previous : Option Nat}
      {before : Option Address} (hi : places[i]? = some a)
      (hprevious : Option.Rel (fun i a => places[i]? = some a) previous before) :
      KeptBy places (.binding name i previous) (.binding name a before)

theorem KeptBy.append_places {block : Block} {frame : Frame} (h : KeptBy places block frame)
    (more : List Address) : KeptBy (places ++ more) block frame := by
  cases h with
  | plain hasElse => exact .plain hasElse
  | binding name hi hprevious =>
    refine .binding name (Placed.getElem?_append_of_some hi more) ?_
    cases hprevious with
    | none => exact .none
    | some hj => exact .some (Placed.getElem?_append_of_some hj more)

/-! ## A graph and a scope -/

/-- Whether a graph, with its nodes at the places, comes to a scope. -/
structure Unfolds (g : ShapeGraph) (s : Scope) (places : List Address) : Prop where
  placed : g.Placed s.shape places
  fields : PointAt places (g.node 0).fields s.slots
  distinct : (s.slots.map (·.1)).Nodup
  blocks : List.Forall₂ (KeptBy places) g.blocks s.frames

/-- Whether a graph has come to a scope, with the nodes that were there at the places where they
were, and one of its nodes at an address. -/
def Reaches (places : List Address) (result : Nat × ShapeGraph) (s : Scope) (a : Address) : Prop :=
  ∃ more, result.2.Unfolds s (places ++ more) ∧ (places ++ more)[result.1]? = some a

theorem Reaches.of_append {more : List Address} {result : Nat × ShapeGraph}
    (h : Reaches (places ++ more) result s a) : Reaches places result s a := by
  obtain ⟨more', hu, hi⟩ := h
  rw [List.append_assoc] at hu hi
  exact ⟨more ++ more', hu, hi⟩

namespace Unfolds

theorem lookup (h : g.Unfolds s places) (name : String) :
    Option.Rel (fun i a => places[i]? = some a) ((g.node 0).child? (.field name))
      (s.slot? name) :=
  h.fields.lookup name

theorem exists_slot? (h : g.Unfolds s places) (hi : (g.node 0).child? (.field name) = some i) :
    ∃ a, s.slot? name = some a ∧ places[i]? = some a := by
  have hlookup := h.lookup name
  rw [hi] at hlookup
  generalize s.slot? name = slot at hlookup
  cases hlookup with
  | some ha => exact ⟨_, rfl, ha⟩

theorem exists_child? (h : g.Unfolds s places) (ha : s.slot? name = some a) :
    ∃ i : Nat, (g.node 0).child? (.field name) = some i ∧ places[i]? = some a := by
  have hlookup := h.lookup name
  rw [ha] at hlookup
  generalize (g.node 0).child? (.field name) = child at hlookup
  cases hlookup with
  | some hi => exact ⟨_, rfl, hi⟩

theorem child?_eq_none (h : g.Unfolds s places) (hn : s.slot? name = none) :
    (g.node 0).child? (.field name) = none := by
  refine Option.eq_none_iff_forall_ne_some.2 fun i hi => ?_
  obtain ⟨a, ha, -⟩ := h.exists_slot? hi
  rw [hn] at ha
  cases ha

theorem depth_eq (h : g.Unfolds s places) : g.depth = s.depth := h.blocks.length_eq

theorem anyRequired_eq (h : g.Unfolds s places) : g.anyRequired = s.anyRequired :=
  (h.placed.shows h.placed.root).required

theorem isLocal_eq (h : g.Unfolds s places) (name : String) : g.isLocal name = s.isLocal name := by
  unfold ShapeGraph.isLocal Scope.isLocal Scope.node?
  cases hslot : s.slot? name with
  | none =>
    rw [h.child?_eq_none hslot]
    rfl
  | some a =>
    obtain ⟨i, hchild, hi⟩ := h.exists_child? hslot
    obtain ⟨node, hnode⟩ := Option.isSome_iff_exists.1 (h.placed.isSome_at? hi)
    have hbound := (h.placed.shows hi).bound
    rw [Shape.nodeAt_of_at? s.shape hnode] at hbound
    simp only [hchild, Option.any_some, Option.bind_some, hnode, hbound]
    rfl

theorem mark (h : g.Unfolds s places) (hi : places[i]? = some a) {f : Node → Node}
    {k : Shape → Shape} (hf : Placed.Agree f k) :
    (g.modify i f).Unfolds { s with shape := s.shape.update k a } places where
  placed := h.placed.mark hi hf
  fields := by
    rw [node_modify f (h.placed.lt_length hi)]
    split
    · rename_i he
      rw [hf.fields, ← he]
      exact h.fields
    · exact h.fields
  distinct := h.distinct
  blocks := h.blocks

/-- The fields of the root change as the slots do. -/
theorem modifyRoot (h : g.Unfolds s places)
    {f : List (String × Nat) → List (String × Nat)} {slots : Slots}
    (hf : PointAt places (f (g.node 0).fields) slots) (hd : (slots.map (·.1)).Nodup) :
    (g.modifyRoot f).Unfolds { s with slots } places where
  placed := h.placed.modifyRoot f
  fields := by
    rw [ShapeGraph.modifyRoot, node_modify _ (h.placed.lt_length h.placed.root), if_pos rfl]
    exact hf
  distinct := hd
  blocks := h.blocks

theorem setBlocks (h : g.Unfolds s places) {blocks : List Block} {frames : List Frame}
    (hb : List.Forall₂ (KeptBy places) blocks frames) :
    ({ g with blocks } : ShapeGraph).Unfolds { s with frames } places :=
  ⟨⟨h.placed.length_eq, h.placed.root, h.placed.mem_iff, h.placed.older, h.placed.shows,
    h.placed.names, h.placed.child, h.placed.element, h.placed.not_mem, h.placed.distinct⟩,
    h.fields, h.distinct, hb⟩

/-! ## Steps -/

theorem blocks_append (h : g.Unfolds s places) (more : List Address) :
    List.Forall₂ (KeptBy (places ++ more)) g.blocks s.frames :=
  List.Forall₂.imp (fun _ _ hk => hk.append_places more) h.blocks

/-- A step from a node other than the root. -/
theorem child (h : g.Unfolds s places) (hi : places[i]? = some a) (ha : a ≠ []) (step : Step) :
    Reaches places (g.child i step) { s with shape := s.shape.update id (a ++ [step]) }
      (a ++ [step]) := by
  unfold ShapeGraph.child
  cases hc : (g.node i).child? step with
  | some c =>
    have hat := (h.placed.child hi ha step c).1 hc
    rw [Shape.update_id_of_isSome s.shape (h.placed.isSome_at? hat)]
    exact ⟨[], by simpa using h, by simpa using hat⟩
  | none =>
    have hnone := h.placed.at?_eq_none hi ha hc
    have hzero : 0 ≠ i := fun e => ha ((h.placed.eq_zero_iff hi).1 e.symm)
    refine ⟨[a ++ [step]], ⟨h.placed.grow hi hnone hc (absurd · ha), ?_, h.distinct,
      h.blocks_append _⟩,
      by simp [← h.placed.length_eq]⟩
    rw [node_grow step (h.placed.lt_length hi), if_neg hzero]
    exact h.fields.append_places _

/-- A step from the root, to what a slot holds or a new field. -/
theorem resolve (h : g.Unfolds s places)
    (hnone : s.slot? name = none → s.shape.at? [.field name] = none) :
    Reaches places (g.child 0 (.field name))
      { s with shape := s.shape.update id (s.resolve name).1, slots := (s.resolve name).2 }
      (s.resolve name).1 := by
  have hroot := h.placed.root
  unfold ShapeGraph.child
  cases hs : s.slot? name with
  | some a =>
    obtain ⟨c, hc, hat⟩ := h.exists_child? hs
    rw [hc, Scope.resolve_of_some hs, Shape.update_id_of_isSome s.shape (h.placed.isSome_at? hat)]
    exact ⟨[], by simpa using h, by simpa using hat⟩
  | none =>
    have hc := h.child?_eq_none hs
    have hnew : (places ++ [[Step.field name]])[g.nodes.length]? = some [.field name] := by
      simp [← h.placed.length_eq]
    rw [hc, Scope.resolve_of_none hs]
    refine ⟨[[.field name]], ⟨h.placed.grow hroot (hnone hs) hc (by simp), ?_, ?_,
      h.blocks_append _⟩, hnew⟩
    · rw [node_grow _ (h.placed.lt_length hroot), if_pos rfl]
      exact (h.fields.append_places _).concat hnew
    · rw [← Slots.set_of_lookup_none hs]
      exact Slots.nodup_set h.distinct _

/-- A way along fields marks what it leads through. -/
theorem walk (h : g.Unfolds s places) (hi : places[i]? = some a) (ha : a ≠ []) (r : Bool)
    (names : List String) :
    Reaches places (ShapeGraph.walk r i names (g.modify i (Node.require r)))
      { s with shape := s.shape.update (Shape.requireAlong r (names.map Step.field)) a }
      (a ++ names.map Step.field) := by
  have hmark := h.mark hi (Placed.agree_require r)
  induction names generalizing g s places i a with
  | nil =>
    refine ⟨[], ?_, by simpa [ShapeGraph.walk] using hi⟩
    rw [List.append_nil]
    exact hmark
  | cons name rest ih =>
    obtain ⟨more, hchild, hc⟩ := hmark.child hi ha (.field name)
    have hrest := ih hchild hc (by simp) (hchild.mark hc (Placed.agree_require r))
    -- Marking the child after walking to it is going on from the marked node at once.
    have hshape : Shape.update (Shape.requireAlong r (rest.map Step.field)) (a ++ [.field name])
        (Shape.update id (a ++ [.field name]) (Shape.update (Shape.require r) a s.shape)) =
        Shape.update (Shape.requireAlong r (.field name :: rest.map Step.field)) a s.shape := by
      rw [Shape.update_update, Function.comp_id, Shape.update_append, Shape.update_update]
      rfl
    rw [List.map_cons, List.append_cons, ← hshape]
    exact hrest.of_append

/-! ## Calls -/

theorem record (h : g.Unfolds s places) (hs : s.Consistent) (path : String) (r : Bool) :
    Reaches places (g.record path r) (s.record path r).2 (s.record path r).1 := by
  obtain ⟨head, rest, hp⟩ := Path.exists_segments path
  have ha : (s.resolve head).1 ≠ [] := by
    cases hslot : s.slot? head with
    | none => simp [Scope.resolve_of_none hslot]
    | some a =>
      obtain ⟨step, b, rfl, -⟩ := hs.slot?_some hslot
      simp [Scope.resolve_of_some hslot]
  have hmark := h.mark h.placed.root (Placed.agree_require (r && !s.isLocal head))
  have hnone : s.slot? head = none →
      (s.shape.require (r && !s.isLocal head)).at? [.field head] = none := by
    intro hslot
    have hchild : s.shape.child? (.field head) = none := by
      simpa using mt (s.shape.mem_fieldNames head).2 (hs.slot?_none hslot)
    simp [Shape.at?, hchild]
  obtain ⟨more, hchild, hc⟩ := hmark.resolve hnone
  have hrest := hchild.walk hc ha r rest
  have hshape : Shape.update (Shape.requireAlong r (rest.map Step.field)) (s.resolve head).1
      (Shape.update id (s.resolve head).1 (s.shape.require (r && !s.isLocal head))) =
      Shape.update (Shape.requireAlong r (rest.map Step.field)) (s.resolve head).1
        (s.shape.require (r && !s.isLocal head)) := by
    rw [Shape.update_update, Function.comp_id]
  rw [Scope.record_eq hp, ShapeGraph.record, hp, List.headD_cons, h.isLocal_eq, ← hshape]
  exact hrest.of_append

theorem recordIterated (h : g.Unfolds s places) (hs : s.Consistent) (path : String) :
    Reaches places (g.recordIterated path) (s.recordIterated path).2
      (s.recordIterated path).1 := by
  obtain ⟨step, rest, ha, -⟩ := hs.record_address path false
  obtain ⟨more, hrecord, hi⟩ := h.record hs path false
  exact (hrecord.child hi (by simp [ha]) .element).of_append

end Unfolds

/-- Whether a step is refused alike, or leads to a graph that unfolds to the scope behind it. -/
inductive Alike (places : List Address) :
    Except StructureFault ShapeGraph → Except StructureFault Scope → Prop where
  | refused (fault : StructureFault) : Alike places (.error fault) (.error fault)
  | taken {g : ShapeGraph} {s : Scope} (h : g.Unfolds s places) : Alike places (.ok g) (.ok s)

/-- Whether a call is answered alike, and leads to a graph that unfolds to the scope behind it. -/
structure Matches (places : List Address) {α β : Type} (result : Except Fault α × ShapeGraph)
    (expected : Except TemplateFault β × Scope) : Prop where
  answer : (result.1.map fun _ => ()) = (expected.1.map fun _ => ()).mapError Fault.refused
  unfolds : ∃ more, result.2.Unfolds expected.2 (places ++ more)

theorem Matches.of_append {more : List Address} {α β : Type} {result : Except Fault α × ShapeGraph}
    {expected : Except TemplateFault β × Scope} (h : Matches (places ++ more) result expected) :
    Matches places result expected := by
  obtain ⟨hanswer, more', hu⟩ := h
  rw [List.append_assoc] at hu
  exact ⟨hanswer, more ++ more', hu⟩

namespace Unfolds

theorem matches_of_answer (h : g.Unfolds s places) {α β : Type} {answer : Except Fault α}
    {expected : Except TemplateFault β}
    (ha : (answer.map fun _ => ()) = (expected.map fun _ => ()).mapError Fault.refused) :
    Matches places (answer, g) (expected, s) :=
  ⟨ha, [], by rwa [List.append_nil]⟩

/-- What comes of a call whose last step may be refused. -/
theorem matches_of_alike (h : g.Unfolds s places) {next : Except StructureFault ShapeGraph}
    {t : Except StructureFault Scope} (halike : Alike places next t) (i : Nat) (a : Address) :
    Matches places
      (match next with
        | .ok g => (.ok i, g)
        | .error fault => (.error (.refused (.structural fault)), g))
      (match t with
        | .ok s => (.ok a, s)
        | .error fault => (.error (.structural fault), s)) := by
  cases halike with
  | refused fault => exact h.matches_of_answer rfl
  | taken hnext => exact hnext.matches_of_answer rfl

theorem push (h : g.Unfolds s places) {block : Block} {frame : Frame}
    (hk : KeptBy places block frame) : Alike places (g.push block) (s.push frame) := by
  unfold ShapeGraph.push Scope.push
  rw [h.depth_eq]
  split
  · exact .refused .tooDeep
  · exact .taken (h.setBlocks (.cons hk h.blocks))

theorem bindName (h : g.Unfolds s places) (hi : places[i]? = some a) (name : String) :
    Alike places (g.bindName name i) (s.bindName name a) := by
  have hpush := h.push (.binding name hi (h.lookup name))
  unfold ShapeGraph.bindName Scope.bindName
  generalize g.push _ = next, s.push _ = t at hpush
  cases hpush with
  | refused fault => exact .refused fault
  | taken h => exact .taken ((h.modifyRoot (h.fields.set hi) (Slots.nodup_set h.distinct a)).mark hi
      Placed.agree_bind)

theorem nestIterable (h : g.Unfolds s places) (hs : s.Consistent) (path binding : String) :
    Matches places (g.nestIterable path binding) (s.nestIterable path binding) := by
  unfold ShapeGraph.nestIterable Scope.nestIterable
  by_cases hdot : binding.toList.contains '.' = true
  · rw [if_pos hdot, if_pos hdot]
    exact ⟨rfl, [], by simpa using h⟩
  -- The path is recorded whether or not the block can be opened.
  obtain ⟨more, hrecord, hi⟩ := h.recordIterated hs path
  have hopened : Alike (places ++ more)
      (if binding.isEmpty then (g.recordIterated path).2.push (.plain false)
        else (g.recordIterated path).2.bindName binding (g.recordIterated path).1)
      (if binding.isEmpty then (s.recordIterated path).2.push (.plain false)
        else (s.recordIterated path).2.bindName binding (s.recordIterated path).1) := by
    split
    · exact hrecord.push (.plain false)
    · exact hrecord.bindName hi binding
  rw [if_neg hdot, if_neg hdot]
  exact (hrecord.matches_of_alike hopened _ _).of_append

/-- A block is released where its frame is: the field of its binding still points at its node. -/
theorem release (h : g.Unfolds s places) {block : Block} {frame : Frame}
    (hk : KeptBy places block frame)
    (hslot : ∀ name a previous, frame = .binding name a previous → s.slot? name = some a) :
    ∃ next, g.release block = .ok next ∧ next.Unfolds (s.release frame) places := by
  cases hk with
  | plain hasElse => exact ⟨g, rfl, h⟩
  | @binding name i a previous before hi hprevious =>
    -- The node that the field points at is at the place of the binding's node, so it is this node.
    obtain ⟨c, hc, hat⟩ := h.exists_child? (hslot name a before rfl)
    obtain rfl := h.placed.unique hat hi
    have hmark := h.mark hi Placed.agree_unbind
    have hfields : PointAt places (restoreField name previous _)
        (Slots.restore name before _) := hmark.fields.restore hprevious
    have hroot := hmark.modifyRoot hfields (Slots.nodup_restore hmark.distinct before)
    refine ⟨_, if_pos hc, ?_⟩
    cases before <;> exact hroot

/-- The slot of a name holds what the innermost frame keeps of it. -/
theorem slot?_innermost (hs : s.Consistent) {frame : Frame} {frames : List Frame}
    (hf : s.frames = frame :: frames) (name : String) (a : Address) (previous : Option Address)
    (he : frame = .binding name a previous) : s.slot? name = some a := by
  have hlayered := hs.layered
  rw [hf, he] at hlayered
  exact hlayered.1

theorem enterElse (h : g.Unfolds s places) (hs : s.Consistent) :
    Matches places g.enterElse (s.orStay s.enterElse) := by
  have hblocks := h.blocks
  unfold ShapeGraph.enterElse Scope.enterElse
  generalize g.blocks = blocks at hblocks ⊢
  generalize hf : s.frames = frames at hblocks ⊢
  cases hblocks with
  | nil => exact h.matches_of_answer rfl
  | @cons block frame blocks frames hk hrest =>
    obtain ⟨next, hrelease, hnext⟩ := h.release hk (slot?_innermost hs hf)
    have hgo : Matches places
        (g.orStay ((g.release block).map fun next => { next with blocks := .plain true :: blocks }))
        (s.orStay (.ok { s.release frame with frames := .plain true :: frames })) := by
      rw [hrelease]
      exact (hnext.setBlocks (.cons (.plain true) hrest)).matches_of_answer rfl
    cases hk with
    | plain hasElse =>
      cases hasElse with
      | true => exact h.matches_of_answer rfl
      | false => exact hgo
    | binding name hi hprevious => exact hgo

theorem pop (h : g.Unfolds s places) (hs : s.Consistent) :
    Matches places g.pop (s.orStay s.pop) := by
  have hblocks := h.blocks
  unfold ShapeGraph.pop Scope.pop
  generalize g.blocks = blocks at hblocks ⊢
  generalize hf : s.frames = frames at hblocks ⊢
  cases hblocks with
  | nil => exact h.matches_of_answer rfl
  | @cons block frame blocks frames hk hrest =>
    obtain ⟨next, hrelease, hnext⟩ := (h.setBlocks hrest).release hk (slot?_innermost hs hf)
    dsimp only
    rw [hrelease]
    exact hnext.matches_of_answer rfl

/-- Every call is answered as by the scope, and keeps graph and scope together. -/
theorem perform (h : g.Unfolds s places) (hs : s.Consistent) (operation : Operation) :
    Matches places (g.perform operation) (s.perform operation) := by
  cases operation with
  | record path required =>
    obtain ⟨more, hrecord, -⟩ := h.record hs path required
    exact (hrecord.matches_of_answer rfl).of_append
  | nestIterable path binding =>
    obtain ⟨hanswer, more, hnext⟩ := h.nestIterable hs path binding
    refine (hnext.matches_of_answer ?_).of_append
    have hunit : ∀ {ε α : Type} (x : Except ε α),
        (x.map fun _ => ()).map (fun _ => ()) = x.map fun _ => () := by
      intro ε α x
      cases x <;> rfl
    rw [hunit, hunit, hanswer]
  | nestPlain =>
    have hpush := h.push (.plain false)
    show Matches places (g.orStay ((g.push (.plain false)).mapError _)) (s.orStay (s.push _))
    generalize g.push _ = next, s.push _ = t at hpush ⊢
    cases hpush with
    | refused fault => exact h.matches_of_answer rfl
    | taken hnext => exact hnext.matches_of_answer rfl
  | enterElse => exact h.enterElse hs
  | pop => exact h.pop hs
  | finish =>
    refine h.matches_of_answer ?_
    have hempty : g.blocks.isEmpty = s.frames.isEmpty := by
      rw [Bool.eq_iff_iff, List.isEmpty_iff_length_eq_zero, List.isEmpty_iff_length_eq_zero,
        h.blocks.length_eq]
    rw [Scope.finish, hempty, h.depth_eq]
    split <;> rfl

end Unfolds

theorem unfolds_empty : empty.Unfolds Scope.empty [[]] where
  placed := by
    have hplace : ∀ {i : Nat} {a : Address}, [([] : Address)][i]? = some a → i = 0 ∧ a = [] := by
      intro i a hi
      cases i with
      | zero => exact ⟨rfl, (Option.some.inj hi).symm⟩
      | succ i => cases hi
    refine ⟨rfl, rfl, fun a => ?_, List.pairwise_singleton _ _, fun hi => ?_, fun hi ha => ?_,
      fun hi ha => ?_, rfl, by simp, fun a => ?_⟩
    · cases a <;> simp [Scope.empty, Shape.at?, Shape.child?, Shape.fresh, Shape.children]
    · obtain ⟨rfl, rfl⟩ := hplace hi
      exact ⟨rfl, rfl⟩
    · exact absurd (hplace hi).2 ha
    · exact absurd (hplace hi).2 ha
    · rw [Scope.empty, Shape.nodeAt_fresh]
      exact List.nodup_nil
  fields := .nil
  distinct := List.nodup_nil
  blocks := .nil

/-- Wherever a sequence of calls leads, a graph and a scope stay together. -/
theorem exists_unfolds_run (operations : List Operation) :
    ∃ places, (empty.run operations).Unfolds (Scope.empty.run operations) places := by
  have hrun : ∀ (g : ShapeGraph) (s : Scope) (places : List Address), g.Unfolds s places →
      s.Consistent → ∃ places, (g.run operations).Unfolds (s.run operations) places := by
    -- The nodes keep their places from call to call, and new ones get places behind them.
    induction operations with
    | nil => exact fun g s places h _ => ⟨places, h⟩
    | cons operation rest ih =>
      intro g s places h hs
      obtain ⟨-, more, hnext⟩ := h.perform hs operation
      exact ih _ _ _ hnext (hs.perform operation)
  exact hrun _ _ _ unfolds_empty Scope.consistent_empty

end ShapeGraph
end HtmlTemplate
