import HtmlTemplate.Proofs.Scope.Unfolding
import Mathlib.Data.List.Induction

/-!
# Acyclic — the graph of a scope has no circles, and is a tree when no binding is live

An edge leads from a node to a younger one, and from the root to any other node, so that no way
leads back to where it started.  The text can therefore be read off the nodes, and is that of the
scope.  Once the fields of the root point again at what they pointed at before the live bindings,
the edges are the steps of the scope's tree.  The main statement is `ShapeGraph.run_acyclic`.
-/

namespace HtmlTemplate
namespace ShapeGraph

variable {g : ShapeGraph} {s : Scope} {shape : Shape} {places : List Address} {i j : Nat}
  {a : Address}

/-! ## Circles -/

theorem lt_length_of_edge {step : Step} (h : g.Edge i step j) : i < g.nodes.length := by
  refine Nat.lt_of_not_le fun hle => ?_
  rw [Edge, node_of_le hle] at h
  cases step <;> cases h

namespace Unfolds

/-- A field of the root points at what a slot holds, which is never the root. -/
theorem root_field (h : g.Unfolds s places) (hs : s.Consistent) {name : String}
    (hj : (g.node 0).child? (.field name) = some j) :
    ∃ a, s.slot? name = some a ∧ places[j]? = some a ∧ a ≠ [] := by
  obtain ⟨a, hslot, ha⟩ := h.exists_slot? hj
  obtain ⟨step, rest, rfl, -⟩ := hs.slot?_some hslot
  exact ⟨_, hslot, ha, by simp⟩

/-- An edge leads to a younger node. -/
theorem lt_of_leads (h : g.Unfolds s places) (hs : s.Consistent) (hij : g.Leads i j) :
    i < j ∧ j < g.nodes.length := by
  obtain ⟨step, hedge⟩ := hij
  obtain ⟨a, ha⟩ := h.placed.exists_place (lt_length_of_edge hedge)
  by_cases hroot : a = []
  · obtain rfl := (h.placed.eq_zero_iff ha).2 hroot
    cases step with
    | element => exact absurd (h.placed.element.symm.trans hedge) (by simp)
    | field name =>
      obtain ⟨b, -, hj, hb⟩ := h.root_field hs hedge
      exact ⟨Nat.pos_of_ne_zero (mt (h.placed.eq_zero_iff hj).1 hb), h.placed.lt_length hj⟩
  · have hj := (h.placed.child ha hroot step j).1 hedge
    exact ⟨h.placed.lt_of_concat ha hj, h.placed.lt_length hj⟩

theorem acyclic (h : g.Unfolds s places) (hs : s.Consistent) : g.Acyclic := by
  have hlt : ∀ i j, Relation.TransGen g.Leads i j → i < j := by
    intro i j hij
    -- Along a way every node is younger than the one before.
    induction hij with
    | single hedge => exact (h.lt_of_leads hs hedge).1
    | tail _ hedge ih => exact Nat.lt_trans ih (h.lt_of_leads hs hedge).1
  exact fun i hi => Nat.lt_irrefl i (hlt i i hi)

end Unfolds

/-! ## Texts -/

theorem mapM_eq_some {α β : Type} {f : α → Option β} {k : α → β} {l : List α}
    (h : ∀ x ∈ l, f x = some (k x)) : l.mapM f = some (l.map k) := by
  induction l with
  | nil => rfl
  | cons x l ih =>
    rw [List.mapM_cons, h x List.mem_cons_self, ih fun y hy => h y (List.mem_cons_of_mem _ hy)]
    rfl

/-- The tree that a node unfolds to. -/
def unfolded (shape : Shape) (places : List Address) (i : Nat) : Shape :=
  shape.nodeAt (places[i]?.getD [])

theorem unfolded_of_some (shape : Shape) (hi : places[i]? = some a) :
    unfolded shape places i = shape.nodeAt a := by
  rw [unfolded, hi, Option.getD_some]

/-- Whether the text of a node can be read off, and is that of the tree that it unfolds to. -/
structure Described (g : ShapeGraph) (shape : Shape) (places : List Address) (depth : Nat)
    (indent : String) (i : Nat) : Prop where
  required : (g.node i).required = (unfolded shape places i).required
  text : g.describe depth indent i = some (Shape.describe indent (unfolded shape places i))

/-- The text of a node, if those of the nodes that it leads to can be read off. -/
theorem describe_succ {depth : Nat} {indent : String}
    (hfields : ∀ field ∈ (g.node i).fields,
      g.Described shape places depth (indent ++ Shape.margin) field.2)
    (helement : ∀ child, (g.node i).element = some child →
      g.Described shape places depth (indent ++ Shape.margin) child) :
    g.describe (depth + 1) indent i = some (Shape.bracket indent
      (((g.node i).fields.map fun field =>
          Shape.fieldLine (indent ++ Shape.margin) field.1
            (unfolded shape places field.2).required
            (Shape.describe (indent ++ Shape.margin) (unfolded shape places field.2))) ++
        (g.node i).element.toList.map fun child =>
          Shape.elementLine (indent ++ Shape.margin)
            (Shape.describe (indent ++ Shape.margin) (unfolded shape places child)))) := by
  generalize hinner : indent ++ Shape.margin = inner at hfields helement
  have hf : ((g.node i).fields.mapM fun field => do
      let text ← g.describe depth inner field.2
      return Shape.fieldLine inner field.1 (g.node field.2).required text) =
      some ((g.node i).fields.map fun field =>
        Shape.fieldLine inner field.1 (unfolded shape places field.2).required
          (Shape.describe inner (unfolded shape places field.2))) := by
    refine mapM_eq_some fun field hfield => ?_
    rw [(hfields field hfield).text, (hfields field hfield).required]
    rfl
  have he : ((g.node i).element.toList.mapM fun child => do
      return Shape.elementLine inner (← g.describe depth inner child)) =
      some ((g.node i).element.toList.map fun child =>
        Shape.elementLine inner (Shape.describe inner (unfolded shape places child))) := by
    refine mapM_eq_some fun child hchild => ?_
    rw [(helement child (Option.mem_toList.1 hchild)).text]
    rfl
  simp only [describe, hinner, hf, he]
  rfl

namespace Placed

theorem nodup_names (h : g.Placed shape places) (hi : places[i]? = some a) (ha : a ≠ []) :
    ((g.node i).fields.map (·.1)).Nodup := by
  rw [h.names hi ha]
  exact (h.distinct a).filterMap fun step step' name hs hs' => by
    cases step <;> cases step' <;> simp_all

/-- A field of a node leads to the node at the field's place. -/
theorem field (h : g.Placed shape places) (hi : places[i]? = some a) (ha : a ≠ [])
    {field : String × Nat} (hf : field ∈ (g.node i).fields) :
    places[field.2]? = some (a ++ [.field field.1]) :=
  (h.child hi ha (.field field.1) field.2).1 (lookup_of_mem (h.nodup_names hi ha) hf)

/-- The lines for the fields of a node are those of the tree at its place. -/
theorem map_fieldLine (h : g.Placed shape places) (hi : places[i]? = some a) (ha : a ≠ [])
    (indent : String) :
    (g.node i).fields.map (fun field =>
        Shape.fieldLine indent field.1 (unfolded shape places field.2).required
          (Shape.describe indent (unfolded shape places field.2))) =
      (shape.nodeAt a).fieldNames.map fun name =>
        Shape.fieldLine indent name ((shape.nodeAt a).nodeAt [.field name]).required
          (Shape.describe indent ((shape.nodeAt a).nodeAt [.field name])) := by
  have hnames : (shape.nodeAt a).fieldNames = (g.node i).fields.map (·.1) :=
    (Shape.fieldNames_eq_steps _).trans (h.names hi ha).symm
  rw [hnames, List.map_map]
  refine List.map_congr_left fun field hf => ?_
  rw [unfolded_of_some shape (h.field hi ha hf), Shape.nodeAt_append]
  rfl

theorem map_elementLine (h : g.Placed shape places) (hi : places[i]? = some a) (ha : a ≠ [])
    (indent : String) :
    (g.node i).element.toList.map (fun child =>
        Shape.elementLine indent (Shape.describe indent (unfolded shape places child))) =
      (((shape.nodeAt a).child? .element).map fun child =>
        Shape.elementLine indent (Shape.describe indent child)).toList := by
  rw [Shape.child?_nodeAt (h.isSome_at? hi)]
  cases hc : (g.node i).element with
  | none =>
    have hnone : shape.at? (a ++ [.element]) = none := h.at?_eq_none hi ha hc
    simp [hnone]
  | some child =>
    have hchild := (h.child hi ha .element child).1 hc
    obtain ⟨node, hnode⟩ := Option.isSome_iff_exists.1 (h.isSome_at? hchild)
    simp [unfolded_of_some shape hchild, Shape.nodeAt_of_at? shape hnode, hnode]

/-- The text of a node other than the root is that of the tree at its place. -/
theorem described (h : g.Placed shape places) (hi : places[i]? = some a) (ha : a ≠ [])
    {depth : Nat} (hdepth : g.nodes.length ≤ i + depth) (indent : String) :
    g.Described shape places depth indent i := by
  refine ⟨?_, ?_⟩
  · rw [unfolded_of_some shape hi]
    exact (h.shows hi).required
  -- The nodes that are left to go through are those that are younger.
  induction depth generalizing i a indent with
  | zero => exact absurd (h.lt_length hi) (Nat.not_lt_of_le hdepth)
  | succ depth ih =>
    have hnext : ∀ {step} {child : Nat}, places[child]? = some (a ++ [step]) →
        g.Described shape places depth (indent ++ Shape.margin) child := by
      intro step child hchild
      have hlt := h.lt_of_concat hi hchild
      refine ⟨?_, ih hchild (by simp) (by omega) _⟩
      rw [unfolded_of_some shape hchild]
      exact (h.shows hchild).required
    rw [describe_succ (fun field hf => hnext (h.field hi ha hf))
      (fun child hc => hnext ((h.child hi ha .element child).1 hc)),
      unfolded_of_some shape hi, Shape.describe_eq _ (h.distinct a), h.map_fieldLine hi ha,
      h.map_elementLine hi ha]

end Placed

/-- The lines of slots are those of the fields that point at what they hold. -/
theorem PointAt.lines {fields : List (String × Nat)} {slots : Slots}
    (hf : PointAt places fields slots) (h : g.Placed shape places) (indent : String) :
    Shape.fieldLines indent (slots.filterMap fun (name, address) =>
        (shape.at? address).map fun n => (Step.field name, n)) =
      fields.map (fun field =>
        Shape.fieldLine indent field.1 (unfolded shape places field.2).required
          (Shape.describe indent (unfolded shape places field.2))) ∧
    Shape.elementLines indent (slots.filterMap fun (name, address) =>
        (shape.at? address).map fun n => (Step.field name, n)) = [] := by
  induction hf with
  | nil => exact ⟨rfl, rfl⟩
  | @cons field slot fields slots hp _ ih =>
    obtain ⟨name, i⟩ := field
    obtain ⟨name', a⟩ := slot
    obtain ⟨rfl, hi⟩ : name = name' ∧ places[i]? = some a := hp
    obtain ⟨node, hnode⟩ := Option.isSome_iff_exists.1 (h.isSome_at? hi)
    simp only [List.filterMap_cons, hnode, Option.map_some, Shape.fieldLines, Shape.elementLines,
      List.map_cons, ih.1, ih.2, unfolded_of_some shape hi, Shape.nodeAt_of_at? shape hnode,
      and_self]

/-- The text can be read off the nodes, and is that of the scope. -/
theorem Unfolds.describe_eq (h : g.Unfolds s places) (hs : s.Consistent) :
    g.describe g.nodes.length "" 0 = some s.typeText := by
  obtain ⟨depth, hdepth⟩ := Nat.exists_eq_add_one_of_ne_zero
    (Nat.ne_of_gt (h.placed.lt_length h.placed.root))
  have hfields : ∀ field ∈ (g.node 0).fields,
      g.Described s.shape places depth ("" ++ Shape.margin) field.2 := by
    intro field hf
    have hnodup : ((g.node 0).fields.map (·.1)).Nodup := h.fields.names ▸ h.distinct
    obtain ⟨a, -, hi, ha⟩ := h.root_field hs (lookup_of_mem hnodup hf)
    have hpos : field.2 ≠ 0 := mt (h.placed.eq_zero_iff hi).1 ha
    exact h.placed.described hi ha (by omega) _
  have helement : ∀ child, (g.node 0).element = some child →
      g.Described s.shape places depth ("" ++ Shape.margin) child :=
    fun child hc => absurd (h.placed.element.symm.trans hc) (by simp)
  have hlines := h.fields.lines h.placed ("" ++ Shape.margin)
  rw [hdepth, describe_succ hfields helement, h.placed.element, Scope.typeText, Scope.view,
    Shape.text, Shape.describe, hlines.1, hlines.2]
  rfl

/-! ## Trees -/

namespace Placed

/-- With its own fields at the root, the edges of a graph are the steps of a tree. -/
theorem isTree (h : g.Placed shape places)
    (hedge : ∀ {i : Nat} {a}, places[i]? = some a → ∀ step (child : Nat),
      g.Edge i step child ↔ places[child]? = some (a ++ [step])) : g.IsTree := by
  have hfrom : ∀ {i step} {child : Nat}, g.Edge i step child →
      ∃ a, places[i]? = some a ∧ places[child]? = some (a ++ [step]) := by
    intro i step child hstep
    obtain ⟨a, ha⟩ := h.exists_place (lt_length_of_edge hstep)
    exact ⟨a, ha, (hedge ha step child).1 hstep⟩
  have hparent : ∀ {i : Nat} {a step}, places[i]? = some (a ++ [step]) →
      ∃ parent : Nat, places[parent]? = some a ∧ g.Edge parent step i := by
    intro i a step hi
    obtain ⟨parent, hp⟩ := h.exists_parent hi
    exact ⟨parent, hp, (hedge hp step i).2 hi⟩
  refine ⟨?_, ?_, ?_, ?_⟩
  -- The place of the root ends with no step.
  · rintro i ⟨step, hstep⟩
    obtain ⟨a, -, hzero⟩ := hfrom hstep
    exact absurd (hzero.symm.trans h.root) (by simp)
  -- Any other place ends with one step, which tells the place of the parent.
  · intro i hpos hi
    obtain ⟨a, ha⟩ := h.exists_place hi
    rcases List.eq_nil_or_concat' a with rfl | ⟨b, step, rfl⟩
    · exact absurd (h.unique ha h.root) (Nat.ne_of_gt hpos)
    obtain ⟨parent, hp, hstep⟩ := hparent ha
    refine ⟨(parent, step), hstep, ?_⟩
    rintro ⟨other, step'⟩ hother
    obtain ⟨c, hc, hi'⟩ := hfrom hother
    obtain ⟨rfl, hsteps⟩ := List.append_inj' (Option.some.inj (hi'.symm.trans ha)) rfl
    exact Prod.ext (h.unique hc hp) (List.singleton_inj.1 hsteps)
  -- A place is reached step by step.
  · intro i hi
    obtain ⟨a, ha⟩ := h.exists_place hi
    induction a using List.reverseRecOn generalizing i with
    | nil => exact h.unique h.root ha ▸ .refl
    | append_singleton a step ih =>
      obtain ⟨parent, hp, hstep⟩ := hparent ha
      exact (ih parent (h.lt_length hp) hp).tail ⟨step, hstep⟩
  · rintro i child ⟨step, hstep⟩
    obtain ⟨a, -, hchild⟩ := hfrom hstep
    exact h.lt_length hchild

end Placed

/-- With what the blocks keep back at its place, every field of the root points at its own node. -/
theorem PointAt.undo {names : List String} {blocks : List Block} {frames : List Frame}
    (hb : List.Forall₂ (KeptBy places) blocks frames) {fields : List (String × Nat)} {slots : Slots}
    (hf : PointAt places fields slots) (hl : Layered names frames slots) :
    PointAt places (undoFields blocks fields) (Slots.own names) := by
  induction hb generalizing fields slots with
  | nil =>
    obtain rfl : slots = Slots.own names := hl
    exact hf
  | cons hk _ ih =>
    cases hk with
    | plain hasElse => exact ih hf hl
    | binding name hi hprevious => exact ih (hf.restore hprevious) hl.2

namespace Unfolds

theorem undone (h : g.Unfolds s places) (hs : s.Consistent) :
    g.undone.Unfolds { s with slots := Slots.own s.shape.fieldNames, frames := [] } places := by
  have hdistinct : ((Slots.own s.shape.fieldNames).map (·.1)).Nodup := by
    simpa [Slots.own, Function.comp_def] using hs.nodup
  have hfields := PointAt.undo h.blocks h.fields hs.layered
  exact (h.modifyRoot hfields hdistinct).setBlocks .nil

/-- An edge from the root leads to a field of the context, if every name stands for its own. -/
theorem edge_root_iff (h : g.Unfolds s places)
    (hslot : ∀ name, s.slot? name =
      if name ∈ s.shape.fieldNames then some [.field name] else none) (step : Step) (child : Nat) :
    g.Edge 0 step child ↔ places[child]? = some [step] := by
  cases step with
  | element =>
    refine iff_of_false (fun hc => ?_) fun hc => h.placed.not_mem (List.mem_of_getElem? hc)
    exact absurd (h.placed.element.symm.trans hc) (by simp)
  | field name =>
    constructor
    · intro hc
      obtain ⟨a, ha, hplace⟩ := h.exists_slot? hc
      rw [hslot] at ha
      split at ha
      · rw [hplace, ← ha]
      · cases ha
    · intro hplace
      have hmem : name ∈ s.shape.fieldNames :=
        (s.shape.mem_fieldNames name).2 (Shape.isSome_child?_of_at? (h.placed.isSome_at? hplace))
      obtain ⟨other, hc, hother⟩ := h.exists_child? ((hslot name).trans (if_pos hmem))
      rw [Edge, hc, h.placed.unique hother hplace]

/-- A graph is a tree if every name stands for its own field. -/
theorem isTree (h : g.Unfolds s places)
    (hslot : ∀ name, s.slot? name =
      if name ∈ s.shape.fieldNames then some [.field name] else none) : g.IsTree := by
  refine h.placed.isTree fun {i a} hi => ?_
  by_cases ha : a = []
  · obtain rfl := (h.placed.eq_zero_iff hi).2 ha
    rw [ha]
    exact h.edge_root_iff hslot
  · exact h.placed.child hi ha

theorem isTree_undone (h : g.Unfolds s places) (hs : s.Consistent) : g.undone.IsTree :=
  (h.undone hs).isTree fun _ => Slots.lookup_own s.shape.fieldNames

/-- A graph is a tree just as long as no name is a live binding. -/
theorem isTree_iff (h : g.Unfolds s places) (hs : s.Consistent) :
    g.IsTree ↔ ∀ name, s.isLocal name = false := by
  constructor
  · intro htree name
    rw [← Bool.not_eq_true]
    intro hlocal
    rw [hs.isLocal_eq, Option.isSome_iff_exists] at hlocal
    obtain ⟨a, haddress⟩ := hlocal
    obtain ⟨f, hf, hfa⟩ := Frame.exists_of_addressOf haddress
    obtain ⟨b, rfl⟩ := hs.element f hf a hfa
    have hslot : s.slot? name = some (b ++ [.element]) := by
      rw [hs.slot?_eq, haddress]
      rfl
    -- The node of the binding has an edge from the root, and one from what is iterated.
    obtain ⟨i, hedge, hi⟩ := h.exists_child? hslot
    have hb : b ≠ [] := by
      rintro rfl
      exact h.placed.not_mem (List.mem_of_getElem? hi)
    obtain ⟨parent, hparent⟩ := h.placed.exists_parent hi
    have hpos : i ≠ 0 := mt (h.placed.eq_zero_iff hi).1 (by simp)
    obtain ⟨edge, -, hunique⟩ :=
      htree.parent i (Nat.pos_of_ne_zero hpos) (h.placed.lt_length hi)
    have hroot := hunique (0, .field name) hedge
    have hiterated := hunique (parent, .element) ((h.placed.child hparent hb .element i).2 hi)
    cases hroot.trans hiterated.symm
  · intro hlocal
    refine h.isTree fun name => ?_
    have hnone := hlocal name
    rw [hs.isLocal_eq, Option.isSome_eq_false_iff, Option.isNone_iff_eq_none] at hnone
    rw [hs.slot?_eq, hnone]
    rfl

end Unfolds

/-! ## Runs -/

/-- Whether a graph cannot be told from a scope by what is asked of them. -/
structure Agrees (g : ShapeGraph) (s : Scope) : Prop where
  /-- Calls are answered alike, so that no field of a live binding is found clobbered. -/
  answer : ∀ operation,
    (g.perform operation).1 = (s.perform operation).1.mapError Fault.refused
  depth : g.depth = s.depth
  anyRequired : g.anyRequired = s.anyRequired
  isLocal : ∀ name, g.isLocal name = s.isLocal name
  /-- The text can be read off without going down further than there are nodes. -/
  text : g.describe g.nodes.length "" 0 = some s.typeText

theorem Unfolds.agrees (h : g.Unfolds s places) (hs : s.Consistent) : g.Agrees s where
  answer operation := by
    have hunit : ∀ {ε : Type} (x : Except ε Unit), (x.map fun _ => ()) = x := by
      intro ε x
      cases x <;> rfl
    have hanswer := (h.perform hs operation).answer
    rwa [hunit, hunit] at hanswer
  depth := h.depth_eq
  anyRequired := h.anyRequired_eq
  isLocal := h.isLocal_eq
  text := h.describe_eq hs

/-- Wherever a sequence of calls leads, refused ones included: the graph has no circles, and tells
what the scope tells; without its live bindings it is a tree of all its nodes; and it is that tree
itself just as long as no name is a live binding, so once all blocks are closed. -/
theorem run_acyclic (operations : List Operation) :
    (empty.run operations).Agrees (Scope.empty.run operations) ∧
    (empty.run operations).Acyclic ∧
    (empty.run operations).undone.IsTree ∧
    ((empty.run operations).IsTree ↔ ∀ name, (empty.run operations).isLocal name = false) ∧
    ((empty.run operations).blocks = [] → (empty.run operations).IsTree) := by
  obtain ⟨places, h⟩ := exists_unfolds_run operations
  have hs := Scope.consistent_empty.run operations
  have hiff : (empty.run operations).IsTree ↔
      ∀ name, (empty.run operations).isLocal name = false := by
    rw [h.isTree_iff hs]
    exact forall_congr' fun name => by rw [h.isLocal_eq]
  refine ⟨h.agrees hs, h.acyclic hs, h.isTree_undone hs, hiff, fun hclosed => ?_⟩
  -- Without blocks there is no frame that a live binding could come from.
  refine hiff.2 fun name => ?_
  have hblocks := h.blocks
  rw [hclosed] at hblocks
  have hframes := List.forall₂_nil_left_iff.1 hblocks
  rw [h.isLocal_eq, hs.isLocal_eq, hframes]
  rfl

/-- A run that goes through the elements of elements, re-uses a binding and goes over to an else. -/
def sharedRun : List Operation :=
  [.nestIterable "rows" "row", .nestIterable "row.cells" "cell", .nestIterable "cell.tags" "row",
    .record "row.name" true, .enterElse, .record "row.key" false, .pop, .pop, .pop]

theorem run_acyclic_sharedRun :
    (empty.run sharedRun).blocks = [] ∧ (empty.run sharedRun).IsTree ∧
      (empty.run (sharedRun.take 4)).Acyclic ∧ ¬ (empty.run (sharedRun.take 4)).IsTree :=
  have hclosed : (empty.run sharedRun).blocks = [] := by decide
  have hlive : (empty.run (sharedRun.take 4)).isLocal "row" = true := by decide
  have hopen := run_acyclic (sharedRun.take 4)
  ⟨hclosed, (run_acyclic sharedRun).2.2.2.2 hclosed, hopen.2.1, fun htree =>
    absurd (hopen.2.2.2.1.1 htree "row") (by simp [hlive])⟩

end ShapeGraph
end HtmlTemplate
