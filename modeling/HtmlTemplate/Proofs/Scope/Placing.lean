import HtmlTemplate.Proofs.Scope.Graph
import HtmlTemplate.Proofs.Shape.Label
import Mathlib.Data.List.Nodup

/-!
# Placing — at which address of a tree each node of a graph is

Every node of a graph has a place in a tree, and every address that the tree knows is the place of
one node (`Placed`).  The node has the marks that the tree has there, and the edges of the graph are
the steps of the tree.  The root is left out of this, because its fields may be live bindings and
point anywhere.  A mark at a node is a mark at its place, and a new node is at a new place.
-/

namespace HtmlTemplate
namespace ShapeGraph

variable {g : ShapeGraph} {shape : Shape} {places : List Address} {i j : Nat} {a b : Address}
  {step : Step}

/-! ## The store -/

theorem node_of_le (h : g.nodes.length ≤ i) : g.node i = {} := by
  simp [node, List.getD, h]

theorem node_modify (f : Node → Node) (h : i < g.nodes.length) (j : Nat) :
    (g.modify i f).node j = if j = i then f (g.node i) else g.node j := by
  by_cases hj : j = i
  · subst hj
    simp [modify, node, List.getD, h]
  · simp [modify, node, List.getD, hj, Ne.symm hj]

theorem node_grow (step : Step) (h : i < g.nodes.length) (j : Nat) :
    (g.grow i step).node j =
      if j = i then (g.node i).attach g.nodes.length step else g.node j := by
  have hmodify := node_modify (g := g) (Node.attach g.nodes.length · step) h j
  rw [← hmodify]
  -- The new node is what a store without it gives for its number.
  rcases Nat.lt_trichotomy j g.nodes.length with hlt | rfl | hgt
  · simp [grow, modify, node, List.getD, List.getElem?_append, hlt]
  · simp [grow, modify, node, List.getD]
  · simp [grow, modify, node, List.getD, List.getElem?_append, Nat.not_lt_of_gt hgt,
      Nat.sub_ne_zero_of_lt hgt]

theorem child?_attach {n : Node} (h : n.child? step = none) (child : Nat) (other : Step) :
    (n.attach child step).child? other = if other = step then some child else n.child? other := by
  cases step with
  | element => cases other <;> rfl
  | field name =>
    replace h : n.fields.lookup name = none := h
    cases other with
    | element => rfl
    | field key =>
      show (n.fields ++ [(name, child)]).lookup key = _
      rw [List.lookup_append]
      by_cases hk : key = name
      · subst hk
        simp [h]
      · simp [lookup_cons_ne hk, hk, Node.child?]

/-! ## Places -/

/-- Whether a node has the marks of a label. -/
structure Node.Shows (n : Node) (l : Shape.Label) : Prop where
  required : n.required = l.required
  bound : n.bound = l.bound

/-- Whether each node is at a place of the shape, with the same marks, and each step from a node
other than the root leads to the node at the next place. -/
structure Placed (g : ShapeGraph) (shape : Shape) (places : List Address) : Prop where
  length_eq : places.length = g.nodes.length
  root : places[0]? = some []
  mem_iff : ∀ a, a ∈ places ↔ (shape.at? a).isSome = true
  /-- A node is made before the nodes that are further down. -/
  older : places.Pairwise fun a b => ¬ b <+: a
  shows : ∀ {i : Nat} {a}, places[i]? = some a → (g.node i).Shows (shape.nodeAt a).label
  names : ∀ {i : Nat} {a}, places[i]? = some a → a ≠ [] →
    (g.node i).fields.map (·.1) = (shape.nodeAt a).label.steps.filterMap Step.name?
  child : ∀ {i : Nat} {a}, places[i]? = some a → a ≠ [] → ∀ step (child : Nat),
    (g.node i).child? step = some child ↔ places[child]? = some (a ++ [step])
  /-- The context itself has no elements. -/
  element : (g.node 0).element = none
  not_mem : [.element] ∉ places
  distinct : ∀ a, (shape.nodeAt a).label.steps.Nodup

namespace Placed

theorem lt_length (h : g.Placed shape places) (hi : places[i]? = some a) :
    i < g.nodes.length := by
  rw [← h.length_eq]
  exact (List.getElem?_eq_some_iff.1 hi).1

theorem exists_place (h : g.Placed shape places) (hi : i < g.nodes.length) :
    ∃ a, places[i]? = some a := by
  rw [← h.length_eq] at hi
  exact ⟨_, List.getElem?_eq_getElem hi⟩

theorem isSome_at? (h : g.Placed shape places) (hi : places[i]? = some a) :
    (shape.at? a).isSome = true :=
  (h.mem_iff a).1 (List.mem_of_getElem? hi)

theorem exists_node (h : g.Placed shape places) (ha : (shape.at? a).isSome = true) :
    ∃ i : Nat, places[i]? = some a :=
  List.mem_iff_getElem?.1 ((h.mem_iff a).2 ha)

theorem exists_parent (h : g.Placed shape places) (hi : places[i]? = some (a ++ b)) :
    ∃ parent : Nat, places[parent]? = some a :=
  h.exists_node (Shape.isSome_at?_of_append (h.isSome_at? hi))

theorem not_prefix (h : g.Placed shape places) (hi : places[i]? = some a)
    (hj : places[j]? = some b) (hlt : i < j) : ¬ b <+: a := by
  obtain ⟨hi', rfl⟩ := List.getElem?_eq_some_iff.1 hi
  obtain ⟨hj', rfl⟩ := List.getElem?_eq_some_iff.1 hj
  exact List.pairwise_iff_getElem.1 h.older i j hi' hj' hlt

/-- No two nodes are at the same place. -/
theorem unique (h : g.Placed shape places) (hi : places[i]? = some a)
    (hj : places[j]? = some a) : i = j := by
  rcases Nat.lt_trichotomy i j with hlt | he | hgt
  · exact absurd List.prefix_rfl (h.not_prefix hi hj hlt)
  · exact he
  · exact absurd List.prefix_rfl (h.not_prefix hj hi hgt)

theorem lt_of_concat (h : g.Placed shape places) (hi : places[i]? = some a)
    (hj : places[j]? = some (a ++ [step])) : i < j := by
  rcases Nat.lt_trichotomy i j with hlt | rfl | hgt
  · exact hlt
  · simp [hi] at hj
  · exact absurd (List.prefix_append a [step]) (h.not_prefix hj hi hgt)

theorem eq_zero_iff (h : g.Placed shape places) (hi : places[i]? = some a) :
    i = 0 ↔ a = [] := by
  constructor
  · rintro rfl
    exact Option.some.inj (hi.symm.trans h.root)
  · rintro rfl
    exact h.unique hi h.root

/-- A step that leads nowhere yet is unknown to the shape. -/
theorem at?_eq_none (h : g.Placed shape places) (hi : places[i]? = some a) (ha : a ≠ [])
    (hchild : (g.node i).child? step = none) : shape.at? (a ++ [step]) = none := by
  by_contra hne
  obtain ⟨c, hc⟩ := h.exists_node (Option.isSome_iff_ne_none.2 hne)
  rw [(h.child hi ha step c).2 hc] at hchild
  cases hchild

/-- When one node and the label of its place have changed, what held of nodes and labels still
holds if it does of these two. -/
theorem transfer (h : g.Placed shape places) (hi : places[i]? = some a) {g' : ShapeGraph}
    {shape' : Shape} {n : Node} {l : Shape.Label}
    (hnode : ∀ j, g'.node j = if j = i then n else g.node j)
    (hlabel : ∀ b, (shape'.nodeAt b).label = if b = a then l else (shape.nodeAt b).label)
    (P : Node → Shape.Label → Prop) (hj : places[j]? = some b)
    (hold : P (g.node j) (shape.nodeAt b).label) (hnew : b = a → P n l) :
    P (g'.node j) (shape'.nodeAt b).label := by
  rw [hnode, hlabel]
  by_cases he : j = i
  · subst he
    obtain rfl : b = a := Option.some.inj (hj.symm.trans hi)
    simpa using hnew rfl
  · have hne : b ≠ a := fun e => he (h.unique (e ▸ hj) hi)
    simpa [he, hne] using hold

/-! ## Marks -/

/-- Whether a change of a node and a change of a shape mark both alike. -/
structure Agree (f : Node → Node) (k : Shape → Shape) : Prop where
  fields : ∀ n, (f n).fields = n.fields
  element : ∀ n, (f n).element = n.element
  children : ∀ t, (k t).children = t.children
  shows : ∀ n t, n.Shows t.label → (f n).Shows (k t).label

theorem agree_require (r : Bool) : Agree (Node.require r) (Shape.require r) where
  fields _ := rfl
  element _ := rfl
  children t := by cases t; rfl
  shows n t h := by
    cases t
    exact ⟨congrArg (· || r) h.required, h.bound⟩

theorem agree_bind : Agree Node.bind Shape.bind where
  fields _ := rfl
  element _ := rfl
  children t := by cases t; rfl
  shows n t h := by
    cases t
    exact ⟨h.required, congrArg (· + 1) h.bound⟩

theorem agree_unbind : Agree Node.unbind Shape.unbind where
  fields _ := rfl
  element _ := rfl
  children t := by cases t; rfl
  shows n t h := by
    cases t
    exact ⟨h.required, congrArg (· - 1) h.bound⟩

theorem Agree.child? {f : Node → Node} {k : Shape → Shape} (hf : Agree f k) (n : Node)
    (step : Step) : (f n).child? step = n.child? step := by
  cases step with
  | field name => exact congrArg (List.lookup name) (hf.fields n)
  | element => exact hf.element n

/-- A mark at a node is a mark at its place. -/
theorem mark (h : g.Placed shape places) (hi : places[i]? = some a) {f : Node → Node}
    {k : Shape → Shape} (hf : Agree f k) :
    (g.modify i f).Placed (shape.update k a) places := by
  have hlabel := Shape.label_update (Shape.isLocal_of_children hf.children) (h.isSome_at? hi)
  have hnode := node_modify f (h.lt_length hi)
  have hsteps : (k (shape.nodeAt a)).label.steps = (shape.nodeAt a).label.steps :=
    congrArg (List.map Prod.fst) (hf.children (shape.nodeAt a))
  have hchild : ∀ j step, ((g.modify i f).node j).child? step = (g.node j).child? step := by
    intro j step
    rw [hnode]
    split
    · rename_i he
      rw [hf.child?, he]
    · rfl
  refine ⟨?_, h.root, fun b => ?_, h.older, fun hj => ?_, fun hj hb => ?_,
    fun hj hb step c => ?_, (hchild 0 .element).trans h.element, h.not_mem, fun b => ?_⟩
  · simp [modify, h.length_eq]
  · rw [h.mem_iff, Shape.isSome_at?_update_iff hf.children]
    refine ⟨Or.inl, fun hb => hb.elim (·) fun hprefix => ?_⟩
    obtain ⟨c, rfl⟩ := hprefix
    exact Shape.isSome_at?_of_append (h.isSome_at? hi)
  · exact h.transfer hi hnode hlabel Node.Shows hj (h.shows hj) fun _ => hf.shows _ _ (h.shows hi)
  · refine h.transfer hi hnode hlabel
      (fun n l => n.fields.map (·.1) = l.steps.filterMap Step.name?) hj (h.names hj hb)
      fun hba => ?_
    rw [hf.fields, hsteps, h.names hi (hba ▸ hb)]
  · rw [hchild]
    exact h.child hj hb step c
  · rw [hlabel]
    split
    · rw [hsteps]
      exact h.distinct a
    · exact h.distinct b

/-- What fields the root has is not a matter of places. -/
theorem modifyRoot (h : g.Placed shape places) (f : List (String × Nat) → List (String × Nat)) :
    (g.modifyRoot f).Placed shape places := by
  have hnode := node_modify (fun n => { n with fields := f n.fields }) (h.lt_length h.root)
  have hne : ∀ {j b}, places[j]? = some b → b ≠ [] → (g.modifyRoot f).node j = g.node j :=
    fun hj hb => (hnode _).trans (if_neg (mt (h.eq_zero_iff hj).1 hb))
  have hroot : (g.modifyRoot f).node 0 = { g.node 0 with fields := f (g.node 0).fields } :=
    (hnode 0).trans (if_pos rfl)
  refine ⟨?_, h.root, h.mem_iff, h.older, fun {j b} hj => ?_, fun hj hb => ?_, fun hj hb => ?_, ?_,
    h.not_mem, h.distinct⟩
  · simp [ShapeGraph.modifyRoot, modify, h.length_eq]
  · by_cases hb : b = []
    · obtain rfl := (h.eq_zero_iff hj).2 hb
      rw [hroot]
      exact ⟨(h.shows hj).required, (h.shows hj).bound⟩
    · rw [hne hj hb]
      exact h.shows hj
  · rw [hne hj hb]
    exact h.names hj hb
  · rw [hne hj hb]
    exact h.child hj hb
  · rw [hroot]
    exact h.element

/-! ## New nodes -/

theorem getElem?_concat :
    (places ++ [b])[i]? = some a ↔ places[i]? = some a ∨ i = places.length ∧ b = a := by
  rcases Nat.lt_trichotomy i places.length with hlt | rfl | hgt
  · simp [List.getElem?_append, hlt, Nat.ne_of_lt hlt]
  · simp
  · simp [List.getElem?_append, Nat.not_lt_of_gt hgt, Nat.ne_of_gt hgt,
      Nat.sub_ne_zero_of_lt hgt]

theorem getElem?_append_of_some (h : places[i]? = some a) (more : List Address) :
    (places ++ more)[i]? = some a := by
  rw [List.getElem?_append_left (List.getElem?_eq_some_iff.1 h).1, h]

theorem shows_attach {n : Node} {l : Shape.Label} (h : n.Shows l) (child : Nat) (step : Step)
    (steps : List Step) : (n.attach child step).Shows { l with steps } := by
  cases step <;> exact ⟨h.required, h.bound⟩

theorem names_attach (n : Node) (child : Nat) (step : Step) :
    (n.attach child step).fields.map (·.1) = n.fields.map (·.1) ++ step.name?.toList := by
  cases step <;> simp [Node.attach]

/-- Nothing is at a place that the shape does not know, or further down. -/
theorem not_below (h : g.Placed shape places) (hnone : shape.at? a = none)
    (hj : places[j]? = some b) : ¬ a <+: b := by
  rintro ⟨c, rfl⟩
  have hsome := Shape.isSome_at?_of_append (h.isSome_at? hj)
  rw [hnone] at hsome
  cases hsome

theorem node_grow_new (h : g.Placed shape places) (hi : places[i]? = some a) (step : Step) :
    (g.grow i step).node places.length = {} := by
  rw [node_grow step (h.lt_length hi), h.length_eq, if_neg (Nat.ne_of_gt (h.lt_length hi))]
  exact node_of_le (Nat.le_refl _)

theorem label_new (h : g.Placed shape places) (hi : places[i]? = some a)
    (hnone : shape.at? (a ++ [step]) = none) :
    ((shape.update id (a ++ [step])).nodeAt (a ++ [step])).label = Shape.fresh.label := by
  rw [Shape.label_child (h.isSome_at? hi) hnone, if_neg (by simp), Shape.nodeAt, hnone]
  rfl

theorem mem_iff_grow (h : g.Placed shape places) (hi : places[i]? = some a) (step : Step)
    (b : Address) :
    b ∈ places ++ [a ++ [step]] ↔
      ((shape.update id (a ++ [step])).at? b).isSome = true := by
  have hway : b <+: a → (shape.at? b).isSome = true := by
    rintro ⟨c, rfl⟩
    exact Shape.isSome_at?_of_append (h.isSome_at? hi)
  rw [List.mem_append, List.mem_singleton, h.mem_iff,
    Shape.isSome_at?_update_iff (f := id) (fun _ => rfl), List.prefix_concat_iff]
  tauto

theorem child_grow (h : g.Placed shape places) (hi : places[i]? = some a)
    (hnone : shape.at? (a ++ [step]) = none) (hchild : (g.node i).child? step = none)
    (hj : places[j]? = some b) (hb : b ≠ []) (other : Step) (c : Nat) :
    ((g.grow i step).node j).child? other = some c ↔
      (places ++ [a ++ [step]])[c]? = some (b ++ [other]) := by
  rw [node_grow step (h.lt_length hi), getElem?_concat]
  -- A node that has not grown leads to none of the new places, since it is at another place.
  by_cases he : j = i
  · subst he
    obtain rfl : b = a := Option.some.inj (hj.symm.trans hi)
    rw [if_pos rfl, child?_attach hchild, ← h.length_eq]
    by_cases hs : other = step
    · subst hs
      have hnot : ¬ places[c]? = some (b ++ [other]) := fun hc =>
        h.not_below hnone hc List.prefix_rfl
      simp [hnot, eq_comm]
    · simp [hs, Ne.symm hs, h.child hi hb]
  · have hne : a ≠ b := fun e => he (h.unique hj (e ▸ hi))
    rw [if_neg he, h.child hj hb]
    simp [hne]

/-- A new node leads nowhere, and nothing is below its place. -/
theorem child_grow_new (h : g.Placed shape places) (hi : places[i]? = some a)
    (hnone : shape.at? (a ++ [step]) = none) (other : Step) (c : Nat) :
    ((g.grow i step).node places.length).child? other = some c ↔
      (places ++ [a ++ [step]])[c]? = some (a ++ [step] ++ [other]) := by
  rw [h.node_grow_new hi, getElem?_concat]
  refine iff_of_false (by cases other <;> simp [Node.child?]) ?_
  rintro (hc | ⟨-, he⟩)
  · exact h.not_below hnone hc (List.prefix_append _ _)
  · simp at he

theorem element_grow (h : g.Placed shape places) (hi : places[i]? = some a)
    (hroot : a = [] → step ≠ .element) : ((g.grow i step).node 0).element = none := by
  rw [node_grow step (h.lt_length hi)]
  split
  · rename_i he
    subst he
    cases step with
    | field name => exact h.element
    | element => exact absurd rfl (hroot ((h.eq_zero_iff hi).1 rfl))
  · exact h.element

/-- A node that a new step leads to is at the next place. -/
theorem grow (h : g.Placed shape places) (hi : places[i]? = some a)
    (hnone : shape.at? (a ++ [step]) = none) (hchild : (g.node i).child? step = none)
    (hroot : a = [] → step ≠ .element) :
    (g.grow i step).Placed (shape.update id (a ++ [step])) (places ++ [a ++ [step]]) := by
  have hlabel := Shape.label_child (h.isSome_at? hi) hnone
  have hnode := node_grow step (h.lt_length hi)
  refine ⟨?_, getElem?_append_of_some h.root _, h.mem_iff_grow hi step, ?_, fun hj => ?_,
    fun hj hb => ?_, fun hj hb => ?_, h.element_grow hi hroot, ?_, fun b => ?_⟩
  · simp [ShapeGraph.grow, h.length_eq]
  -- The new place comes last, so that it is enough that nothing older is below it.
  · refine List.pairwise_append.2 ⟨h.older, List.pairwise_singleton _ _, fun b hb c hc => ?_⟩
    obtain rfl := List.mem_singleton.1 hc
    obtain ⟨j, hj⟩ := List.mem_iff_getElem?.1 hb
    exact h.not_below hnone hj
  · rcases getElem?_concat.1 hj with hj | ⟨rfl, rfl⟩
    · exact h.transfer hi hnode hlabel Node.Shows hj (h.shows hj) fun _ =>
        shows_attach (h.shows hi) _ _ _
    · rw [h.node_grow_new hi, h.label_new hi hnone]
      exact ⟨rfl, rfl⟩
  · rcases getElem?_concat.1 hj with hj | ⟨rfl, rfl⟩
    · refine h.transfer hi hnode hlabel
        (fun n l => n.fields.map (·.1) = l.steps.filterMap Step.name?) hj (h.names hj hb)
        fun hba => ?_
      rw [names_attach, h.names hi (hba ▸ hb), List.filterMap_append]
      cases step <;> rfl
    · rw [h.node_grow_new hi, h.label_new hi hnone]
      rfl
  · rcases getElem?_concat.1 hj with hj | ⟨rfl, rfl⟩
    · exact h.child_grow hi hnone hchild hj hb
    · exact h.child_grow_new hi hnone
  · rw [List.mem_append, List.mem_singleton]
    rintro (hmem | he)
    · exact h.not_mem hmem
    · cases a with
      | nil => exact hroot rfl (List.singleton_inj.1 he).symm
      | cons other a => simp at he
  · rw [hlabel]
    split
    · rw [← List.concat_eq_append]
      exact (h.distinct a).concat (Shape.not_mem_steps (h.isSome_at? hi) hnone)
    · exact h.distinct b

end Placed
end ShapeGraph
end HtmlTemplate
