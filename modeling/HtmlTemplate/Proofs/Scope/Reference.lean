import HtmlTemplate.Proofs.Scope.Operation
import HtmlTemplate.Proofs.Shape.Node

/-!
# Reference — what a run of calls reads, by absolute addresses

Every path that a run mentions is resolved through the bindings that are live at that moment: to the
names that it follows from the context, or from the elements of a loop.  `references` lists them in
their order, without any scope, and `Shape.ofReferences` is the tree that they make when each is
inserted along its whole way.

`Shape.Records` says what a tree knows of a list of references, node by node, and
`Shape.records_ofReferences` that the tree made from them knows exactly that.
-/

namespace HtmlTemplate

/-- A path that is read: the names that it follows from the context's root or, when it starts with a
live binding, from the elements that the binding stands for. -/
structure Reference where
  start : Address
  names : List String
  required : Bool
  iterated : Bool
  deriving DecidableEq, Repr

/-- The open blocks, the innermost first, each with its live binding if it has one. -/
abbrev Blocks := List (Option (String × Address))

namespace Blocks

/-- What the innermost live binding of a name stands for. -/
def addressOf (name : String) : Blocks → Option Address
  | [] => none
  | none :: rest => addressOf name rest
  | some (n, a) :: rest => if n = name then some a else addressOf name rest

end Blocks

namespace Reference

/-- The reference of a path, resolved through the live bindings. -/
def ofPath (blocks : Blocks) (path : String) (required iterated : Bool) : Reference :=
  let names := Path.segments path
  match blocks.addressOf (names.headD "") with
  | some a => ⟨a, names.tail, required, iterated⟩
  | none => ⟨[], names, required, iterated⟩

section OfPath

variable {blocks : Blocks} {path head : String} {rest : List String} (required iterated : Bool)

theorem ofPath_of_some {a : Address} (hp : Path.segments path = head :: rest)
    (ha : blocks.addressOf head = some a) :
    ofPath blocks path required iterated = ⟨a, rest, required, iterated⟩ := by
  simp [ofPath, hp, ha]

theorem ofPath_of_none (hp : Path.segments path = head :: rest)
    (ha : blocks.addressOf head = none) :
    ofPath blocks path required iterated = ⟨[], head :: rest, required, iterated⟩ := by
  simp [ofPath, hp, ha]

theorem ofPath_required : (ofPath blocks path required iterated).required = required := by
  simp only [ofPath]
  split <;> rfl

end OfPath

/-- The steps that a reference takes, each with whether it marks the node that it leads to.  Only
the names that are written out mark. -/
def steps (r : Reference) : List (Step × Bool) :=
  r.start.map (·, false) ++ r.names.map (Step.field ·, r.required) ++
    if r.iterated then [(.element, false)] else []

/-- The absolute address that a reference leads to. -/
def address (r : Reference) : Address :=
  r.start ++ r.names.map Step.field ++ if r.iterated then [.element] else []

end Reference

namespace Operation

/-- The path that a call reads. -/
def reference? (blocks : Blocks) : Operation → Option Reference
  | .record path required => some (.ofPath blocks path required false)
  | .nestIterable path _ => some (.ofPath blocks path false true)
  | _ => none

/-- The open blocks after a call. -/
def blocks (blocks : Blocks) : Operation → Blocks
  | .nestIterable path binding =>
    (if binding.isEmpty then none
      else some (binding, (Reference.ofPath blocks path false true).address)) :: blocks
  | .nestPlain => none :: blocks
  | .enterElse => none :: blocks.tail
  | .pop => blocks.tail
  | .record _ _ => blocks
  | .finish => blocks

end Operation

/-- The paths that a run reads, in order. -/
def references : Blocks → List Operation → List Reference
  | _, [] => []
  | blocks, operation :: rest =>
    (operation.reference? blocks).toList ++ references (operation.blocks blocks) rest

/-! ## The tree of references -/

namespace Shape

/-- Goes along steps, making the nodes on the way and marking those that are to be marked. -/
def insertAlong : List (Step × Bool) → Shape → Shape
  | [], s => s
  | (step, mark) :: rest, s => s.updateChild step fun c => insertAlong rest (c.require mark)

/-- The tree of references, inserted one after another. -/
def ofReferences (refs : List Reference) : Shape :=
  refs.foldl (fun s r => insertAlong r.steps s) fresh

/-- The step that a way takes from an address, if it passes there. -/
def next? : Address → Address → Option Step
  | step :: _, [] => some step
  | step :: way, other :: a => if step = other then next? way a else none
  | [], _ => none

theorem next?_nil (way : Address) : next? way [] = way.head? := by
  cases way <;> rfl

/-- Whether a tree knows of its nodes just what references tell. -/
structure Records (s : Shape) (refs : List Reference) : Prop where
  /-- The keys of a node come in the order in which references first lead to them. -/
  fieldNames : ∀ a, (s.nodeAt a).fieldNames =
    (refs.filterMap fun r => (next? r.address a).bind Step.name?).eraseDups
  /-- A field is required if a required reference passes through it, and names it. -/
  required : ∀ a name, (s.nodeAt (a ++ [.field name])).required = true ↔
    ∃ r ∈ refs, r.required = true ∧ r.start.length ≤ a.length ∧
      next? r.address a = some (.field name)
  /-- A node is iterated if a reference goes on to its elements. -/
  iterated : ∀ a, (s.nodeAt a).isIterated = true ↔
    ∃ r ∈ refs, next? r.address a = some .element

/-! ## What one insertion changes -/

section Insertion

variable (s : Shape) (way : List (Step × Bool))

theorem nodeAt_require_of_eq {α : Type} {g : Shape → α}
    (h : ∀ s r, g (Shape.require r s) = g s) (r : Bool) (a : Address) :
    g ((s.require r).nodeAt a) = g (s.nodeAt a) := by
  cases a with
  | nil => exact h s r
  | cons step a => rw [nodeAt_require_cons]

theorem fieldNames_insertAlong (a : Address) :
    ((insertAlong way s).nodeAt a).fieldNames =
      match (next? (way.map (·.1)) a).bind Step.name? with
      | some name =>
        if name ∈ (s.nodeAt a).fieldNames then (s.nodeAt a).fieldNames
        else (s.nodeAt a).fieldNames ++ [name]
      | none => (s.nodeAt a).fieldNames := by
  induction a generalizing s way with
  | nil =>
    cases way with
    | nil => rfl
    | cons entry way =>
      obtain ⟨step, mark⟩ := entry
      cases step with
      | field name =>
        by_cases hc : (s.child? (.field name)).isSome = true
        · simp [insertAlong, fieldNames_updateChild, next?, mem_fieldNames, hc]
        · simp [insertAlong, fieldNames_updateChild, next?, mem_fieldNames, hc]
      | element => simp [insertAlong, fieldNames_updateChild, next?]
  | cons other a ih =>
    cases way with
    | nil => rfl
    | cons entry way =>
      obtain ⟨step, mark⟩ := entry
      -- The way takes the next step of the address too, or it has left it for good.
      by_cases h : step = other
      · subst h
        have hr := nodeAt_require_of_eq (s.nodeAt [step]) (g := fieldNames)
          fieldNames_require mark a
        simp only [insertAlong, nodeAt_updateChild_self, ih, hr, ← nodeAt_append, List.map_cons,
          next?, if_pos, List.singleton_append]
      · have hne : other ≠ step := fun e => h e.symm
        simp [insertAlong, nodeAt_updateChild_ne _ _ hne, next?, h]

theorem isIterated_insertAlong (a : Address) :
    ((insertAlong way s).nodeAt a).isIterated = true ↔
      (s.nodeAt a).isIterated = true ∨ next? (way.map (·.1)) a = some .element := by
  induction a generalizing s way with
  | nil =>
    cases way with
    | nil => simp [insertAlong, next?]
    | cons entry way =>
      obtain ⟨step, mark⟩ := entry
      cases step <;> simp [insertAlong, isIterated, child?_updateChild, next?]
  | cons other a ih =>
    cases way with
    | nil => simp [insertAlong, next?]
    | cons entry way =>
      obtain ⟨step, mark⟩ := entry
      by_cases h : step = other
      · subst h
        have hr := nodeAt_require_of_eq (s.nodeAt [step]) (g := isIterated)
          (fun s r => by simp [isIterated]) mark a
        simp only [insertAlong, nodeAt_updateChild_self, ih, hr, ← nodeAt_append, List.map_cons,
          next?, if_pos, List.singleton_append]
      · have hne : other ≠ step := fun e => h e.symm
        simp [insertAlong, nodeAt_updateChild_ne _ _ hne, next?, h]

/-- Whether steps mark the node that they lead to by one step from an address. -/
def marksAfter : List (Step × Bool) → Address → Step → Bool
  | (step, mark) :: _, [], target => step == target && mark
  | (step, _) :: way, other :: a, target => step == other && marksAfter way a target
  | [], _, _ => false

@[simp] theorem required_insertAlong_nil : (insertAlong way s).required = s.required := by
  cases way with
  | nil => rfl
  | cons entry way => simp [insertAlong]

theorem required_insertAlong (a : Address) (target : Step) :
    ((insertAlong way s).nodeAt (a ++ [target])).required =
      ((s.nodeAt (a ++ [target])).required || marksAfter way a target) := by
  induction a generalizing s way with
  | nil =>
    cases way with
    | nil => simp [insertAlong, marksAfter]
    | cons entry way =>
      obtain ⟨step, mark⟩ := entry
      by_cases h : step = target
      · subst h
        simp [insertAlong, nodeAt_updateChild_self, marksAfter]
      · have hne : target ≠ step := fun e => h e.symm
        simp [insertAlong, nodeAt_updateChild_ne _ _ hne, marksAfter, h]
  | cons other a ih =>
    cases way with
    | nil => simp [insertAlong, marksAfter]
    | cons entry way =>
      obtain ⟨step, mark⟩ := entry
      by_cases h : step = other
      · subst h
        -- The mark of this step is set at the node that it leads to, which is above the target.
        have hr : ((s.nodeAt [step]).require mark).nodeAt (a ++ [target]) =
            s.nodeAt (step :: (a ++ [target])) := by
          rw [show s.nodeAt (step :: (a ++ [target])) = (s.nodeAt [step]).nodeAt (a ++ [target])
            from nodeAt_append s [step] (a ++ [target])]
          cases a with
          | nil => exact nodeAt_require_cons (s.nodeAt [step]) mark target []
          | cons next a => exact nodeAt_require_cons (s.nodeAt [step]) mark next (a ++ [target])
        simp [insertAlong, nodeAt_updateChild_self, ih, hr, marksAfter]
      · have hne : other ≠ step := fun e => h e.symm
        simp [insertAlong, nodeAt_updateChild_ne _ _ hne, marksAfter, h]

end Insertion

end Shape

/-! ## The steps of a reference -/

namespace Reference

theorem map_fst_steps (r : Reference) : r.steps.map (·.1) = r.address := by
  obtain ⟨start, names, required, iterated⟩ := r
  cases iterated <;> simp [steps, address, Function.comp_def]

theorem marksAfter_names (names : List String) (required iterated : Bool) (a : Address)
    (name : String) :
    Shape.marksAfter (names.map (Step.field ·, required) ++
        if iterated then [(.element, false)] else []) a (.field name) = true ↔
      required = true ∧ Shape.next? (names.map Step.field ++
        if iterated then [.element] else []) a = some (.field name) := by
  induction names generalizing a with
  | nil =>
    cases iterated with
    | false => simp [Shape.marksAfter, Shape.next?]
    | true =>
      cases a with
      | nil => simp [Shape.marksAfter, Shape.next?]
      | cons step a =>
        by_cases h : Step.element = step <;> simp [Shape.marksAfter, Shape.next?, h]
  | cons n names ih =>
    cases a with
    | nil =>
      simp only [List.map_cons, List.cons_append, Shape.marksAfter, Shape.next?, Bool.and_eq_true,
        beq_iff_eq, Option.some.injEq]
      exact and_comm
    | cons step a =>
      by_cases h : Step.field n = step
      · simpa [Shape.marksAfter, Shape.next?, h] using ih a
      · simp [Shape.marksAfter, Shape.next?, h]

/-- A reference marks a field just if it is required and names the field. -/
theorem marksAfter_steps (r : Reference) (a : Address) (name : String) :
    Shape.marksAfter r.steps a (.field name) = true ↔
      r.required = true ∧ r.start.length ≤ a.length ∧
        Shape.next? r.address a = some (.field name) := by
  obtain ⟨start, names, required, iterated⟩ := r
  simp only [steps, address, List.append_assoc]
  induction start generalizing a with
  -- The steps up to the start of the reference mark nothing, those of its names do.
  | nil => simpa using marksAfter_names names required iterated a name
  | cons step start ih =>
    cases a with
    | nil => simp [Shape.marksAfter]
    | cons other a =>
      by_cases h : step = other
      · simpa [Shape.marksAfter, Shape.next?, h] using ih a
      · simp [Shape.marksAfter, Shape.next?, h]

end Reference

/-! ## What the tree of references knows -/

/-- One more element comes last unless it was there. -/
theorem eraseDups_concat (l : List String) (x : String) :
    (l ++ [x]).eraseDups = if x ∈ l.eraseDups then l.eraseDups else l.eraseDups ++ [x] := by
  rw [List.eraseDups_append]
  by_cases h : x ∈ l
  · simp [h, List.removeAll, List.mem_eraseDups]
  · simp [h, List.removeAll, List.mem_eraseDups, List.eraseDups_cons]

namespace Shape

theorem records_fresh : fresh.Records [] := by
  refine ⟨fun a => ?_, fun a name => ?_, fun a => ?_⟩
  · simp
  · rw [nodeAt_fresh]
    simp [fresh, Shape.required]
  · rw [nodeAt_fresh]
    simp [fresh, isIterated, child?, children]

/-- One more reference. -/
theorem Records.insert {s : Shape} {refs : List Reference} (h : s.Records refs) (r : Reference) :
    (insertAlong r.steps s).Records (refs ++ [r]) := by
  refine ⟨fun a => ?_, fun a name => ?_, fun a => ?_⟩
  · rw [fieldNames_insertAlong, r.map_fst_steps, h.fieldNames, List.filterMap_append]
    cases hn : (next? r.address a).bind Step.name? with
    | none => simp [hn]
    | some name =>
      have hr : [r].filterMap (fun r => (next? r.address a).bind Step.name?) = [name] := by
        simp [hn]
      rw [hr, eraseDups_concat]
  · rw [required_insertAlong, Bool.or_eq_true, h.required, r.marksAfter_steps]
    simp [or_and_right, exists_or]
  · rw [isIterated_insertAlong, h.iterated, r.map_fst_steps]
    simp [or_and_right, exists_or]

/-- The tree of references knows just what they tell. -/
theorem records_ofReferences (refs : List Reference) : (ofReferences refs).Records refs := by
  -- Generalised over the references that are in the tree already.
  have run : ∀ (rest done : List Reference) (s : Shape), s.Records done →
      (rest.foldl (fun s r => insertAlong r.steps s) s).Records (done ++ rest) := by
    intro rest
    induction rest with
    | nil => simp
    | cons r rest ih =>
      intro done s h
      simpa using ih (done ++ [r]) _ (h.insert r)
  exact run refs [] fresh records_fresh

end Shape
end HtmlTemplate
