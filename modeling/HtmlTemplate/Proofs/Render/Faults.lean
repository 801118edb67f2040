import HtmlTemplate.Proofs.Render.Leaves
import HtmlTemplate.Value.Lookup

/-!
# Faults — what a computation can stop with

`Render.Blames Q x` says that whatever fault `x` stops with has the property `Q`; it is the other
side of `Render.Ensures`.  A value may refuse what it is asked for: its text, its truth, its length,
its items to their end, or a member (`Value.Refuses`).  Every fault of following a path, of testing a
value or of going through it goes back to some value that is reached on the way and refuses.
-/

namespace HtmlTemplate

open Text

namespace Value

/-! ## Values that are reached -/

/-- The values that are reached from a root by following segments and going through values. -/
inductive Reached (root : Value) : Value → Prop
  | here : Reached root root
  | step {v w : Value} {segment : String} :
      Reached root v → v.step segment = .ok w → Reached root w
  | element {v w : Value} : Reached root v → w ∈ v.elements → Reached root w

/-- Whether a value refuses what it is asked for, with a fault. -/
inductive Refuses (v : Value) (fault : RenderFault) : Prop
  | text : v.text = .error fault → Refuses v fault
  | truth : v.truth = .error fault → Refuses v fault
  | length : v.size? = some (.error fault) → Refuses v fault
  | items : v.breaksOff = true → fault = .conversion → Refuses v fault
  /-- A member is refused, though nothing is wrong with its name. -/
  | member {segment : String} :
      index? segment.toList ≠ some (.error fault) → v.step segment = .error fault →
        Refuses v fault

/-- Whether a value that is reached from a root refuses. -/
def Blamed (root : Value) (fault : RenderFault) : Prop :=
  ∃ v, Reached root v ∧ v.Refuses fault

section Reached

variable {root v w : Value} {fault : RenderFault}

theorem reached_lookup {path : List String} (hv : Reached root v) (h : v.lookup path = .ok w) :
    Reached root w := by
  induction path generalizing v with
  | nil =>
    cases h
    exact hv
  | cons segment rest ih =>
    obtain ⟨next, hstep, hnext⟩ := Except.bind_eq_ok.1 h
    exact ih (hv.step hstep) hnext

theorem blamed_of_lookup {path : List String} (hv : Reached root v)
    (hindex : ∀ segment ∈ path, index? segment.toList ≠ some (.error fault))
    (h : v.lookup path = .error fault) : Blamed root fault := by
  induction path generalizing v with
  | nil => cases h
  | cons segment rest ih =>
    obtain ⟨hsegment, hrest⟩ := List.forall_mem_cons.1 hindex
    rcases Except.bind_eq_error.1 h with hstep | ⟨next, hstep, hnext⟩
    · exact ⟨v, hv, .member hsegment hstep⟩
    · exact ih (hv.step hstep) hrest hnext

/-- Whether a leaf is reached from a root, or is the fault of a value that is. -/
def Traced (root : Value) : Leaf → Prop
  | .ok w => Reached root w
  | .error fault => Blamed root fault

/-- A value that is not gone through is reached as its only leaf. -/
theorem traced_singleton (hv : Reached root v) : ∀ leaf ∈ [.ok v], Traced root leaf :=
  List.forall_mem_singleton.2 hv

mutual

/-- The leaves of a value are reached through it, or stopped at on the way. -/
theorem traced_of_mem_leaves : ∀ (v : Value) (p : Progress), Reached root v →
    ∀ leaf ∈ (v.leaves p).1, Traced root leaf
  | .none, _, hv => traced_singleton hv
  | .bool _, _, hv => traced_singleton hv
  | .int _, _, hv => traced_singleton hv
  | .float _, _, hv => traced_singleton hv
  | .str _, _, hv => traced_singleton hv
  | .markup _, _, hv => traced_singleton hv
  | .bytes _, _, hv => traced_singleton hv
  | .list items, p, hv =>
    traced_of_mem_leavesFrom 0 items p (fun h => nomatch h) fun _ hitem => hv.element hitem
  | .tuple items, p, hv =>
    traced_of_mem_leavesFrom 0 items p (fun h => nomatch h) fun _ hitem => hv.element hitem
  | .range _ _ _, _, hv => List.forall_mem_map.2 fun _ hitem => hv.element hitem
  | .dict entries, p, hv =>
    traced_of_mem_leavesOfKeys entries p fun _ hentry => hv.element (List.mem_map_of_mem hentry)
  | .iterator _ items, _, hv =>
    traced_of_mem_leavesFrom _ items _ (fun h => ⟨_, hv, .items h rfl⟩) fun _ hitem =>
      hv.element hitem
  | .function _, _, hv => traced_singleton hv
  | .object _ _ Option.none, _, hv => traced_singleton hv
  | .object _ _ (some items), p, hv =>
    traced_of_mem_leavesFrom 0 items p (fun h => ⟨_, hv, .items h rfl⟩) fun _ hitem =>
      hv.element hitem

theorem traced_of_mem_leavesFrom {breaksOff : Bool} : ∀ (n : Nat) (vs : List Value) (p : Progress),
    (breaksOff = true → Blamed root .conversion) → (∀ v ∈ vs, Reached root v) →
    ∀ leaf ∈ (leavesFrom breaksOff n vs p).1, Traced root leaf
  | _, [], _, hend, _ => by
    rw [leavesFrom]
    cases breaksOff with
    | false => exact List.forall_mem_nil _
    | true => exact List.forall_mem_singleton.2 (hend rfl)
  | 0, v :: vs, p, hend, hvs => by
    obtain ⟨hv, hvs⟩ := List.forall_mem_cons.1 hvs
    rw [leavesFrom]
    exact List.forall_mem_append.2
      ⟨traced_of_mem_leaves v p hv, traced_of_mem_leavesFrom 0 vs _ hend hvs⟩
  | n + 1, v :: vs, p, hend, hvs => by
    rw [leavesFrom]
    exact traced_of_mem_leavesFrom n vs p hend (List.forall_mem_cons.1 hvs).2

theorem traced_of_mem_leavesOfKeys : ∀ (entries : List (Value × Value)) (p : Progress),
    (∀ entry ∈ entries, Reached root entry.1) →
    ∀ leaf ∈ (leavesOfKeys entries p).1, Traced root leaf
  | [], _, _ => by
    rw [leavesOfKeys]
    exact List.forall_mem_nil _
  | (k, v) :: rest, p, hentries => by
    obtain ⟨hk, hrest⟩ := List.forall_mem_cons.1 hentries
    rw [leavesOfKeys]
    exact List.forall_mem_append.2
      ⟨traced_of_mem_leaves k p hk, traced_of_mem_leavesOfKeys rest _ hrest⟩

end

end Reached

/-- A test fails only in asking whether the value is true. -/
theorem truth_of_check {v : Value} {fault : RenderFault} (h : v.check = .error fault) :
    v.truth = .error fault := by
  unfold check at h
  split at h
  · cases h
  · exact h

end Value

/-! ## Computations -/

namespace Render

variable {α β : Type} {P : α → Prop} {Q : RenderFault → Prop}

/-- Whether every fault has a property. -/
def Blames (Q : RenderFault → Prop) (x : Render α) : Prop :=
  ∀ p fault, x.run p = .error fault → Q fault

namespace Blames

theorem pure (a : α) : Blames Q (pure a) := by
  intro p fault h
  cases h

/-- The rest of a computation may rely on what the start ensures. -/
theorem bind {x : Render α} {f : α → Render β} (hx : Blames Q x) (hresult : Ensures P x)
    (hf : ∀ a, P a → Blames Q (f a)) : Blames Q (x >>= f) := by
  intro p fault h
  rw [StateT.run_bind] at h
  rcases Except.bind_eq_error.1 h with hstart | ⟨result, hstart, hrest⟩
  · exact hx p fault hstart
  · exact hf result.1 (hresult p result.1 result.2 hstart) result.2 fault hrest

theorem ofExcept {x : Except RenderFault α} (h : ∀ fault, x = .error fault → Q fault) :
    Blames Q (Render.ofExcept x) := by
  intro p fault hrun
  cases x with
  | error fault' =>
    cases hrun
    exact h fault rfl
  | ok a => cases hrun

theorem taken (id : Nat) : Blames Q (Render.taken id) := by
  intro p fault h
  cases h

theorem setTaken (id count : Nat) : Blames Q (Render.setTaken id count) := by
  intro p fault h
  cases h

theorem ended {breaksOff : Bool} (h : breaksOff = true → Q .conversion) :
    Blames Q (Render.ended breaksOff) := by
  intro p fault hrun
  cases breaksOff with
  | false => cases hrun
  | true =>
    cases hrun
    exact h rfl

theorem isNonempty {v : Value} (hsize : ∀ fault, v.size? = some (.error fault) → Q fault)
    (hend : v.breaksOff = true → Q .conversion) : Blames Q (Render.isNonempty v) := by
  unfold Render.isNonempty
  split
  · refine (taken _).bind (Ensures.any _) fun n _ => ?_
    split
    · exact (setTaken _ _).bind (Ensures.any _) fun _ _ => pure true
    · exact (ended hend).bind (Ensures.any _) fun _ _ => pure false
  · split
    · split
      · rename_i size hsome
        refine (ofExcept fun fault hfault => ?_).bind (Ensures.any _) fun n _ => pure _
        exact hsize fault (hfault ▸ hsome)
      · split
        · exact pure true
        · exact (ended hend).bind (Ensures.any _) fun _ _ => pure false
    · exact pure false

/-! ## Going through a value -/

variable {f : Value → Render α}

theorem eachItem {vs : List Value} (h : ∀ v ∈ vs, Blames Q (f v)) :
    Blames Q (Render.eachItem f vs) := by
  induction vs with
  | nil => exact pure []
  | cons v vs ih =>
    obtain ⟨hv, hvs⟩ := List.forall_mem_cons.1 h
    exact hv.bind (Ensures.any _) fun first _ => (ih hvs).bind (Ensures.any _) fun rest _ => pure _

theorem eachLeft {items : List Value} (h : ∀ v ∈ items, Blames Q (f v)) {id : IteratorId}
    (hend : id.failing = true → Q .conversion) (count : Nat) :
    Blames Q (Render.eachLeft f id items count) := by
  induction count with
  | zero => exact pure []
  | succ count ih =>
    refine (taken id.number).bind (Ensures.any _) fun n _ => ?_
    cases hv : items[n]? with
    | none => exact (ended hend).bind (Ensures.any _) fun _ _ => pure []
    | some v =>
      refine (setTaken id.number (n + 1)).bind (Ensures.any _) fun _ _ => ?_
      refine (h v (List.mem_of_getElem? hv)).bind (Ensures.any _) fun first _ => ?_
      exact ih.bind (Ensures.any _) fun rest _ => pure _

theorem eachOf {v : Value} (h : ∀ element ∈ v.elements, Blames Q (f element))
    (hend : v.breaksOff = true → Q .conversion) : Blames Q (Render.eachOf v f) := by
  unfold Render.eachOf
  split
  · exact eachLeft h hend _
  · rename_i hiterator
    split
    · rename_i items hitems
      refine (eachItem (Value.elements_of_items hiterator hitems ▸ h)).bind (Ensures.any _)
        fun results _ => ?_
      exact (ended hend).bind (Ensures.any _) fun _ _ => pure results
    · exact pure []

end Blames
end Render
end HtmlTemplate
