import HtmlTemplate.Proofs.Shape.Shown
import Mathlib.Algebra.Order.BigOperators.Group.List
import Mathlib.Algebra.Order.Ring.Nat

/-!
# Growth — a shape with more nodes has a longer text

Walking an address that a shape knows changes nothing, and walking a new one makes the text of the
shape longer, as every node that is made comes with a line of its own (`Shape.grows_update`).  So
it can be told from the length of the text alone whether a walk has left anything.
-/

namespace HtmlTemplate

namespace Shape

/-! ## Walks -/

section Walks

variable (s : Shape) (f : Shape → Shape)

theorem update_append (a b : Address) : update f (a ++ b) s = update (update f b) a s := by
  induction a generalizing s with
  | nil => rfl
  | cons step a ih => exact congrArg (s.updateChild step) (funext ih)

theorem at?_append (a b : Address) : s.at? (a ++ b) = (s.at? a).bind (·.at? b) := by
  induction a generalizing s with
  | nil => rfl
  | cons step a ih =>
    cases hc : s.child? step with
    | none => simp [at?, hc]
    | some child => simp [at?, hc, ih]

/-- What a change makes of the node at the address of an earlier walk. -/
theorem at?_update_append (a b : Address) :
    (update f (a ++ b) s).at? a = some (update f b (s.nodeAt a)) := by
  induction a generalizing s with
  | nil => rfl
  | cons step a ih =>
    rw [List.cons_append, update, at?, child?_updateChild, if_pos rfl, Option.bind_some, ih,
      nodeAt_cons]

theorem updateChildren_of_lookup {step : Step} {f : Shape → Shape} {child : Shape}
    {c : List (Step × Shape)} (hc : c.lookup step = some child) (h : f child = child) :
    updateChildren step f c = c := by
  induction c with
  | nil => simp at hc
  | cons entry rest ih =>
    obtain ⟨key, other⟩ := entry
    by_cases hk : key = step
    · subst hk
      simp only [List.lookup_cons_self, Option.some.injEq] at hc
      simp [updateChildren, hc, h]
    · rw [lookup_cons_ne (Ne.symm hk)] at hc
      simp [updateChildren, hk, ih hc]

/-- A walk to a known node leaves nothing. -/
theorem update_id_of_isSome {a : Address} (h : (s.at? a).isSome = true) : update id a s = s := by
  induction a generalizing s with
  | nil => rfl
  | cons step a ih =>
    obtain ⟨r, b, c⟩ := s
    cases hc : c.lookup step with
    | none => simp [at?, child?, children, hc] at h
    | some child =>
      have hchild : (child.at? a).isSome = true := by
        simpa [at?, child?, children, hc] using h
      rw [update, updateChild, updateChildren_of_lookup hc (ih child hchild)]

/-- Walking an address once more, and then on, is walking on at once. -/
theorem update_update_append (a b : Address) :
    update id (a ++ b) (update id a s) = update id (a ++ b) s := by
  induction a generalizing s with
  | nil => rfl
  | cons step a ih =>
    obtain ⟨r, n, c⟩ := s
    simp only [List.cons_append, update, updateChild, updateChildren_updateChildren]
    exact congrArg (fun f => node r n (updateChildren step f c)) (funext ih)

/-- A path that is not required is walked, and no more. -/
theorem requireAlong_false (a : Address) : requireAlong false a s = update id a s := by
  induction a generalizing s with
  | nil => exact require_false s
  | cons step a ih =>
    rw [requireAlong, require_false, update]
    exact congrArg (s.updateChild step) (funext ih)

theorem required_update_id (a : Address) : (update id a s).required = s.required := by
  cases a <;> simp [update]

end Walks

/-! ## Lengths -/

/-- How long a node's text is, given how long the lines in it are. -/
def bracketLength (indent : String) (lines : Nat) : Nat :=
  if lines = 0 then 3 else lines + indent.length + 3

theorem bracketLength_lt {indent : String} {m n : Nat} (h : m < n) :
    bracketLength indent m < bracketLength indent n := by
  unfold bracketLength
  split <;> split <;> omega

/-- The length of the line of a child. -/
def entryLength (indent : String) : Step × Shape → Nat
  | (.field name, s) => (fieldLine indent name s.required (describe indent s)).length
  | (.element, s) => (elementLine indent (describe indent s)).length

/-- The length of all lines of a node's children. -/
def childrenLength (indent : String) (c : List (Step × Shape)) : Nat :=
  (c.map (entryLength indent)).sum

theorem length_fieldLine_pos (indent name : String) (r : Bool) (text : String) :
    0 < (fieldLine indent name r text).length := by
  simp only [fieldLine, String.length_append]
  have h : 0 < "],\n".length := by decide
  omega

theorem length_elementLine_pos (indent text : String) : 0 < (elementLine indent text).length := by
  simp only [elementLine, String.length_append]
  have h : 0 < "],\n".length := by decide
  omega

theorem entryLength_pos (indent : String) (entry : Step × Shape) :
    0 < entryLength indent entry := by
  obtain ⟨step, s⟩ := entry
  cases step with
  | field name => exact length_fieldLine_pos _ _ _ _
  | element => exact length_elementLine_pos _ _

theorem length_join (lines : List String) :
    (String.join lines).length = (lines.map String.length).sum := by
  induction lines with
  | nil => rfl
  | cons line lines ih => simp [String.join_cons, ih]

theorem length_lines (indent : String) (c : List (Step × Shape)) :
    (String.join (fieldLines indent c ++ elementLines indent c)).length =
      childrenLength indent c := by
  unfold childrenLength
  rw [length_join]
  induction c with
  | nil => rfl
  | cons entry rest ih =>
    obtain ⟨step, s⟩ := entry
    rw [List.map_append, List.sum_append] at ih
    cases step with
    | field name =>
      simp only [fieldLines, elementLines, List.map_cons, List.map_append, List.sum_append,
        List.sum_cons, List.cons_append, entryLength]
      omega
    | element =>
      simp only [fieldLines, elementLines, List.map_cons, List.map_append, List.sum_append,
        List.sum_cons, entryLength]
      omega

theorem lines_eq_nil_iff (indent : String) (c : List (Step × Shape)) :
    fieldLines indent c ++ elementLines indent c = [] ↔ childrenLength indent c = 0 := by
  cases c with
  | nil => exact iff_of_true rfl rfl
  | cons entry rest =>
    have hpos := entryLength_pos indent entry
    have hne : childrenLength indent (entry :: rest) ≠ 0 := by
      simp only [childrenLength, List.map_cons, List.sum_cons]
      omega
    obtain ⟨step, s⟩ := entry
    cases step <;> simp [fieldLines, elementLines, hne]

theorem length_describe (indent : String) (r : Bool) (b : Nat) (c : List (Step × Shape)) :
    (describe indent (node r b c)).length =
      bracketLength indent (childrenLength (indent ++ margin) c) := by
  have hlines := length_lines (indent ++ margin) c
  have hnil := lines_eq_nil_iff (indent ++ margin) c
  rw [describe, bracket, bracketLength]
  by_cases h : childrenLength (indent ++ margin) c = 0
  · rw [if_pos h, if_pos (by simpa using hnil.2 h)]
    rfl
  · have hne : ¬ (fieldLines (indent ++ margin) c ++ elementLines (indent ++ margin) c).isEmpty =
        true := by
      simpa using mt hnil.1 h
    have hopen : "\x7b\n".length = 2 := rfl
    have hclose : "\x7d".length = 1 := rfl
    rw [if_neg h, if_neg hne]
    simp only [String.length_append, hlines, hopen, hclose]
    omega

/-! ## Growth -/

/-- A shape with a text that is at least as long, wherever it stands. -/
structure NoLonger (s t : Shape) : Prop where
  required_eq : t.required = s.required
  length_le : ∀ indent, (describe indent s).length ≤ (describe indent t).length

/-- A shape with a longer text, wherever it stands. -/
structure Grows (s t : Shape) : Prop where
  required_eq : t.required = s.required
  length_lt : ∀ indent, (describe indent s).length < (describe indent t).length

theorem NoLonger.refl (s : Shape) : s.NoLonger s := ⟨rfl, fun _ => Nat.le_refl _⟩

theorem Grows.noLonger {s t : Shape} (h : s.Grows t) : s.NoLonger t :=
  ⟨h.required_eq, fun indent => Nat.le_of_lt (h.length_lt indent)⟩

section Entries

variable {s t : Shape} (step : Step) (indent : String)

theorem NoLonger.entryLength_le (h : s.NoLonger t) :
    entryLength indent (step, s) ≤ entryLength indent (step, t) := by
  have hl := h.length_le indent
  cases step with
  | field name =>
    simp only [entryLength, fieldLine, String.length_append, h.required_eq]
    omega
  | element =>
    simp only [entryLength, elementLine, String.length_append]
    omega

theorem Grows.entryLength_lt (h : s.Grows t) :
    entryLength indent (step, s) < entryLength indent (step, t) := by
  have hl := h.length_lt indent
  cases step with
  | field name =>
    simp only [entryLength, fieldLine, String.length_append, h.required_eq]
    omega
  | element =>
    simp only [entryLength, elementLine, String.length_append]
    omega

/-- A child that grows, or that is made, makes the lines longer. -/
theorem childrenLength_lt {f : Shape → Shape} {c : List (Step × Shape)}
    (h : ∀ child, c.lookup step = some child → child.Grows (f child)) :
    childrenLength indent c < childrenLength indent (updateChildren step f c) := by
  induction c with
  | nil => simpa [childrenLength, updateChildren] using entryLength_pos indent (step, f fresh)
  | cons entry rest ih =>
    obtain ⟨key, child⟩ := entry
    by_cases hk : key = step
    · subst hk
      have hl := (h child List.lookup_cons_self).entryLength_lt key indent
      simpa [childrenLength, updateChildren] using hl
    · have hrest := ih fun other ho => h other (by rwa [lookup_cons_ne (Ne.symm hk)])
      simpa [childrenLength, updateChildren, hk] using hrest

end Entries

/-- A walk to a node that is new makes the text longer. -/
theorem grows_update {s : Shape} {a : Address} (h : s.at? a = none) :
    s.Grows (update id a s) := by
  refine ⟨required_update_id s a, fun indent => ?_⟩
  induction a generalizing s indent with
  | nil => cases h
  | cons step a ih =>
    obtain ⟨r, b, c⟩ := s
    rw [update, updateChild, length_describe, length_describe]
    apply bracketLength_lt
    apply childrenLength_lt
    intro child hc
    have hchild : child.at? a = none := by simpa [at?, child?, children, hc] using h
    exact ⟨required_update_id child a, ih hchild⟩

theorem noLonger_update (s : Shape) (a : Address) : s.NoLonger (update id a s) := by
  cases h : s.at? a with
  | none => exact (grows_update h).noLonger
  | some node =>
    rw [update_id_of_isSome s (by simp [h])]
    exact NoLonger.refl s

/-- A walk leaves every known node, or makes its text longer. -/
theorem exists_noLonger_update {s node : Shape} (a : Address) {b : Address}
    (h : s.at? b = some node) :
    ∃ other, (update id a s).at? b = some other ∧ node.NoLonger other := by
  induction a generalizing s b with
  | nil => exact ⟨node, h, NoLonger.refl node⟩
  | cons step a ih =>
    cases b with
    | nil =>
      cases h
      exact ⟨_, rfl, noLonger_update _ _⟩
    | cons other b =>
      cases hc : s.child? other with
      | none => simp [at?, hc] at h
      | some child =>
        have hchild : child.at? b = some node := by simpa [at?, hc] using h
        -- The walk goes on in the same child, or has left the way to `b`.
        by_cases ho : other = step
        · subst ho
          simpa [update, at?, child?_updateChild, hc] using ih hchild
        · exact ⟨node, by simpa [update, at?, child?_updateChild, ho, hc] using hchild,
            NoLonger.refl node⟩

end Shape
end HtmlTemplate
