import HtmlTemplate.Proofs.Shape.Node
import HtmlTemplate.Shape.Scope

/-!
# Layer — frames as layers over the slots of a scope

While a loop is open its binding takes the slot of a top-level name, and the frame of the loop keeps
what the slot held before.  Frames are therefore layers over the slots: taking them off one after
another, the innermost first, leaves the fields of the context, each in its own slot.  `Layered`
says so, and `Layered.lookup_eq` reads off it what a name stands for.
-/

namespace HtmlTemplate

/-! ## Slots -/

namespace Slots

/-- Puts back what a slot held before. -/
def restore (name : String) (previous : Option Address) (slots : Slots) : Slots :=
  match previous with
  | some before => slots.set name before
  | none => slots.erase name

variable {name other : String} {slots : Slots}

@[simp] theorem lookup_set_self (a : Address) : (slots.set name a).lookup name = some a := by
  induction slots with
  | nil => simp [set]
  | cons entry rest ih =>
    obtain ⟨n, b⟩ := entry
    by_cases h : n = name
    · simp [set, h]
    · simp [set, h, lookup_cons_ne (Ne.symm h), ih]

theorem lookup_set_ne (h : other ≠ name) (a : Address) :
    (slots.set name a).lookup other = slots.lookup other := by
  induction slots with
  | nil => simp [set, lookup_cons_ne h]
  | cons entry rest ih =>
    obtain ⟨n, b⟩ := entry
    by_cases hn : n = name
    · subst hn
      simp [set, lookup_cons_ne h]
    · by_cases ho : other = n
      · subst ho
        simp [set, hn]
      · simp [set, hn, lookup_cons_ne ho, ih]

theorem lookup_erase_ne (h : other ≠ name) :
    (slots.erase name).lookup other = slots.lookup other := by
  induction slots with
  | nil => rfl
  | cons entry rest ih =>
    obtain ⟨n, b⟩ := entry
    unfold erase at ih ⊢
    by_cases hn : n = name
    · subst hn
      simp [lookup_cons_ne h, ih]
    · by_cases ho : other = n
      · subst ho
        simp [hn]
      · simp [hn, lookup_cons_ne ho, ih]

theorem lookup_restore_ne (h : other ≠ name) (previous : Option Address) :
    (slots.restore name previous).lookup other = slots.lookup other := by
  cases previous with
  | none => exact lookup_erase_ne h
  | some before => exact lookup_set_ne h before

theorem lookup_cons_eq_none {n : String} {a : Address}
    (h : List.lookup name ((n, a) :: slots) = none) : n ≠ name ∧ slots.lookup name = none := by
  by_cases hn : name = n
  · subst hn
    simp at h
  · exact ⟨Ne.symm hn, by rwa [lookup_cons_ne hn] at h⟩

theorem lookup_cons_of_ne {n : String} {a : Address} (hn : n ≠ name) :
    List.lookup name ((n, a) :: slots) = slots.lookup name :=
  lookup_cons_ne (Ne.symm hn) a slots

theorem erase_of_lookup_none (h : slots.lookup name = none) : slots.erase name = slots := by
  induction slots with
  | nil => rfl
  | cons entry rest ih =>
    obtain ⟨n, b⟩ := entry
    obtain ⟨hn, hr⟩ := lookup_cons_eq_none h
    have he := ih hr
    unfold erase at he ⊢
    simp [hn, he]

theorem set_of_lookup_none (h : slots.lookup name = none) (a : Address) :
    slots.set name a = slots ++ [(name, a)] := by
  induction slots with
  | nil => rfl
  | cons entry rest ih =>
    obtain ⟨n, b⟩ := entry
    obtain ⟨hn, hr⟩ := lookup_cons_eq_none h
    simp [set, hn, ih hr]

/-- Giving a slot an address and putting back what it held changes nothing. -/
theorem restore_set (a : Address) :
    (slots.set name a).restore name (slots.lookup name) = slots := by
  cases hl : slots.lookup name with
  | none =>
    -- The slot was new: it was put at the end and is dropped from there.
    have he := erase_of_lookup_none hl
    rw [set_of_lookup_none hl]
    unfold restore erase at *
    simp [List.filter_append, he]
  | some before =>
    -- The slot was there: it changes in its place, both times.
    show (slots.set name a).set name before = slots
    induction slots with
    | nil => simp at hl
    | cons entry rest ih =>
      obtain ⟨n, b⟩ := entry
      by_cases hn : n = name
      · subst hn
        simp only [List.lookup_cons_self, Option.some.injEq] at hl
        simp [set, hl]
      · rw [lookup_cons_of_ne hn] at hl
        simp [set, hn, ih hl]

/-- A new slot at the end stays there when an older one is put back. -/
theorem restore_append {previous : Option Address} {entry : String × Address}
    (h : (slots.lookup name).isSome = true) (hne : entry.1 ≠ name) :
    Slots.restore name previous (slots ++ [entry]) = slots.restore name previous ++ [entry] := by
  cases previous with
  | none => simp [restore, erase, List.filter_append, hne]
  | some before =>
    show Slots.set name before (slots ++ [entry]) = slots.set name before ++ [entry]
    induction slots with
    | nil => simp at h
    | cons first rest ih =>
      obtain ⟨n, b⟩ := first
      by_cases hn : n = name
      · simp [set, hn]
      · rw [lookup_cons_of_ne hn] at h
        simp [set, hn, ih h]

/-- Every name in the slot of its own field. -/
def own (names : List String) : Slots := names.map fun n => (n, [.field n])

theorem lookup_own (names : List String) :
    (own names).lookup name = if name ∈ names then some [.field name] else none := by
  induction names with
  | nil => rfl
  | cons n rest ih =>
    by_cases hn : name = n
    · simp [own, hn]
    · have hc : (own (n :: rest)).lookup name = (own rest).lookup name :=
        lookup_cons_ne hn _ _
      simp [hc, ih, hn]

end Slots

/-! ## Layers -/

namespace Frame

/-- The address that the frame's binding stands for, if it has a live one. -/
def address? : Frame → Option Address
  | .plain _ => none
  | .binding _ a _ => some a

/-- The name of the frame's binding, if it has a live one. -/
def name? : Frame → Option String
  | .plain _ => none
  | .binding n _ _ => some n

/-- How many frames have a binding that stands for an address. -/
def countAt (frames : List Frame) (a : Address) : Nat :=
  frames.countP fun f => f.address? = some a

/-- What the innermost live binding of a name stands for. -/
def addressOf (name : String) : List Frame → Option Address
  | [] => none
  | .plain _ :: rest => addressOf name rest
  | .binding n a _ :: rest => if n = name then some a else addressOf name rest

variable {frames : List Frame} {name : String}

@[simp] theorem countAt_plain (hasElse : Bool) (a : Address) :
    countAt (.plain hasElse :: frames) a = countAt frames a := by
  simp [countAt, address?]

@[simp] theorem countAt_binding (b : Address) (previous : Option Address) (a : Address) :
    countAt (.binding name b previous :: frames) a = countAt frames a + if b = a then 1 else 0 := by
  simp [countAt, List.countP_cons, address?]

theorem addressOf_isSome :
    (addressOf name frames).isSome = true ↔ ∃ f ∈ frames, f.name? = some name := by
  induction frames with
  | nil => simp [addressOf]
  | cons frame rest ih =>
    cases frame with
    | plain e => simp [addressOf, ih, name?]
    | binding n a p =>
      by_cases h : n = name
      · simp [addressOf, h, name?]
      · simp [addressOf, h, ih, name?]

theorem exists_of_addressOf {a : Address} (h : addressOf name frames = some a) :
    ∃ f ∈ frames, f.address? = some a := by
  induction frames with
  | nil => simp [addressOf] at h
  | cons frame rest ih =>
    cases frame with
    | plain e =>
      obtain ⟨f, hf, ha⟩ := ih h
      exact ⟨f, List.mem_cons_of_mem _ hf, ha⟩
    | binding n b p =>
      by_cases hn : n = name
      · refine ⟨.binding n b p, List.mem_cons_self, ?_⟩
        simpa [addressOf, hn, address?] using h
      · obtain ⟨f, hf, ha⟩ := ih (by simpa [addressOf, hn] using h)
        exact ⟨f, List.mem_cons_of_mem _ hf, ha⟩

end Frame

/-- Whether frames are layers over the slots of the names: the binding of the innermost frame is in
its slot, and with what the slot held before the same is true of the frames around it. -/
def Layered (names : List String) : List Frame → Slots → Prop
  | [], slots => slots = Slots.own names
  | .plain _ :: rest, slots => Layered names rest slots
  | .binding n a previous :: rest, slots =>
    slots.lookup n = some a ∧ Layered names rest (slots.restore n previous)

namespace Layered

variable {names : List String} {frames : List Frame} {slots : Slots}

/-- A name stands for what its innermost live binding stands for, or for its own field. -/
theorem lookup_eq (h : Layered names frames slots) (name : String) :
    slots.lookup name =
      (Frame.addressOf name frames).or (if name ∈ names then some [.field name] else none) := by
  induction frames generalizing slots with
  | nil =>
    cases h
    simp [Slots.lookup_own, Frame.addressOf]
  | cons frame rest ih =>
    cases frame with
    | plain e => exact ih h
    | binding n a p =>
      obtain ⟨hl, hr⟩ := h
      by_cases hn : n = name
      · subst hn
        simp [Frame.addressOf, hl]
      -- Taking this layer off changes no slot but its own.
      · rw [← Slots.lookup_restore_ne (Ne.symm hn) p, ih hr]
        simp [Frame.addressOf, hn]

/-- A field of the context that was not read before goes under all the layers. -/
theorem append (h : Layered names frames slots) {name : String} (hn : slots.lookup name = none) :
    Layered (names ++ [name]) frames (slots ++ [(name, [.field name])]) := by
  induction frames generalizing slots with
  | nil =>
    cases h
    simp [Layered, Slots.own]
  | cons frame rest ih =>
    cases frame with
    | plain e => exact ih h hn
    | binding n a p =>
      obtain ⟨hl, hr⟩ := h
      -- The slot of a binding is taken, so the new name is no binding's.
      have hne : name ≠ n := by
        intro e
        rw [e, hl] at hn
        cases hn
      refine ⟨?_, ?_⟩
      · rw [List.lookup_append, hl]
        rfl
      · rw [Slots.restore_append (by simp [hl]) hne]
        exact ih hr (by rw [Slots.lookup_restore_ne hne, hn])

end Layered
end HtmlTemplate
