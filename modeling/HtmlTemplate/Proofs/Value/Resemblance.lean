import HtmlTemplate.Proofs.Render.Relates
import HtmlTemplate.Value.Kind
import HtmlTemplate.Value.Lookup

/-!
# Resemblance — values that differ in hidden members alone

Two values resemble each other if they are equal but for the hidden members of objects, at any
depth: attributes whose names start with an underscore, and public ones that are missing, cannot be
read, or hold nothing or a function.  Values that resemble each other have the same text, length and
truth, and what is looked up in them or gone through resembles too.
-/

namespace HtmlTemplate
namespace Value

/-- Whether an attribute of this name may be read. -/
def IsPublic (name : String) : Prop := name.toList.head? ≠ some '_'

/-- Whether an object shows nothing under a name: the attribute is not there, it cannot be read, or
nothing or a function is there. -/
def Hides (raising : List String) (attributes : List (String × Value)) (name : String) : Prop :=
  name ∈ raising ∨ ∀ a, attributes.lookup name = some a → a = none ∨ a.isFunction = true

/-- Whether two values are equal but for the hidden members of objects in them. -/
inductive Resembles : Value → Value → Prop
  | refl (v : Value) : Resembles v v
  | list {items items' : List Value} :
      List.Forall₂ Resembles items items' → Resembles (.list items) (.list items')
  | tuple {items items' : List Value} :
      List.Forall₂ Resembles items items' → Resembles (.tuple items) (.tuple items')
  | dict {entries entries' : List (Value × Value)} :
      List.Forall₂ Resembles (entries.map (·.1)) (entries'.map (·.1)) →
      List.Forall₂ Resembles (entries.map (·.2)) (entries'.map (·.2)) →
      Resembles (.dict entries) (.dict entries')
  | iterator (id : IteratorId) {items items' : List Value} :
      List.Forall₂ Resembles items items' → Resembles (.iterator id items) (.iterator id items')
  | object {text : ObjectText} {truth? : Option Bool} {length? : Option Int} {kind : ObjectKind}
      {refusals : List Request} {raising raising' : List String}
      {attributes attributes' : List (String × Value)} {items? items'? : Option (List Value)} :
      kind ≠ .mapping →
      (∀ name, IsPublic name → (Hides raising attributes name ↔ Hides raising' attributes' name)) →
      (∀ name a a', IsPublic name → ¬ Hides raising attributes name →
        attributes.lookup name = some a → attributes'.lookup name = some a' → Resembles a a') →
      Option.Rel (List.Forall₂ Resembles) items? items'? →
      Resembles (.object ⟨text, truth?, length?, raising, kind, refusals⟩ attributes items?)
        (.object ⟨text, truth?, length?, raising', kind, refusals⟩ attributes' items'?)
  /-- What a mapping holds is not hidden, whatever its key. -/
  | mapping {traits : ObjectTraits} {attributes attributes' : List (String × Value)}
      {items? items'? : Option (List Value)} :
      traits.access.kind = .mapping →
      (∀ key, Option.Rel Resembles (attributes.lookup key) (attributes'.lookup key)) →
      Option.Rel (List.Forall₂ Resembles) items? items'? →
      Resembles (.object traits attributes items?) (.object traits attributes' items'?)

abbrev ResembleAll : List Value → List Value → Prop := List.Forall₂ Resembles

/-! ## Objects -/

section Object

variable {text : ObjectText} {truth? : Option Bool} {length? : Option Int} {raising : List String}
  {kind : ObjectKind} {refusals : List Request} {attributes : List (String × Value)}
  {items? : Option (List Value)} {name : String}

/-- Nothing is seen of a hidden member. -/
theorem publicAttribute_of_hides (hname : IsPublic name) (h : Hides raising attributes name) :
    (object ⟨text, truth?, length?, raising, kind, refusals⟩ attributes items?).publicAttribute name =
      none := by
  have hhead : (name.toList.head? == some '_') = false := beq_false_of_ne hname
  unfold publicAttribute
  rw [hhead]
  by_cases hraising : name ∈ raising
  · simp [attribute?, hraising]
  · have hshown := h.resolve_left hraising
    cases ha : attributes.lookup name with
    | none => simp [attribute?, hraising, ha]
    | some a =>
      rcases hshown a ha with rfl | hfunction
      · simp [attribute?, hraising, ha]
      · simp [attribute?, hraising, ha, hfunction]

/-- Every other member is seen as it is. -/
theorem exists_publicAttribute (hname : IsPublic name) (h : ¬ Hides raising attributes name) :
    ∃ a, attributes.lookup name = some a ∧
      (object ⟨text, truth?, length?, raising, kind, refusals⟩ attributes items?).publicAttribute
        name = a := by
  have hhead : (name.toList.head? == some '_') = false := beq_false_of_ne hname
  obtain ⟨hraising, hshown⟩ := not_or.1 h
  push Not at hshown
  obtain ⟨a, ha, -, hfunction⟩ := hshown
  refine ⟨a, ha, ?_⟩
  unfold publicAttribute
  rw [hhead]
  simp [attribute?, hraising, ha, hfunction]

end Object

theorem publicAttribute_private {v : Value} {name : String} (hname : ¬ IsPublic name) :
    v.publicAttribute name = none := by
  unfold publicAttribute
  rw [if_pos]
  simpa [IsPublic] using hname

namespace Resembles

theorem all_refl (vs : List Value) : ResembleAll vs vs :=
  List.forall₂_same.2 fun v _ => refl v

variable {v w : Value}

/-! ## What a value is -/

theorem kind_eq (h : Resembles v w) : v.kind = w.kind := by
  cases h <;> rfl

theorem chars?_eq (h : Resembles v w) : v.chars? = w.chars? := by
  cases h <;> rfl

theorem isSequence_eq (h : Resembles v w) : v.isSequence = w.isSequence := by
  cases h <;> rfl

theorem isFunction_eq (h : Resembles v w) : v.isFunction = w.isFunction := by
  cases h <;> rfl

theorem eq_none_iff (h : Resembles v w) : v = none ↔ w = none := by
  cases h <;> simp

/-- A function resembles itself alone. -/
theorem eq_function {result : String} (h : Resembles (.function result) w) :
    w = .function result := by
  cases h
  rfl

theorem of_iterator {id : IteratorId} {vs : List Value} (h : Resembles (.iterator id vs) w) :
    ∃ ws, w = .iterator id ws ∧ ResembleAll vs ws := by
  cases h with
  | refl => exact ⟨vs, rfl, all_refl vs⟩
  | iterator _ h => exact ⟨_, rfl, h⟩

theorem not_iterator (h : Resembles v w) (hv : ∀ id items, v ≠ .iterator id items) :
    ∀ id items, w ≠ .iterator id items := by
  rintro id items rfl
  cases h with
  | refl => exact hv id items rfl
  | iterator => exact hv _ _ rfl

/-- What one of them gives when it is gone through resembles what the other gives. -/
theorem items? (h : Resembles v w) : Option.Rel ResembleAll v.items? w.items? := by
  cases h with
  | refl =>
    cases v.items? with
    | none => exact .none
    | some items => exact .some (all_refl items)
  | list h => exact .some h
  | tuple h => exact .some h
  | dict hkeys _ => exact .some hkeys
  | iterator => exact .none
  | object _ _ _ hitems => exact hitems
  | mapping _ _ hitems => exact hitems

theorem isIterable_eq (h : Resembles v w) : v.isIterable = w.isIterable := by
  cases h with
  | object _ _ _ hitems => cases hitems <;> rfl
  | mapping _ _ hitems => cases hitems <;> rfl
  | _ => rfl

theorem breaksOff_eq (h : Resembles v w) : v.breaksOff = w.breaksOff := by
  cases h with
  | object _ _ _ hitems => cases hitems <;> rfl
  | mapping _ _ hitems => cases hitems <;> rfl
  | _ => rfl

/-! ## Text, length and truth -/

mutual

theorem shown_eq : ∀ (v : Value) {w : Value}, Resembles v w → v.shown = w.shown
  | .list items, _, h => by
    cases h with
    | refl => rfl
    | list h => rw [shown, shown, shownAll_eq items h]
  | .tuple items, _, h => by
    cases h with
    | refl => rfl
    | tuple h => rw [shown, shown, shownAll_eq items h]
  | .dict entries, _, h => by
    cases h with
    | refl => rfl
    | dict hkeys hvalues => rw [shown, shown, shownEntries_eq entries hkeys hvalues]
  | .iterator _ _, _, h => by cases h <;> rfl
  | .object _ _ _, _, h => by cases h <;> rfl
  | .none, _, h => by cases h; rfl
  | .bool _, _, h => by cases h; rfl
  | .int _, _, h => by cases h; rfl
  | .float _, _, h => by cases h; rfl
  | .str _, _, h => by cases h; rfl
  | .markup _, _, h => by cases h; rfl
  | .bytes _, _, h => by cases h; rfl
  | .range _ _ _, _, h => by cases h; rfl
  | .function _, _, h => by cases h; rfl

theorem shownAll_eq : ∀ (vs : List Value) {ws : List Value}, ResembleAll vs ws →
    shownAll vs = shownAll ws
  | [], _, h => by
    cases h
    rfl
  | v :: vs, _, h => by
    cases h with
    | cons hv hvs => rw [shownAll, shownAll, shown_eq v hv, shownAll_eq vs hvs]

theorem shownEntries_eq : ∀ (entries : List (Value × Value)) {entries' : List (Value × Value)},
    ResembleAll (entries.map (·.1)) (entries'.map (·.1)) →
    ResembleAll (entries.map (·.2)) (entries'.map (·.2)) →
    shownEntries entries = shownEntries entries'
  | [], [], _, _ => rfl
  | [], _ :: _, h, _ => by cases h
  | _ :: _, [], h, _ => by cases h
  | (k, v) :: rest, (k', v') :: rest', hkeys, hvalues => by
    cases hkeys with
    | cons hk hkeys =>
      cases hvalues with
      | cons hv hvalues =>
        rw [shownEntries, shownEntries, shown_eq k hk, shown_eq v hv,
          shownEntries_eq rest hkeys hvalues]

end

mutual

theorem obstacle?_eq : ∀ (v : Value) {w : Value}, Resembles v w → v.obstacle? = w.obstacle?
  | .list items, _, h => by
    cases h with
    | refl => rfl
    | list h => rw [obstacle?, obstacle?, obstacleIn?_eq items h]
  | .tuple items, _, h => by
    cases h with
    | refl => rfl
    | tuple h => rw [obstacle?, obstacle?, obstacleIn?_eq items h]
  | .dict entries, _, h => by
    cases h with
    | refl => rfl
    | dict hkeys hvalues => rw [obstacle?, obstacle?, obstacleAmong?_eq entries hkeys hvalues]
  | .iterator _ _, _, h => by cases h <;> rfl
  | .object _ _ _, _, h => by cases h <;> rfl
  | .none, _, h => by cases h; rfl
  | .bool _, _, h => by cases h; rfl
  | .int _, _, h => by cases h; rfl
  | .float _, _, h => by cases h; rfl
  | .str _, _, h => by cases h; rfl
  | .markup _, _, h => by cases h; rfl
  | .bytes _, _, h => by cases h; rfl
  | .range _ _ _, _, h => by cases h; rfl
  | .function _, _, h => by cases h; rfl

theorem obstacleIn?_eq : ∀ (vs : List Value) {ws : List Value}, ResembleAll vs ws →
    obstacleIn? vs = obstacleIn? ws
  | [], _, h => by
    cases h
    rfl
  | v :: vs, _, h => by
    cases h with
    | cons hv hvs => rw [obstacleIn?, obstacleIn?, obstacle?_eq v hv, obstacleIn?_eq vs hvs]

theorem obstacleAmong?_eq : ∀ (entries : List (Value × Value)) {entries' : List (Value × Value)},
    ResembleAll (entries.map (·.1)) (entries'.map (·.1)) →
    ResembleAll (entries.map (·.2)) (entries'.map (·.2)) →
    obstacleAmong? entries = obstacleAmong? entries'
  | [], [], _, _ => rfl
  | [], _ :: _, h, _ => by cases h
  | _ :: _, [], h, _ => by cases h
  | (k, v) :: rest, (k', v') :: rest', hkeys, hvalues => by
    cases hkeys with
    | cons hk hkeys =>
      cases hvalues with
      | cons hv hvalues =>
        rw [obstacleAmong?, obstacleAmong?, obstacle?_eq k hk, obstacle?_eq v hv,
          obstacleAmong?_eq rest hkeys hvalues]

end

theorem text_eq (h : Resembles v w) : v.text = w.text := by
  have hshowing : v.showing = w.showing := by
    rw [showing, showing, obstacle?_eq v h, shown_eq v h]
  cases h with
  | refl => rfl
  | @object text => cases text <;> rfl
  | @mapping traits =>
    obtain ⟨text, _, _, _⟩ := traits
    cases text <;> rfl
  | _ => exact hshowing

theorem objectSize?_eq (traits : ObjectTraits) {items? items'? : Option (List Value)}
    (h : Option.Rel ResembleAll items? items'?) :
    objectSize? traits items? = objectSize? traits items'? := by
  have hlength : items?.map List.length = items'?.map List.length := by
    cases h with
    | none => rfl
    | some h => exact congrArg some h.length_eq
  have hsize : ∀ items? : Option (List Value),
      (items?.map fun items => (.ok items.length : Except RenderFault Nat)) =
        (items?.map List.length).map .ok := fun _ => (Option.map_map ..).symm
  unfold objectSize?
  rw [hsize, hsize, hlength]

theorem size?_eq (h : Resembles v w) : v.size? = w.size? := by
  cases h with
  | list h => simp only [size?, h.length_eq]
  | tuple h => simp only [size?, h.length_eq]
  | dict hkeys _ => simpa [size?] using hkeys.length_eq
  | object _ _ _ hitems => exact objectSize?_eq _ hitems
  | mapping _ _ hitems => exact objectSize?_eq _ hitems
  | _ => rfl

theorem truth_eq (h : Resembles v w) : v.truth = w.truth := by
  have hsize := size?_eq h
  cases h with
  | refl => rfl
  | _ => simp only [truth, hsize]; try rfl

theorem judgedBy?_eq (h : Resembles v w) : v.judgedBy? = w.judgedBy? := by
  have hsize := size?_eq h
  cases h with
  | @object text truth? =>
    -- Whether the text is asked depends on the traits and the length alone.
    cases text <;> cases truth? <;> simp only [judgedBy?, hsize]
  | @mapping traits =>
    obtain ⟨text, truth?, _, _⟩ := traits
    cases text <;> cases truth? <;> simp only [judgedBy?, hsize]
  | _ => rfl

theorem check_eq (h : Resembles v w) : v.check = w.check := by
  rw [check, check, judgedBy?_eq h, truth_eq h]

/-! ## Lookup -/

theorem valueAt?_resembles (segment : List Char) :
    ∀ {entries entries' : List (Value × Value)},
      ResembleAll (entries.map (·.1)) (entries'.map (·.1)) →
      ResembleAll (entries.map (·.2)) (entries'.map (·.2)) →
      Resembles ((valueAt? segment entries).getD none) ((valueAt? segment entries').getD none)
  | [], [], _, _ => refl none
  | [], _ :: _, h, _ => by cases h
  | _ :: _, [], h, _ => by cases h
  | (k, v) :: rest, (k', v') :: rest', hkeys, hvalues => by
    cases hkeys with
    | cons hk hkeys =>
      cases hvalues with
      | cons hv hvalues =>
        rw [valueAt?, valueAt?, chars?_eq hk]
        split
        · exact hv
        · exact valueAt?_resembles segment hkeys hvalues

theorem getElem?_resembles {vs ws : List Value} (h : ResembleAll vs ws) (n : Nat) :
    Option.Rel Resembles vs[n]? ws[n]? := by
  obtain ⟨hlength, hget⟩ := List.forall₂_iff_get.1 h
  by_cases hn : n < vs.length
  · have hn' : n < ws.length := hlength ▸ hn
    rw [List.getElem?_eq_getElem hn, List.getElem?_eq_getElem hn']
    exact .some (hget n hn hn')
  · have hn' : ¬ n < ws.length := hlength ▸ hn
    rw [List.getElem?_eq_none (Nat.le_of_not_lt hn), List.getElem?_eq_none (Nat.le_of_not_lt hn')]
    exact .none

theorem getD_resembles {x y : Option Value} (h : Option.Rel Resembles x y) :
    Resembles (x.getD none) (y.getD none) := by
  cases h with
  | none => exact refl none
  | some h => exact h

theorem supplied_resembles (traits : ObjectTraits) (n : Nat) {item? item'? : Option Value}
    (h : Option.Rel Resembles item? item'?) :
    Except.Relates Resembles (supplied traits n item?) (supplied traits n item'?) := by
  cases h with
  | none => exact .error _
  | some h =>
    by_cases hrefuses : traits.refuses (.member (toString n)) = true
    · rw [supplied, supplied, if_pos hrefuses, if_pos hrefuses]
      exact .error _
    · rw [supplied, supplied, if_neg hrefuses, if_neg hrefuses]
      exact .ok h

theorem bind_getElem?_resembles {items? items'? : Option (List Value)}
    (h : Option.Rel ResembleAll items? items'?) (n : Nat) :
    Option.Rel Resembles (items?.bind fun items => items[n]?)
      (items'?.bind fun items => items[n]?) := by
  cases h with
  | none => exact .none
  | some h => exact getElem?_resembles h n

theorem itemAt_resembles (h : Resembles v w) (n : Nat) :
    Except.Relates Resembles (v.itemAt n) (w.itemAt n) := by
  cases h with
  | refl => exact (Except.Relates.refl _).mono fun a b hab => hab ▸ refl a
  | list h => exact .ok (getD_resembles (getElem?_resembles h n))
  | tuple h => exact .ok (getD_resembles (getElem?_resembles h n))
  | dict hkeys _ => exact .ok (getD_resembles (getElem?_resembles hkeys n))
  | iterator => exact .ok (refl none)
  | object _ _ _ hitems => exact supplied_resembles _ n (bind_getElem?_resembles hitems n)
  | mapping _ _ hitems => exact supplied_resembles _ n (bind_getElem?_resembles hitems n)

theorem indexed_resembles (h : Resembles v w) (n : Nat) :
    Except.Relates Resembles (v.indexed n) (w.indexed n) := by
  unfold indexed
  rw [h.size?_eq]
  refine (Except.Relates.refl _).bind ?_
  rintro size _ rfl
  split
  · exact itemAt_resembles h n
  · exact .ok (refl none)

/-- Hidden members do not show, and the others resemble each other. -/
theorem publicAttribute (h : Resembles v w) (hmapping : ∀ traits attributes items?,
    v = .object traits attributes items? → traits.access.kind ≠ .mapping) (name : String) :
    Resembles (v.publicAttribute name) (w.publicAttribute name) := by
  by_cases hname : IsPublic name
  · cases h with
    | @object text truth? length? kind refusals raising raising' attributes attributes' items?
        items'? _ hhidden hshown =>
      -- What is hidden on one side is hidden on the other.
      by_cases hhides : Hides raising attributes name
      · rw [publicAttribute_of_hides hname hhides,
          publicAttribute_of_hides hname ((hhidden name hname).1 hhides)]
        exact refl none
      · have hhides' := mt (hhidden name hname).2 hhides
        obtain ⟨a, ha, hv⟩ := exists_publicAttribute hname hhides
        obtain ⟨a', ha', hw⟩ := exists_publicAttribute hname hhides'
        rw [hv, hw]
        exact hshown name a a' hname hhides ha ha'
    | mapping hkind => exact absurd hkind (hmapping _ _ _ rfl)
    | _ => exact refl _
  · rw [publicAttribute_private hname, publicAttribute_private hname]
    exact refl none

theorem itemOrAttribute (h : Resembles v w) (hmapping : ∀ traits attributes items?,
    v = .object traits attributes items? → traits.access.kind ≠ .mapping) (segment : String) :
    Except.Relates Resembles (v.itemOrAttribute segment) (w.itemOrAttribute segment) := by
  unfold Value.itemOrAttribute
  rw [h.isSequence_eq]
  split
  · -- Both are indexed, once the index is read.
    refine (Except.Relates.refl _).bind ?_
    rintro n _ rfl
    exact indexed_resembles h n
  · exact .ok (publicAttribute h hmapping segment)

theorem keyed_resembles (traits : ObjectTraits) {attributes attributes' : List (String × Value)}
    (h : ∀ key, Option.Rel Resembles (attributes.lookup key) (attributes'.lookup key))
    (key : String) :
    Except.Relates Resembles (keyed traits attributes key) (keyed traits attributes' key) := by
  unfold keyed
  split
  · exact .error _
  · exact .ok (getD_resembles (h key))

theorem step (h : Resembles v w) (segment : String) :
    Except.Relates Resembles (v.step segment) (w.step segment) := by
  cases hv : h with
  | refl => exact (Except.Relates.refl _).mono fun a b hab => hab ▸ refl a
  | dict hkeys hvalues => exact .ok (valueAt?_resembles segment.toList hkeys hvalues)
  | list | tuple | iterator =>
    exact itemOrAttribute h (fun _ _ _ he => Value.noConfusion he) segment
  | object hkind _ _ _ =>
    rw [Value.step, if_neg hkind, Value.step, if_neg hkind]
    refine itemOrAttribute h (fun traits attributes items? he => ?_) segment
    cases he
    exact hkind
  | mapping hkind hmembers _ =>
    rw [Value.step, if_pos hkind, Value.step, if_pos hkind]
    exact keyed_resembles _ hmembers segment

/-- What a path leads to in values that resemble each other resembles too. -/
theorem lookup (path : List String) : ∀ {v w : Value}, Resembles v w →
    Except.Relates Resembles (v.lookup path) (w.lookup path) := by
  induction path with
  | nil =>
    intro v w h
    exact .ok h
  | cons segment rest ih =>
    intro v w h
    rw [Value.lookup, Value.lookup]
    exact (step h segment).bind fun a b hab => ih hab

end Resembles
end Value
end HtmlTemplate
