import HtmlTemplate.Proofs.Lookup
import HtmlTemplate.Proofs.Render.Faults
import HtmlTemplate.Proofs.Value.Length
import Mathlib.Algebra.Order.Ring.Nat

/-!
# Willing — data that refuses nothing

Most data has no say in what it is asked for.  A value is willing if every number in it is short
enough to be written, every range short enough to be measured, and every object and iterator gives
what it is asked for, to any depth.  Whatever is reached from a willing value is willing too
(`Value.Willing.reached`), and refuses nothing (`Value.Willing.not_refuses`).
-/

namespace HtmlTemplate

/-- Whether an object gives whatever it is asked for.  A sequence has as many items as it says. -/
structure ObjectTraits.Obliging (traits : ObjectTraits) (items? : Option (List Value)) : Prop where
  text : traits.text ≠ .failing
  refusals : traits.access.refusals = []
  length : ∀ n, traits.length? = some n → 0 ≤ n ∧ n < Value.lengthBound
  items : traits.access.kind = .sequence →
    ∀ n, traits.length? = some n → n ≤ (items?.getD []).length

namespace Value

open Text

/-- Whether a value, and everything in it, gives whatever it is asked for. -/
inductive Willing : Value → Prop
  | none : Willing none
  | bool (b : Bool) : Willing (bool b)
  | int {n : Int} : tooLong n = false → Willing (int n)
  | float (x : Binary64) : Willing (float x)
  | str (s : String) : Willing (str s)
  | markup (s : String) : Willing (markup s)
  | bytes (bs : List UInt8) : Willing (bytes bs)
  | list {items : List Value} : (∀ v ∈ items, Willing v) → Willing (list items)
  | tuple {items : List Value} : (∀ v ∈ items, Willing v) → Willing (tuple items)
  | range {start stop step : Int} :
      tooLong start = false → tooLong stop = false → tooLong step = false →
      rangeLength start stop step < lengthBound → Willing (range start stop step)
  | dict {entries : List (Value × Value)} :
      (∀ entry ∈ entries, Willing entry.1) → (∀ entry ∈ entries, Willing entry.2) →
      Willing (dict entries)
  | iterator {id : IteratorId} {items : List Value} :
      id.failing = false → (∀ v ∈ items, Willing v) → Willing (iterator id items)
  | function (result : String) : Willing (function result)
  | object {traits : ObjectTraits} {attributes : List (String × Value)}
      {items? : Option (List Value)} :
      traits.Obliging items? → (∀ a ∈ attributes, Willing a.2) →
      (∀ items, items? = some items → ∀ v ∈ items, Willing v) →
      Willing (object traits attributes items?)

variable {v w : Value}

/-! ## Numbers -/

theorem tooLong_eq_false_iff {n : Int} :
    tooLong n = false ↔ n.natAbs < 10 ^ RenderFault.maxDigits := by
  unfold tooLong
  rw [decide_eq_false_iff_not, Nat.not_lt, Nat.length_toDigits_le_iff (by decide) (by decide)]

/-- The numbers of a range lie between its ends. -/
theorem range_item_between {start stop step : Int} {n : Nat} (h : n < rangeLength start stop step) :
    (start ≤ start + n * step ∧ start + n * step ≤ stop) ∨
      (stop ≤ start + n * step ∧ start + n * step ≤ start) := by
  unfold rangeLength at h
  split at h
  case isTrue hstep =>
    refine Or.inl ?_
    have hlast : (n + 1 : Int) ≤ (stop - start + step - 1) / step := by omega
    have hspan : (n + 1 : Int) * step ≤ stop - start + step - 1 :=
      (Int.le_ediv_iff_mul_le hstep).1 hlast
    have hforward : 0 ≤ (n : Int) * step :=
      Int.mul_nonneg (Int.natCast_nonneg n) (Int.le_of_lt hstep)
    rw [Int.add_mul, Int.one_mul] at hspan
    omega
  case isFalse =>
    split at h
    case isTrue hstep =>
      refine Or.inr ?_
      have hlast : (n + 1 : Int) ≤ (start - stop - step - 1) / -step := by omega
      have hspan : (n + 1 : Int) * -step ≤ start - stop - step - 1 :=
        (Int.le_ediv_iff_mul_le (Int.neg_pos.2 hstep)).1 hlast
      have hback : 0 ≤ (n : Int) * -step :=
        Int.mul_nonneg (Int.natCast_nonneg n) (Int.le_of_lt (Int.neg_pos.2 hstep))
      rw [Int.add_mul, Int.one_mul] at hspan
      rw [Int.mul_neg] at hspan hback
      omega
    case isFalse => cases h

theorem tooLong_range_item {start stop step : Int} (hstart : tooLong start = false)
    (hstop : tooLong stop = false) {n : Nat} (h : n < rangeLength start stop step) :
    tooLong (start + n * step) = false := by
  rw [tooLong_eq_false_iff] at hstart hstop ⊢
  have hbetween := range_item_between h
  generalize start + n * step = item at hbetween ⊢
  generalize 10 ^ RenderFault.maxDigits = limit at hstart hstop ⊢
  omega

/-! ## Attributes -/

/-- What a segment shows is an attribute, or nothing. -/
theorem publicAttribute_cases (v : Value) (segment : String) :
    v.publicAttribute segment = none ∨
      v.attribute? segment = some (v.publicAttribute segment) := by
  unfold publicAttribute
  split
  · exact Or.inl rfl
  · split
    · exact Or.inl rfl
    · rename_i a ha
      split
      · exact Or.inl rfl
      · exact Or.inr ha

namespace Willing

theorem number (n : Nat) (h : n < 256) : (Value.int n).Willing := by
  refine .int (tooLong_eq_false_iff.2 (Nat.lt_of_lt_of_le h ?_))
  calc 256 ≤ 10 ^ 3 := by decide
    _ ≤ 10 ^ RenderFault.maxDigits := Nat.pow_le_pow_right (by decide) (by decide)

/-! ## Items -/

/-- What a willing value gives when it is gone through is willing. -/
theorem items (h : v.Willing) {vs : List Value} (hvs : v.items? = some vs) :
    ∀ w ∈ vs, w.Willing := by
  cases h with
  | none | bool | int | float | iterator | function => cases hvs
  | str s | markup s =>
    obtain rfl := Option.some.inj hvs
    exact List.forall_mem_map.2 fun c _ => .str _
  | bytes bs =>
    obtain rfl := Option.some.inj hvs
    exact List.forall_mem_map.2 fun b _ => number b.toNat b.toNat_lt
  | list hitems | tuple hitems =>
    obtain rfl := Option.some.inj hvs
    exact hitems
  | range hstart hstop _ _ =>
    obtain rfl := Option.some.inj hvs
    intro w hw
    obtain ⟨n, hn, rfl⟩ := mem_rangeFrom hw
    exact .int (tooLong_range_item hstart hstop hn)
  | dict hkeys _ =>
    obtain rfl := Option.some.inj hvs
    exact List.forall_mem_map.2 hkeys
  | object _ _ hitems => exact hitems vs hvs

theorem elements (h : v.Willing) : ∀ w ∈ v.elements, w.Willing := by
  have hof : ∀ w ∈ v.items?.getD [], w.Willing := by
    cases hvs : v.items? with
    | none => exact List.forall_mem_nil _
    | some vs => exact h.items hvs
  cases h with
  | iterator _ hitems => exact hitems
  | _ => exact hof

theorem item (h : v.Willing) (n : Nat) : ((v.item? n).getD Value.none).Willing := by
  have hof : ((v.items?.bind fun items => items[n]?).getD Value.none).Willing := by
    cases hitem : v.items?.bind fun items => items[n]? with
    | none => exact .none
    | some item =>
      obtain ⟨vs, hvs, hn⟩ := Option.bind_eq_some_iff.1 hitem
      exact h.items hvs item (List.mem_of_getElem? hn)
  cases h with
  | @range start stop step hstart hstop =>
    change ((if n < rangeLength start stop step then some (Value.int (start + n * step))
      else Option.none).getD Value.none).Willing
    split
    · rename_i hn
      exact .int (tooLong_range_item hstart hstop hn)
    · exact .none
  | _ => exact hof

/-! ## Members -/

theorem integerAttribute {n : Int} (h : tooLong n = false) {name : String}
    (ha : integerAttribute? n name = some w) : w.Willing := by
  unfold integerAttribute? at ha
  split at ha <;> cases ha
  · exact .int h
  · exact number 0 (by decide)
  · exact .int h
  · exact number 1 (by decide)

theorem ofAttribute (h : v.Willing) {name : String} (ha : v.attribute? name = some w) :
    w.Willing := by
  cases h with
  | none | str | markup | bytes | list | tuple | dict | iterator | function => cases ha
  | bool b => cases b <;> exact integerAttribute (by decide) ha
  | int hn => exact integerAttribute hn ha
  | float x =>
    dsimp only [attribute?] at ha
    split at ha <;> cases ha <;> exact .float _
  | range hstart hstop hstep _ =>
    dsimp only [attribute?] at ha
    split at ha <;> cases ha
    · exact .int hstart
    · exact .int hstop
    · exact .int hstep
  | @object traits attributes _ _ hattributes _ =>
    dsimp only [attribute?] at ha
    split at ha
    · cases ha
    · exact hattributes (name, w) (mem_of_lookup ha)

theorem publicAttribute (h : v.Willing) (segment : String) :
    (v.publicAttribute segment).Willing := by
  rcases v.publicAttribute_cases segment with hnone | ha
  · exact hnone ▸ .none
  · exact h.ofAttribute ha

end Willing

/-! ## Requests -/

theorem obliging_refuses {traits : ObjectTraits} {items? : Option (List Value)}
    (h : traits.Obliging items?) (request : Request) : traits.refuses request = false := by
  simp [ObjectTraits.refuses, h.refusals]

mutual

/-- Nothing keeps a willing value from being shown. -/
theorem Willing.obstacle : ∀ {v : Value}, v.Willing → v.obstacle? = Option.none
  | .none, _ => rfl
  | .bool _, _ => rfl
  | .int n, h => by
    cases h with
    | int hn => rw [obstacle?, hn, if_neg Bool.false_ne_true]
  | .float _, _ => rfl
  | .str _, _ => rfl
  | .markup _, _ => rfl
  | .bytes _, _ => rfl
  | .list items, h => by
    cases h with
    | list hitems => exact obstacleIn?_eq_none hitems
  | .tuple items, h => by
    cases h with
    | tuple hitems => exact obstacleIn?_eq_none hitems
  | .range start stop step, h => by
    cases h with
    | range hstart hstop hstep _ => simp [obstacle?, hstart, hstop, hstep]
  | .dict entries, h => by
    cases h with
    | dict hkeys hvalues => exact obstacleAmong?_eq_none hkeys hvalues
  | .iterator _ _, _ => rfl
  | .function _, _ => rfl
  | .object _ _ _, h => by
    cases h with
    | object htraits _ _ =>
      rw [obstacle?, obliging_refuses htraits, if_neg Bool.false_ne_true]

theorem obstacleIn?_eq_none : ∀ {vs : List Value}, (∀ v ∈ vs, v.Willing) →
    obstacleIn? vs = Option.none
  | [], _ => rfl
  | v :: vs, h => by
    obtain ⟨hv, hvs⟩ := List.forall_mem_cons.1 h
    rw [obstacleIn?, hv.obstacle, obstacleIn?_eq_none hvs]
    rfl

theorem obstacleAmong?_eq_none : ∀ {entries : List (Value × Value)},
    (∀ entry ∈ entries, entry.1.Willing) → (∀ entry ∈ entries, entry.2.Willing) →
    obstacleAmong? entries = Option.none
  | [], _, _ => rfl
  | (k, v) :: rest, hkeys, hvalues => by
    obtain ⟨hk, hkeys⟩ := List.forall_mem_cons.1 hkeys
    obtain ⟨hv, hvalues⟩ := List.forall_mem_cons.1 hvalues
    rw [obstacleAmong?, hk.obstacle, hv.obstacle, obstacleAmong?_eq_none hkeys hvalues]
    rfl

end

namespace Willing

theorem exists_text (h : v.Willing) : ∃ s, v.text = .ok s := by
  have hshowing : v.showing = .ok v.shown := by rw [showing, h.obstacle]
  cases h with
  | str s | markup s => exact ⟨s, rfl⟩
  | @object traits attributes items? htraits _ _ =>
    dsimp only [text]
    cases htext : traits.text with
    | plain => exact ⟨_, hshowing⟩
    | given s => exact ⟨s, rfl⟩
    | failing => exact absurd htext htraits.text
  | _ => exact ⟨_, hshowing⟩

theorem size (h : v.Willing) (fault : RenderFault) : v.size? ≠ some (.error fault) := by
  intro hsize
  rcases size?_eq_error_iff.1 hsize with ⟨start, stop, step, rfl, hlong, -⟩ |
    ⟨traits, attributes, items?, rfl, hrefused⟩
  · cases h with
    | range _ _ _ hshort => exact absurd hlong (Nat.not_le.2 hshort)
  · cases h with
    | object htraits _ _ =>
      rcases hrefused with ⟨hrefuses, -⟩ | ⟨-, n, hn, hbound⟩
      · rw [obliging_refuses htraits] at hrefuses
        cases hrefuses
      · have hlength := htraits.length n hn
        omega

theorem truth (h : v.Willing) (fault : RenderFault) : v.truth ≠ .error fault := by
  have hmap : ∀ size, v.size? = some size →
      (size.map fun n => decide (0 < n)) ≠ .error fault := by
    rintro (fault' | n) hsize he
    · cases he
      exact h.size fault hsize
    · cases he
  cases h with
  | none | bool | int | float | range | iterator | function => exact fun he => by cases he
  | str | markup | bytes | list | tuple | dict => exact hmap _ rfl
  | @object traits _ _ htraits _ _ =>
    dsimp only [Value.truth]
    rw [obliging_refuses htraits, if_neg Bool.false_ne_true]
    cases traits.truth? with
    | some b => exact fun he => by cases he
    | none =>
      dsimp only
      split
      · rename_i size hsize
        exact hmap size hsize
      · exact fun he => by cases he

theorem breaksOff (h : v.Willing) : v.breaksOff = false := by
  cases h with
  | iterator hfailing _ => exact hfailing
  | @object _ _ items? htraits _ _ =>
    cases items? with
    | none => rfl
    | some vs => exact obliging_refuses htraits .items
  | _ => rfl

/-! ## Paths -/

/-- A sequence that is an object has at least as many items as its length says. -/
theorem size_le_length {traits : ObjectTraits} {items? : Option (List Value)}
    (htraits : traits.Obliging items?) (hkind : traits.access.kind = .sequence) {size : Nat}
    (hsize : (objectSize? traits items?).getD (.ok 0) = .ok size) :
    size ≤ (items?.getD []).length := by
  unfold objectSize? at hsize
  rw [obliging_refuses htraits, if_neg Bool.false_ne_true, hkind] at hsize
  cases hlength : traits.length? with
  | none =>
    rw [hlength] at hsize
    cases items? with
    | none =>
      obtain rfl := Except.ok.inj hsize
      exact Nat.zero_le _
    | some items => exact Nat.le_of_eq (Except.ok.inj hsize).symm
  | some m =>
    rw [hlength] at hsize
    obtain ⟨hpositive, hbound⟩ := htraits.length m hlength
    have hcount := htraits.items hkind m hlength
    have hreported : reported m = .ok m.toNat := by
      rw [reported, if_neg (by omega), if_neg (by omega)]
    obtain rfl := Except.ok.inj (hreported.symm.trans hsize)
    omega

theorem exists_supplied {traits : ObjectTraits} {items? : Option (List Value)}
    (htraits : traits.Obliging items?) (hitems : ∀ vs, items? = some vs → ∀ v ∈ vs, v.Willing)
    {n : Nat} (hn : n < (items?.getD []).length) :
    ∃ w, supplied traits n (items?.bind fun vs => vs[n]?) = .ok w ∧ w.Willing := by
  cases items? with
  | none => cases hn
  | some vs =>
    have hn : n < vs.length := hn
    refine ⟨vs[n], ?_, hitems vs rfl _ (List.getElem_mem hn)⟩
    rw [Option.bind_some, List.getElem?_eq_getElem hn, supplied, obliging_refuses htraits,
      if_neg Bool.false_ne_true]

theorem exists_indexed (h : v.Willing) (hsequence : v.isSequence = true) (n : Nat) :
    ∃ w, v.indexed n = .ok w ∧ w.Willing := by
  obtain ⟨size, hsize⟩ : ∃ size, v.size?.getD (.ok 0) = .ok size := by
    have hnone := h.size
    cases hv : v.size? with
    | none => exact ⟨0, rfl⟩
    | some size =>
      cases size with
      | error fault => exact absurd hv (hnone fault)
      | ok size => exact ⟨size, rfl⟩
  unfold indexed
  rw [hsize]
  change ∃ w, (if n < size then v.itemAt n else return Value.none) = .ok w ∧ w.Willing
  split
  · rename_i hn
    have hitem := h.item n
    cases h with
    | object htraits _ hitems =>
      have hlength := size_le_length htraits (beq_iff_eq.1 hsequence) hsize
      exact exists_supplied htraits hitems (Nat.lt_of_lt_of_le hn hlength)
    | _ => exact ⟨_, rfl, hitem⟩
  · exact ⟨Value.none, rfl, .none⟩

theorem itemOrAttribute_cases (h : v.Willing) (segment : String) :
    (∃ w, v.itemOrAttribute segment = .ok w ∧ w.Willing) ∨
      ∃ fault, index? segment.toList = some (.error fault) ∧
        v.itemOrAttribute segment = .error fault := by
  unfold itemOrAttribute
  split
  · rename_i index hsequence hindex
    cases index with
    | error fault => exact Or.inr ⟨fault, hindex, rfl⟩
    | ok n => exact Or.inl (h.exists_indexed hsequence n)
  · exact Or.inl ⟨_, rfl, h.publicAttribute segment⟩

theorem keyed_willing {traits : ObjectTraits} {attributes : List (String × Value)}
    {items? : Option (List Value)} (htraits : traits.Obliging items?)
    (hattributes : ∀ a ∈ attributes, a.2.Willing) (key : String) :
    ∃ w, keyed traits attributes key = .ok w ∧ w.Willing := by
  unfold keyed
  rw [obliging_refuses htraits, if_neg Bool.false_ne_true]
  refine ⟨_, rfl, ?_⟩
  cases ha : attributes.lookup key with
  | none => exact .none
  | some a => exact hattributes (key, a) (mem_of_lookup ha)

theorem valueAt (segment : List Char) {entries : List (Value × Value)}
    (h : ∀ entry ∈ entries, entry.2.Willing) :
    ((valueAt? segment entries).getD Value.none).Willing := by
  induction entries with
  | nil => exact .none
  | cons entry rest ih =>
    obtain ⟨hv, hrest⟩ := List.forall_mem_cons.1 h
    rw [valueAt?]
    split
    · exact hv
    · exact ih hrest

/-- A segment leads from a willing value to another one, unless it is too long an index. -/
theorem step_cases (h : v.Willing) (segment : String) :
    (∃ w, v.step segment = .ok w ∧ w.Willing) ∨
      ∃ fault, index? segment.toList = some (.error fault) ∧ v.step segment = .error fault := by
  have hother := h.itemOrAttribute_cases segment
  cases h with
  | none => exact Or.inl ⟨_, rfl, .none⟩
  | dict _ hvalues => exact Or.inl ⟨_, rfl, valueAt segment.toList hvalues⟩
  | object htraits hattributes _ =>
    dsimp only [Value.step]
    split
    · exact Or.inl (keyed_willing htraits hattributes segment)
    · exact hother
  | _ => exact hother

/-! ## Reached values -/

/-- Whatever is reached from a willing value is willing. -/
theorem reached {root : Value} (hroot : root.Willing) (h : root.Reached v) : v.Willing := by
  induction h with
  | here => exact hroot
  | @step v w segment _ hstep ih =>
    rcases ih.step_cases segment with ⟨w', hw, hwilling⟩ | ⟨fault, -, hfault⟩
    · exact Except.ok.inj (hstep.symm.trans hw) ▸ hwilling
    · cases hstep.symm.trans hfault
  | element _ hmem ih => exact ih.elements _ hmem

/-- A willing value refuses nothing. -/
theorem not_refuses (h : v.Willing) (fault : RenderFault) : ¬ v.Refuses fault := by
  rintro (htext | htruth | hlength | ⟨hbreaks, -⟩ | ⟨hindex, hstep⟩)
  · obtain ⟨s, hs⟩ := h.exists_text
    cases htext.symm.trans hs
  · exact h.truth fault htruth
  · exact h.size fault hlength
  · cases h.breaksOff.symm.trans hbreaks
  · rcases h.step_cases _ with ⟨w, hw, -⟩ | ⟨fault', hindex', hfault⟩
    · cases hstep.symm.trans hw
    · cases hstep.symm.trans hfault
      exact hindex hindex'

end Willing
end Value
end HtmlTemplate
