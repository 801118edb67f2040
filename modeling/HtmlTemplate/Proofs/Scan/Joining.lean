import HtmlTemplate.Part
import HtmlTemplate.Proofs.Scan.Marked

/-!
# Joining — literal text that grows over parts

Neighbouring literal texts are joined, so that a marker may open in one and close in another.
`Part.joinFrom` tells the parts that are at their end from the literal text that is still open
behind them; `Marker.Meets` says that no marker starts in the open text, nor with its last brace in
what comes next.
-/

namespace HtmlTemplate

open Text Marker

/-! ## Parts that are joined -/

namespace Part

def isRaw : Part → Bool
  | raw _ => true
  | _ => false

/-- There are parts, and none of them is literal text. -/
def Quiet (parts : List Part) : Prop := parts ≠ [] ∧ ∀ part ∈ parts, part.isRaw = false

/-- No literal text among the parts holds a whole marker. -/
def Unmarked (parts : List Part) : Prop := ∀ text, raw text ∈ parts → ¬ Complete text.toList

/-- Joins neighbouring literal texts as far as they are at their end: gives the parts up to there
and the literal text that is open behind them. -/
def joinFrom (pending : String) : List Part → List Part × String
  | [] => ([], pending)
  | raw text :: parts => joinFrom (pending ++ text) parts
  | part :: parts =>
    (if pending.isEmpty then part :: (joinFrom "" parts).1
      else raw pending :: part :: (joinFrom "" parts).1, (joinFrom "" parts).2)

theorem joinFrom_of_not_raw {part : Part} (h : part.isRaw = false) (pending : String)
    (parts : List Part) :
    joinFrom pending (part :: parts) =
      (if pending.isEmpty then part :: (joinFrom "" parts).1
        else raw pending :: part :: (joinFrom "" parts).1, (joinFrom "" parts).2) := by
  cases part <;> first | rfl | cases h

theorem coalesceFrom_of_not_raw {part : Part} (h : part.isRaw = false) (pending : String)
    (parts : List Part) :
    coalesceFrom pending (part :: parts) =
      if pending.isEmpty then part :: coalesceFrom "" parts
      else raw pending :: part :: coalesceFrom "" parts := by
  cases part <;> first | rfl | cases h

/-- Parts are raw or not, as the joining of texts sees them. -/
theorem raw_induction {P : String → List Part → Prop} (nil : ∀ pending, P pending [])
    (raw : ∀ pending text parts, P (pending ++ text) parts → P pending (raw text :: parts))
    (part : ∀ pending part parts, part.isRaw = false → P "" parts → P pending (part :: parts))
    (pending : String) (parts : List Part) : P pending parts := by
  induction parts generalizing pending with
  | nil => exact nil pending
  | cons first parts ih =>
    cases h : first.isRaw with
    | false => exact part pending first parts h (ih "")
    | true =>
      cases first with
      | raw text => exact raw pending text parts (ih _)
      | _ => cases h

theorem coalesceFrom_append (pending : String) (ps qs : List Part) :
    coalesceFrom pending (ps ++ qs) =
      (joinFrom pending ps).1 ++ coalesceFrom (joinFrom pending ps).2 qs := by
  induction pending, ps using raw_induction with
  | nil pending => rfl
  | raw pending text ps ih => exact ih
  | part pending part ps h ih =>
    rw [List.cons_append, coalesceFrom_of_not_raw h, joinFrom_of_not_raw h, ih]
    split <;> rfl

theorem joinFrom_append (pending : String) (ps qs : List Part) :
    joinFrom pending (ps ++ qs) =
      ((joinFrom pending ps).1 ++ (joinFrom (joinFrom pending ps).2 qs).1,
        (joinFrom (joinFrom pending ps).2 qs).2) := by
  induction pending, ps using raw_induction with
  | nil pending => rfl
  | raw pending text ps ih => exact ih
  | part pending part ps h ih =>
    rw [List.cons_append, joinFrom_of_not_raw h, joinFrom_of_not_raw h, ih]
    split <;> rfl

theorem joinFrom_literal (pending : String) (text : List Char) (parts : List Part) :
    joinFrom pending (literal text ++ parts) = joinFrom (pending ++ String.ofList text) parts := by
  cases text with
  | nil => simp [literal]
  | cons c text => rfl

/-- A part that is no literal text ends the text before it. -/
theorem unmarked_joinFrom_part {part : Part} (h : part.isRaw = false) {pending : String}
    {parts : List Part} (hpending : ¬ Complete pending.toList)
    (hparts : Unmarked (joinFrom "" parts).1) : Unmarked (joinFrom pending (part :: parts)).1 := by
  have hrest : Unmarked (part :: (joinFrom "" parts).1) := by
    intro text hmem
    rcases List.mem_cons.1 hmem with rfl | hmem
    · cases h
    · exact hparts text hmem
  rw [joinFrom_of_not_raw h]
  split
  · exact hrest
  · intro text hmem
    rcases List.mem_cons.1 hmem with he | hmem
    · obtain rfl := Part.raw.inj he
      exact hpending
    · exact hrest text hmem

theorem isEmpty_append (front : String) {inner : String} (h : inner.isEmpty = false) :
    (front ++ inner).isEmpty = false := by
  simp_all [String.isEmpty_eq_false_iff]

/-- What is joined in front of a part that is no literal text. -/
theorem raw_mem_coalesceFrom_part {part : Part} (h : part.isRaw = false) {pending text : String}
    {parts : List Part} :
    raw text ∈ coalesceFrom pending (part :: parts) ↔
      pending.isEmpty = false ∧ text = pending ∨ raw text ∈ coalesceFrom "" parts := by
  have hne : raw text ≠ part := by
    rintro rfl
    cases h
  rw [coalesceFrom_of_not_raw h]
  cases hp : pending.isEmpty <;> simp [hne]

/-- The text that is open in front of parts is the start of one among them. -/
theorem exists_raw_of_pending {pending : String} (hne : pending.isEmpty = false)
    (parts : List Part) :
    ∃ text, raw text ∈ coalesceFrom pending parts ∧ pending.toList <+: text.toList := by
  induction pending, parts using raw_induction with
  | nil pending => exact ⟨pending, by simp [coalesceFrom, hne], List.prefix_refl _⟩
  | raw pending text parts ih =>
    obtain ⟨longer, hmem, hstart⟩ := ih (by simp_all [String.isEmpty_eq_false_iff])
    refine ⟨longer, hmem, List.IsPrefix.trans ?_ hstart⟩
    rw [String.toList_append]
    exact List.prefix_append _ _
  | part pending part parts h ih =>
    exact ⟨pending, (raw_mem_coalesceFrom_part h).2 (Or.inl ⟨hne, rfl⟩), List.prefix_refl _⟩

/-- A literal text among some parts is within one among more parts. -/
theorem exists_raw_of_coalesceFrom (front : String) {inner text : String} {ps : List Part}
    (qs : List Part) (hmem : raw text ∈ coalesceFrom inner ps) :
    ∃ longer, raw longer ∈ coalesceFrom (front ++ inner) (ps ++ qs) ∧
      text.toList <:+: longer.toList := by
  have hsuffix : ∀ inner : String, inner.toList <:+: (front ++ inner).toList := fun inner => by
    rw [String.toList_append]
    exact (List.suffix_append _ _).isInfix
  induction inner, ps using raw_induction generalizing front with
  | nil inner =>
    unfold coalesceFrom at hmem
    split at hmem
    · cases hmem
    · rename_i hne
      obtain rfl := Part.raw.inj (List.mem_singleton.1 hmem)
      obtain ⟨longer, hlonger, hstart⟩ :=
        exists_raw_of_pending (isEmpty_append front (Bool.eq_false_iff.2 hne)) qs
      exact ⟨longer, hlonger, (hsuffix _).trans hstart.isInfix⟩
  | raw inner t ps ih =>
    rw [List.cons_append, coalesceFrom, String.append_assoc]
    exact ih front hmem hsuffix
  | part inner part ps h ih =>
    rcases (raw_mem_coalesceFrom_part h).1 hmem with ⟨hne, rfl⟩ | hmem
    · have hfront := isEmpty_append front hne
      exact ⟨front ++ text, (raw_mem_coalesceFrom_part h).2 (Or.inl ⟨hfront, rfl⟩), hsuffix _⟩
    · obtain ⟨longer, hlonger, hinfix⟩ := ih "" hmem (by simp)
      exact ⟨longer, (raw_mem_coalesceFrom_part h).2 (Or.inr hlonger), hinfix⟩

end Part

/-! ## The joint of two texts -/

namespace Marker

/-- No marker starts in the first text, nor with its last brace in the second one. -/
def Meets (pending next : List Char) : Prop :=
  hasOpening pending = false ∧ (pending.getLast? = some '{' → next.head? ≠ some '{')

namespace Meets

variable {pending next : List Char}

theorem nil (next : List Char) : Meets [] next := ⟨rfl, fun h => by cases h⟩

theorem of_head (h : hasOpening pending = false) (hnext : next.head? ≠ some '{') :
    Meets pending next :=
  ⟨h, fun _ => hnext⟩

theorem of_start (h : Meets pending next) {first : List Char} (hfirst : first <+: next) :
    Meets pending first := by
  refine ⟨h.1, fun hlast hhead => h.2 hlast ?_⟩
  obtain ⟨rest, rfl⟩ := hfirst
  obtain ⟨tail, rfl⟩ := List.head?_eq_some_iff.1 hhead
  rfl

theorem not_complete_append (h : Meets pending next) (hnext : ¬ Complete next) :
    ¬ Complete (pending ++ next) :=
  fun hc => hnext (hc.of_append h.1 h.2)

theorem hasOpening_append (h : Meets pending next) (hnext : hasOpening next = false) :
    hasOpening (pending ++ next) = false := by
  refine Bool.eq_false_iff.2 fun ho => ?_
  rcases (Marker.hasOpening_append pending next).1 ho with ho | ho | ⟨hlast, hhead⟩
  · rw [h.1] at ho
    cases ho
  · rw [hnext] at ho
    cases ho
  · exact h.2 hlast hhead

end Meets
end Marker

namespace Part

/-- Literal texts in which no marker starts, nor with their first character, are joined to one in
which none starts either. -/
theorem joinFrom_plain {ps : List Part}
    (h : ∀ text, raw text ∈ ps → hasOpening text.toList = false ∧ text.toList.head? ≠ some '{')
    {pending : String} (hpending : hasOpening pending.toList = false) :
    Unmarked (joinFrom pending ps).1 ∧ hasOpening (joinFrom pending ps).2.toList = false := by
  induction pending, ps using raw_induction with
  | nil pending => exact ⟨fun _ h => absurd h List.not_mem_nil, hpending⟩
  | raw pending text ps ih =>
    obtain ⟨⟨htext, hhead⟩, hps⟩ : _ ∧ ∀ t, raw t ∈ ps → _ :=
      ⟨h text List.mem_cons_self, fun t ht => h t (List.mem_cons_of_mem _ ht)⟩
    refine ih hps ?_
    rw [String.toList_append]
    exact (Meets.of_head hpending hhead).hasOpening_append htext
  | part pending part ps hraw ih =>
    have hps := ih (fun t ht => h t (List.mem_cons_of_mem _ ht)) rfl
    have hcomplete : ¬ Complete pending.toList := fun hc => by
      rw [hc.hasOpening] at hpending
      cases hpending
    refine ⟨unmarked_joinFrom_part hraw hcomplete hps.1, ?_⟩
    rw [joinFrom_of_not_raw hraw]
    exact hps.2

theorem Quiet.joinFrom {ps : List Part} (h : Quiet ps) (pending : String) :
    (Part.joinFrom pending ps).2 = "" := by
  obtain ⟨hne, hraw⟩ := h
  induction ps generalizing pending with
  | nil => exact absurd rfl hne
  | cons part ps ih =>
    obtain ⟨hpart, hps⟩ := List.forall_mem_cons.1 hraw
    rw [joinFrom_of_not_raw hpart]
    cases ps with
    | nil => rfl
    | cons part' ps => exact ih "" (List.cons_ne_nil _ _) hps

end Part

end HtmlTemplate
