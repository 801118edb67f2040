import HtmlTemplate.Proofs.Shape.Node

/-!
# Pieces — what the text of a shape is put together from

The text of a shape consists of blanks, a few fixed texts and the keys of its fields.  So it has
every property that these have and that texts keep when they are put together
(`Shape.Composed.describe`), where the keys are those of the names in the shape (`Shape.names`).
-/

namespace HtmlTemplate

open Text

namespace Shape

mutual

/-- The names of all fields of a shape, those of its elements included. -/
def names : Shape → List String
  | node _ _ c => namesIn c

def namesIn : List (Step × Shape) → List String
  | [] => []
  | (step, s) :: rest => step.name?.toList ++ names s ++ namesIn rest

end

/-- What stands in the text of every shape with a field. -/
def fixedTexts : List String :=
  ["Any", "\x7b\n", "\x7d", "Required", "NotRequired", "[", "__iter__: Iterator[", "],\n"]

/-- A property of texts that can be told from the pieces of a shape's text, given a property of the
names of its fields. -/
structure Composed (P : List Char → Prop) (Q : String → Prop) : Prop where
  append : ∀ {cs ds : List Char}, P cs → P ds → P (cs ++ ds)
  blanks : ∀ {cs : List Char}, (∀ c ∈ cs, c = ' ') → P cs
  fixed : ∀ text ∈ fixedTexts, P text.toList
  key : ∀ name, Q name → P (encodeKey name ++ ": ").toList

namespace Composed

section Lines

variable {P : List Char → Prop} {Q : String → Prop} (h : Composed P Q) {indent : String}
  (hindent : ∀ c ∈ indent.toList, c = ' ')

include h hindent

theorem fieldLine {name text : String} (required : Bool) (hname : Q name) (htext : P text.toList) :
    P (fieldLine indent name required text).toList := by
  have hmark : P (if required then "Required" else "NotRequired" : String).toList := by
    cases required <;> exact h.fixed _ (by decide)
  have hline := h.append (h.append (h.append (h.append (h.append (h.blanks hindent)
    (h.key name hname)) hmark) (h.fixed "[" (by decide))) htext) (h.fixed "],\n" (by decide))
  simpa [Shape.fieldLine] using hline

theorem elementLine {text : String} (htext : P text.toList) :
    P (elementLine indent text).toList := by
  have hline := h.append (h.append (h.append (h.blanks hindent)
    (h.fixed "__iter__: Iterator[" (by decide))) htext) (h.fixed "],\n" (by decide))
  simpa [Shape.elementLine] using hline

theorem bracket {lines : List String} (hlines : ∀ line ∈ lines, P line.toList) :
    P (bracket indent lines).toList := by
  have hall : P (String.join lines).toList := by
    clear hindent
    induction lines with
    | nil => exact h.blanks fun _ hc => absurd hc List.not_mem_nil
    | cons line lines ih =>
      rw [String.join_cons, String.toList_append]
      exact h.append (hlines line List.mem_cons_self)
        (ih fun other hother => hlines other (List.mem_cons_of_mem line hother))
  unfold Shape.bracket
  split
  · exact h.fixed _ (by decide)
  · simp only [String.toList_append]
    exact h.append (h.append (h.append (h.fixed _ (by decide)) hall) (h.blanks hindent))
      (h.fixed _ (by decide))

end Lines

theorem blank_margin {indent : String} (hindent : ∀ c ∈ indent.toList, c = ' ') :
    ∀ c ∈ (indent ++ margin).toList, c = ' ' := by
  intro c hc
  rw [String.toList_append] at hc
  rcases List.mem_append.1 hc with hc | hc
  · exact hindent c hc
  · exact List.eq_of_mem_replicate (show c ∈ List.replicate 4 ' ' from hc)

section Describe

variable {P : List Char → Prop} {Q : String → Prop} (h : Composed P Q)

include h

mutual

theorem describe : ∀ (s : Shape) {indent : String}, (∀ name ∈ s.names, Q name) →
    (∀ c ∈ indent.toList, c = ' ') → P (describe indent s).toList
  | node _ _ c, indent, hnames, hindent => by
    rw [Shape.describe]
    apply h.bracket hindent
    intro line hline
    rcases List.mem_append.1 hline with hline | hline
    · exact fieldLines c hnames (blank_margin hindent) line hline
    · exact elementLines c hnames (blank_margin hindent) line hline

theorem fieldLines : ∀ (c : List (Step × Shape)) {indent : String}, (∀ name ∈ namesIn c, Q name) →
    (∀ c ∈ indent.toList, c = ' ') → ∀ line ∈ fieldLines indent c, P line.toList
  | [], _, _, _ => fun _ hline => absurd hline List.not_mem_nil
  | (.field name, s) :: rest, indent, hnames, hindent => by
    simp only [namesIn, Step.name?_field, List.forall_mem_append] at hnames
    intro line hline
    rw [Shape.fieldLines] at hline
    rcases List.mem_cons.1 hline with rfl | hline
    · exact h.fieldLine hindent s.required (hnames.1.1 name (List.mem_singleton_self _))
        (describe s hnames.1.2 hindent)
    · exact fieldLines rest hnames.2 hindent line hline
  | (.element, s) :: rest, indent, hnames, hindent => by
    simp only [namesIn, List.forall_mem_append] at hnames
    rw [Shape.fieldLines]
    exact fieldLines rest hnames.2 hindent

theorem elementLines : ∀ (c : List (Step × Shape)) {indent : String},
    (∀ name ∈ namesIn c, Q name) → (∀ c ∈ indent.toList, c = ' ') →
      ∀ line ∈ elementLines indent c, P line.toList
  | [], _, _, _ => fun _ hline => absurd hline List.not_mem_nil
  | (.field _, s) :: rest, indent, hnames, hindent => by
    simp only [namesIn, List.forall_mem_append] at hnames
    rw [Shape.elementLines]
    exact elementLines rest hnames.2 hindent
  | (.element, s) :: rest, indent, hnames, hindent => by
    simp only [namesIn, List.forall_mem_append] at hnames
    intro line hline
    rw [Shape.elementLines] at hline
    rcases List.mem_cons.1 hline with rfl | hline
    · exact h.elementLine hindent (describe s hnames.1.2 hindent)
    · exact elementLines rest hnames.2 hindent line hline

end

end Describe

end Composed
end Shape
end HtmlTemplate
