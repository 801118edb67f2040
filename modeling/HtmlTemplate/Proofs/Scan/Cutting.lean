import HtmlTemplate.Proofs.Scan.Unclosed
import HtmlTemplate.Proofs.Tag.Form

/-!
# Cutting — pieces that are joined are cut apart again

A marker is as far to the left as it can be, and ends with the nearest closing braces.  So literals
and expressions that are joined come apart again where they were joined, unless a brace at a joint
belongs to both sides (`Pieces.ofText_text`).  Whatever the text is, the literals with the
expressions put back between them are the text (`Pieces.rejoined_alternating`).
-/

namespace HtmlTemplate

open Text Marker

namespace Marker

theorem hasOpening_iff {cs : List Char} : hasOpening cs = true ↔ ['{', '{'] <:+: cs := by
  induction cs with
  | nil => exact iff_of_false Bool.false_ne_true fun h => List.cons_ne_nil _ _ (List.infix_nil.1 h)
  | cons c cs ih =>
    have hhead : c = '{' ∧ cs.head? = some '{' ↔ ['{', '{'] <+: c :: cs := by
      cases cs with
      | nil => simp
      | cons d cs => simp [List.cons_prefix_cons, eq_comm]
    rw [hasOpening_cons, List.infix_cons_iff, hhead, ih]

theorem Closed.read {expression : List Char} (h : Closed expression) (rest : List Char) :
    readExpression (expression ++ '}' :: '}' :: rest) = some (expression, rest) :=
  readExpression_append h.line h.closing h.last

end Marker

namespace Pieces

/-! ## Joined and cut again -/

/-- Whether the pieces can be told apart when they are joined: no literal holds opening braces or
ends with the first one of a pair, and every expression goes up to the first closing braces behind
it. -/
structure Separable (p : Pieces) : Prop where
  literals : ∀ m ∈ p.marked, ¬ ['{', '{'] <:+: m.1 ∧ m.1.getLast? ≠ some '{'
  expressions : ∀ m ∈ p.marked, Closed m.2
  tail : ¬ ['{', '{'] <:+: p.tail

/-- Separable pieces are what their text is cut into. -/
theorem ofText_text {p : Pieces} (h : p.Separable) : ofText p.text = p := by
  obtain ⟨marked, tail⟩ := p
  induction marked with
  | nil =>
    have hnone : ¬ Complete tail := fun hc => h.tail (hasOpening_iff.1 hc.hasOpening)
    exact ofText_of_not_complete hnone
  | cons first marked ih =>
    obtain ⟨literal, expression⟩ := first
    obtain ⟨⟨hopening, hlast⟩, hliterals⟩ := List.forall_mem_cons.1 h.literals
    obtain ⟨hclosed, hexpressions⟩ := List.forall_mem_cons.1 h.expressions
    have hrest : ofText (⟨marked, tail⟩ : Pieces).text = ⟨marked, tail⟩ :=
      ih ⟨hliterals, hexpressions, h.tail⟩
    have htext : (⟨(literal, expression) :: marked, tail⟩ : Pieces).text = literal ++
        '{' :: '{' :: (expression ++ '}' :: '}' :: (⟨marked, tail⟩ : Pieces).text) := by
      simp [text]
    rw [htext, ofText_literal_marker (Bool.eq_false_iff.2 (mt hasOpening_iff.1 hopening)) hlast
      (hclosed.read _), hrest]

/-! ## Put together again -/

/-- Every other element, the first one included. -/
def everyOther {α : Type} : List α → List α
  | [] => []
  | [a] => [a]
  | a :: _ :: rest => a :: everyOther rest

/-- Texts with markers between them, as many as there are expressions. -/
def rejoined : List String → List (List Char) → List Char
  | [], _ => []
  | text :: texts, [] => text.toList ++ rejoined texts []
  | text :: texts, expression :: expressions =>
    text.toList ++ '{' :: '{' :: (expression ++ '}' :: '}' :: rejoined texts expressions)

theorem alternating_cons (literal expression : List Char) (marked : List (List Char × List Char))
    (tail : List Char) : alternating ⟨(literal, expression) :: marked, tail⟩ =
      String.ofList literal :: String.ofList (strip expression) :: alternating ⟨marked, tail⟩ := rfl

/-- At the even places stand the literals. -/
theorem everyOther_alternating (p : Pieces) :
    everyOther p.alternating = p.literals.map String.ofList := by
  obtain ⟨marked, tail⟩ := p
  induction marked with
  | nil => rfl
  | cons first marked ih => rw [alternating_cons, everyOther, ih]; rfl

/-- At the odd places stand the expressions, stripped. -/
theorem everyOther_tail_alternating (p : Pieces) :
    everyOther p.alternating.tail = p.marked.map fun m => String.ofList (strip m.2) := by
  obtain ⟨marked, tail⟩ := p
  induction marked with
  | nil => rfl
  | cons first marked ih =>
    rw [alternating_cons, List.tail_cons, List.map_cons, ← ih]
    cases marked <;> rfl

/-- The literals with the expressions put back between them are the text. -/
theorem rejoined_alternating (p : Pieces) :
    rejoined (everyOther p.alternating) (p.marked.map (·.2)) = p.text := by
  rw [everyOther_alternating]
  obtain ⟨marked, tail⟩ := p
  induction marked with
  | nil => simp [literals, rejoined, text]
  | cons first marked ih =>
    calc rejoined ((⟨first :: marked, tail⟩ : Pieces).literals.map String.ofList)
          ((first :: marked).map (·.2))
        = (String.ofList first.1).toList ++ '{' :: '{' :: (first.2 ++ '}' :: '}' ::
            rejoined ((⟨marked, tail⟩ : Pieces).literals.map String.ofList)
              (marked.map (·.2))) := rfl
      _ = first.1 ++ '{' :: '{' :: (first.2 ++ '}' :: '}' :: (⟨marked, tail⟩ : Pieces).text) := by
          rw [ih, String.toList_ofList]
      _ = (⟨first :: marked, tail⟩ : Pieces).text := by simp [text]

/-- Cutting undoes joining, and joining undoes cutting.

Separable pieces come back from their text: the literals at the even places, the expressions without
the blanks around them at the odd ones, and what stands behind the last marker.  Every text has an
odd number of segments, and putting the expressions, blanks included, back between the literals
gives the text; no literal holds a whole marker, and every expression goes up to the first closing
braces behind it. -/
theorem alternating_text :
    (∀ p : Pieces, p.Separable → (ofText p.text).alternating = p.alternating) ∧
    ∀ cs, ∃ expressions : List (List Char),
      (ofText cs).alternating.length = 2 * expressions.length + 1 ∧
      everyOther (ofText cs).alternating.tail =
        expressions.map (fun e => String.ofList (strip e)) ∧
      rejoined (everyOther (ofText cs).alternating) expressions = cs ∧
      (∀ literal ∈ everyOther (ofText cs).alternating, ¬ Complete literal.toList) ∧
      ∀ e ∈ expressions, Closed e := by
  constructor
  · intro p h
    rw [ofText_text h]
  · intro cs
    refine ⟨(ofText cs).marked.map (·.2), ?_, ?_, ?_, ?_, ?_⟩
    · rw [length_alternating, List.length_map]
    · rw [everyOther_tail_alternating, List.map_map]
      rfl
    · rw [rejoined_alternating, text_ofText]
    · rw [everyOther_alternating, List.forall_mem_map]
      intro literal hmem
      rw [String.toList_ofList]
      exact not_complete_literal hmem
    · rw [List.forall_mem_map]
      exact closed_marked cs

/-- Single braces at the joints, and braces of the other kind inside. -/
theorem alternating_text_braces : ∃ p : Pieces, p.Separable ∧
    p.text = "\x7d\x7d\x7b \x7b\x7b \x7ba\x7b\x7bb\x7dc \x7d\x7d\x7d\x7b\x7b\x7d\x7d\x7d\x7b".toList ∧
    (ofText p.text).alternating =
      ["\x7d\x7d\x7b ", "\x7ba\x7b\x7bb\x7dc", "\x7d", "", "\x7d\x7b"] := by
  let p : Pieces := ⟨[(['}', '}', '{', ' '], [' ', '{', 'a', '{', '{', 'b', '}', 'c', ' ']),
    (['}'], [])], ['}', '{']⟩
  have hclosed : ∀ m ∈ p.marked, Closed m.2 :=
    List.forall_mem_cons.2 ⟨⟨by decide, by decide, by decide⟩,
      List.forall_mem_singleton.2 ⟨by decide, by decide, by decide⟩⟩
  have hseparable : p.Separable := ⟨by decide, hclosed, by decide⟩
  have hsegments : p.alternating =
      ["\x7d\x7d\x7b ", "\x7ba\x7b\x7bb\x7dc", "\x7d", "", "\x7d\x7b"] := by decide
  exact ⟨p, hseparable, by decide, (alternating_text.1 p hseparable).trans hsegments⟩

end Pieces
end HtmlTemplate
