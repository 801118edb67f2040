import HtmlTemplate.Proofs.Scan.Reading

/-!
# Marked — texts that hold a whole marker

A text holds a whole marker if closing braces stand behind opening ones on the same line.  Cutting
a text at its markers leaves none behind: its pieces are the text again (`Pieces.text_ofText`), and
none of the literals between the markers holds another one (`Pieces.not_complete_literal`).
-/

namespace HtmlTemplate
namespace Marker

/-- Whether a text holds a whole marker. -/
def Complete (cs : List Char) : Prop :=
  ∃ before expression after, '\n' ∉ expression ∧
    cs = before ++ '{' :: '{' :: (expression ++ '}' :: '}' :: after)

/-! ## Opening braces -/

theorem hasOpening_cons (c : Char) (cs : List Char) :
    hasOpening (c :: cs) = true ↔ c = '{' ∧ cs.head? = some '{' ∨ hasOpening cs = true := by
  unfold hasOpening
  constructor
  · intro h
    unfold findOpening at h
    split at h
    · cases h
    · rename_i heq
      obtain ⟨rfl, rfl⟩ := List.cons.inj heq
      exact Or.inl ⟨rfl, rfl⟩
    · rename_i heq
      obtain ⟨rfl, rfl⟩ := List.cons.inj heq
      rw [Option.isSome_map] at h
      exact Or.inr h
  · intro h
    unfold findOpening
    split
    · rename_i heq
      cases heq
    · rfl
    · rename_i hne heq
      obtain ⟨rfl, rfl⟩ := List.cons.inj heq
      rw [Option.isSome_map]
      rcases h with ⟨rfl, hhead⟩ | h
      · obtain ⟨tail, rfl⟩ := List.head?_eq_some_iff.1 hhead
        exact absurd rfl (hne tail rfl)
      · exact h

theorem hasOpening_of_cons {c : Char} {cs : List Char} (h : hasOpening cs = true) :
    hasOpening (c :: cs) = true :=
  (hasOpening_cons c cs).2 (Or.inr h)

/-- Opening braces in two texts side by side stand in one of them, or one brace in each. -/
theorem hasOpening_append (cs ds : List Char) :
    hasOpening (cs ++ ds) = true ↔ hasOpening cs = true ∨ hasOpening ds = true ∨
      cs.getLast? = some '{' ∧ ds.head? = some '{' := by
  induction cs with
  | nil => simp [hasOpening, findOpening]
  | cons c cs ih =>
    rw [List.cons_append, hasOpening_cons, hasOpening_cons, ih]
    cases cs with
    | nil => simp [hasOpening, findOpening, or_comm]
    | cons d cs =>
      rw [List.cons_append, List.head?_cons, List.head?_cons, List.getLast?_cons_cons, or_assoc]

/-- Opening braces behind another character are within what stands behind it. -/
theorem hasOpening_behind {c : Char} (hc : c ≠ '{') {cs : List Char}
    (h : hasOpening (c :: cs) = true) : hasOpening cs = true := by
  rcases (hasOpening_cons c cs).1 h with ⟨he, -⟩ | h
  · exact absurd he hc
  · exact h

/-- Opening braces in front of another character, or behind it. -/
theorem hasOpening_beside {c : Char} (hc : c ≠ '{') {cs ds : List Char}
    (h : hasOpening (cs ++ c :: ds) = true) : hasOpening cs = true ∨ hasOpening ds = true := by
  rcases (hasOpening_append cs (c :: ds)).1 h with h | h | ⟨-, he⟩
  · exact Or.inl h
  · exact Or.inr (hasOpening_behind hc h)
  · exact absurd (Option.some.inj he) hc

/-! ## Whole markers -/

theorem Complete.mono {cs ds : List Char} (h : Complete cs) (hin : cs <:+: ds) : Complete ds := by
  obtain ⟨before, e, after, he, rfl⟩ := h
  obtain ⟨front, back, rfl⟩ := hin
  exact ⟨front ++ before, e, after ++ back, he, by simp⟩

theorem not_complete_nil : ¬ Complete [] := by
  rintro ⟨before, e, after, -, h⟩
  have hnil := (List.append_eq_nil_iff.1 h.symm).2
  cases hnil

/-- A whole marker is at the front of a text or behind its first character. -/
theorem Complete.of_cons {c : Char} {cs : List Char} (h : Complete (c :: cs)) :
    Complete cs ∨ c = '{' ∧ ∃ expression after, '\n' ∉ expression ∧
      cs = '{' :: (expression ++ '}' :: '}' :: after) := by
  obtain ⟨before, e, after, he, h⟩ := h
  rcases List.cons_eq_append_iff.1 h with ⟨-, h⟩ | ⟨before, -, rfl⟩
  · obtain ⟨rfl, rfl⟩ := List.cons.inj h
    exact Or.inr ⟨rfl, e, after, he, rfl⟩
  · exact Or.inl ⟨before, e, after, he, rfl⟩

theorem Complete.hasOpening {cs : List Char} (h : Complete cs) : hasOpening cs = true := by
  obtain ⟨before, e, after, -, rfl⟩ := h
  rw [hasOpening_append, hasOpening_cons]
  exact Or.inr (Or.inl (Or.inl ⟨rfl, rfl⟩))

/-- A marker does not start in a text without opening braces. -/
theorem Complete.of_append {cs ds : List Char} (h : Complete (cs ++ ds))
    (hcs : Marker.hasOpening cs = false) (hjoint : cs.getLast? = some '{' → ds.head? ≠ some '{') :
    Complete ds := by
  induction cs with
  | nil => exact h
  | cons c cs ih =>
    have hcs' : Marker.hasOpening cs = false :=
      Bool.eq_false_iff.2 fun h => Bool.eq_false_iff.1 hcs (hasOpening_of_cons h)
    rcases h.of_cons with h | ⟨rfl, e, after, -, h⟩
    · refine ih h hcs' fun hlast => hjoint ?_
      rw [List.getLast?_cons, hlast]
      rfl
    · cases cs with
      | nil =>
        exact absurd (congrArg List.head? h) (hjoint rfl)
      | cons d cs =>
        obtain ⟨rfl, -⟩ := List.cons.inj h
        exact absurd ((hasOpening_cons '{' ('{' :: cs)).2 (Or.inl ⟨rfl, rfl⟩))
          (Bool.eq_false_iff.1 hcs)

theorem readExpression_isSome {expression : List Char} (h : '\n' ∉ expression)
    (rest : List Char) :
    (readExpression (expression ++ '}' :: '}' :: rest)).isSome = true := by
  induction expression with
  | nil => rfl
  | cons c e ih =>
    obtain ⟨hc, he⟩ := not_or.1 (mt List.mem_cons.2 h)
    rw [List.cons_append]
    unfold readExpression
    split
    · rename_i heq
      cases heq
    · rfl
    · rename_i heq
      obtain ⟨rfl, rfl⟩ := List.cons.inj heq
      rw [if_neg (by simpa using Ne.symm hc), Option.isSome_map]
      exact ih he

end Marker

namespace Pieces

open Marker

/-- The literals between the markers, the one behind the last marker included. -/
def literals (p : Pieces) : List (List Char) := p.marked.map (·.1) ++ [p.tail]

theorem text_push (c : Char) (p : Pieces) : (p.push c).text = c :: p.text := by
  obtain ⟨_ | ⟨⟨literal, e⟩, marked⟩, tail⟩ := p <;> rfl

theorem text_mark (expression : List Char) (p : Pieces) :
    (p.mark expression).text = '{' :: '{' :: expression ++ ['}', '}'] ++ p.text := by
  simp [mark, text]

/-- The pieces of a text are the text. -/
theorem text_ofText (cs : List Char) : (ofText cs).text = cs := by
  fun_induction ofText cs with
  | case1 => rfl
  | case2 cs e rest h _ ih =>
    rw [text_mark, ih, readExpression_eq h]
    simp
  | case3 cs h ih => rw [text_push, ih]
  | case4 c cs hno ih => rw [text_push, ih]

/-- A character in front of the pieces is in front of the first literal. -/
theorem literals_push (c : Char) (p : Pieces) :
    ∃ first rest, p.literals = first :: rest ∧ (p.push c).literals = (c :: first) :: rest ∧
      first <+: p.text := by
  obtain ⟨_ | ⟨⟨literal, e⟩, marked⟩, tail⟩ := p
  · exact ⟨tail, [], rfl, rfl, List.prefix_refl _⟩
  · refine ⟨literal, marked.map (·.1) ++ [tail], rfl, rfl, ?_⟩
    simp [text]

/-- No literal between the markers of a text holds another marker. -/
theorem not_complete_literal {cs literal : List Char} (hmem : literal ∈ (ofText cs).literals) :
    ¬ Complete literal := by
  fun_induction ofText cs generalizing literal with
  | case1 =>
    obtain rfl := List.mem_singleton.1 hmem
    exact not_complete_nil
  | case2 cs e rest h _ ih =>
    rcases List.mem_cons.1 hmem with rfl | hmem
    · exact not_complete_nil
    · exact ih hmem
  | case3 cs hread ih =>
    obtain ⟨first, rest, hfirst, hpush, hstart⟩ := literals_push '{' (ofText ('{' :: cs))
    rw [text_ofText] at hstart
    rw [hpush] at hmem
    rw [hfirst] at ih
    rcases List.mem_cons.1 hmem with rfl | hmem
    · intro h
      rcases h.of_cons with h | ⟨-, e, after, he, rfl⟩
      · exact ih List.mem_cons_self h
      · -- The expression would have been read.
        obtain ⟨back, hback⟩ := (List.cons_prefix_cons.1 hstart).2
        have hsome := readExpression_isSome he (after ++ back)
        rw [← hback, List.append_assoc] at hread
        rw [← List.cons_append, ← List.cons_append] at hsome
        rw [hread] at hsome
        cases hsome
    · exact ih (List.mem_cons_of_mem _ hmem)
  | case4 c cs hno ih =>
    obtain ⟨first, rest, hfirst, hpush, hstart⟩ := literals_push c (ofText cs)
    rw [text_ofText] at hstart
    rw [hpush] at hmem
    rw [hfirst] at ih
    rcases List.mem_cons.1 hmem with rfl | hmem
    · intro h
      rcases h.of_cons with h | ⟨rfl, e, after, -, rfl⟩
      · exact ih List.mem_cons_self h
      · obtain ⟨back, rfl⟩ := hstart
        exact hno _ rfl rfl
    · exact ih (List.mem_cons_of_mem _ hmem)

theorem length_alternating (p : Pieces) : p.alternating.length = 2 * p.marked.length + 1 := by
  unfold alternating
  rw [List.length_append]
  congr 1
  induction p.marked with
  | nil => rfl
  | cons m marked ih =>
    rw [List.flatMap_cons, List.length_append, ih]
    simp only [List.length_cons, List.length_nil]
    omega

/-- The first literal is what the text starts with. -/
theorem head_literals {p : Pieces} {first : List Char} (h : first ∈ p.literals.head?) :
    first <+: p.text := by
  obtain ⟨_ | ⟨⟨literal, e⟩, marked⟩, tail⟩ := p
  · obtain rfl := Option.some.inj h
    exact List.prefix_refl _
  · obtain rfl := Option.some.inj h
    simp [text]

/-- A text that does not end with a brace ends with its last literal. -/
theorem getLast?_tail {p : Pieces} {c : Char} (hlast : p.text.getLast? = some c) (hc : c ≠ '}') :
    p.tail.getLast? = some c := by
  obtain ⟨marked, tail⟩ := p
  cases tail with
  | cons d tail => simpa [text, List.getLast?_append] using hlast
  | nil =>
    rcases List.eq_nil_or_concat marked with rfl | ⟨front, ⟨literal, e⟩, rfl⟩
    · cases hlast
    · have hbrace : ((⟨front.concat (literal, e), []⟩ : Pieces).text).getLast? = some '}' := by
        simp [text, List.getLast?_append, List.getLast?_cons]
      exact absurd (Option.some.inj (hlast.symm.trans hbrace)) hc

end Pieces
end HtmlTemplate
