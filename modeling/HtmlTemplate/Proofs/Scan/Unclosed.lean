import HtmlTemplate.Proofs.Scan.Expression
import Mathlib.Data.List.Basic

/-!
# Unclosed — opening braces that no marker takes

Opening braces are unclosed if the line ends before closing braces do.  They stay in a literal: in
the last one if no whole marker stands behind them (`Pieces.hasOpening_tail_iff`), and in one before
a marker otherwise (`Pieces.hasOpening_marked_iff`).  Only the last literal is looked through for
them, so that a text with unclosed braces is refused for them unless a whole marker follows
(`Interpolation.unclosed_passes_iff`).
-/

namespace HtmlTemplate

open Text Marker

/-! ## Unclosed braces -/

namespace Marker

/-- Whether the line ends before closing braces do, `after` being what stands behind the opening
ones. -/
def Unclosed (after : List Char) : Prop :=
  ∀ expression rest, after = expression ++ '}' :: '}' :: rest → '\n' ∈ expression

/-- Whether a text has unclosed opening braces, with `after` behind them. -/
def UnclosedAt (cs after : List Char) : Prop := '{' :: '{' :: after <:+ cs ∧ Unclosed after

/-- Whether a text can go on with another character in front of it and no marker starts there. -/
def Unmarking (c : Char) (cs : List Char) : Prop :=
  ∀ tail, c = '{' → cs = '{' :: tail → Unclosed tail

/-- Whether an expression goes up to the first closing braces behind it, on its line. -/
structure Closed (expression : List Char) : Prop where
  line : '\n' ∉ expression
  closing : ¬ ['}', '}'] <:+: expression
  last : expression.getLast? ≠ some '}'

theorem closed_of_read {cs expression rest : List Char}
    (h : readExpression cs = some (expression, rest)) : Closed expression := by
  fun_induction readExpression cs generalizing expression with
  | case1 => cases h
  | case2 =>
    cases h
    exact ⟨by decide, by decide, by decide⟩
  | case3 => cases h
  | case4 c cs hopen hline ih =>
    obtain ⟨⟨e, r⟩, he, h⟩ := Option.map_eq_some_iff.1 h
    cases h
    obtain ⟨hline', hclosing, hlast⟩ := ih he
    -- Closing braces would have been read as soon as the first one was reached.
    have hfirst : ∀ tail, c = '}' → e ++ '}' :: '}' :: rest ≠ '}' :: tail := by
      intro tail hc he'
      exact hopen tail hc ((readExpression_eq he).trans he')
    refine ⟨List.not_mem_cons_of_ne_of_not_mem (fun hc => hline (by simp [← hc])) hline', ?_, ?_⟩
    · rw [List.infix_cons_iff, not_or]
      refine ⟨?_, hclosing⟩
      rintro ⟨tail, htail⟩
      obtain ⟨hc, rfl⟩ := List.cons.inj htail
      exact hfirst _ hc.symm rfl
    · intro hbrace
      cases e with
      | nil => exact hfirst _ (Option.some.inj hbrace) rfl
      | cons d e => exact hlast ((List.getLast?_cons_cons).symm.trans hbrace)

theorem readExpression_eq_none_iff {after : List Char} :
    readExpression after = none ↔ Unclosed after := by
  constructor
  · intro h expression rest he
    refine Classical.byContradiction fun hline => ?_
    have hsome := readExpression_isSome hline rest
    rw [← he, h] at hsome
    cases hsome
  · intro h
    cases hread : readExpression after with
    | none => rfl
    | some found =>
      exact absurd (h found.1 found.2 (readExpression_eq hread)) (closed_of_read hread).line

/-- Braces that are unclosed are so from the next character on. -/
theorem Unclosed.of_cons {c : Char} {cs : List Char} (h : Unclosed (c :: cs)) (hc : c ≠ '\n') :
    Unclosed cs := by
  rintro expression rest rfl
  exact (List.mem_cons.1 (h (c :: expression) rest rfl)).resolve_left (Ne.symm hc)

theorem unclosedAt_cons {c : Char} {cs after : List Char} :
    UnclosedAt (c :: cs) after ↔
      (c = '{' ∧ cs = '{' :: after ∧ Unclosed after) ∨ UnclosedAt cs after := by
  unfold UnclosedAt
  rw [List.suffix_cons_iff, or_and_right, List.cons.injEq, and_assoc, eq_comm (a := '{'),
    eq_comm (b := cs)]

/-- Behind what is closed on the line, unclosed braces are those of the rest. -/
theorem unclosedAt_closed {expression rest after : List Char} (hline : '\n' ∉ expression) :
    UnclosedAt (expression ++ '}' :: '}' :: rest) after ↔ UnclosedAt rest after := by
  have hbrace : ∀ cs, UnclosedAt ('}' :: cs) after ↔ UnclosedAt cs after := fun cs =>
    unclosedAt_cons.trans (or_iff_right fun h => absurd h.1 (by decide))
  induction expression with
  | nil => rw [List.nil_append, hbrace, hbrace]
  | cons c expression ih =>
    obtain ⟨-, hline⟩ := not_or.1 (mt List.mem_cons.2 hline)
    rw [List.cons_append, unclosedAt_cons]
    refine Iff.trans (or_iff_right ?_) (ih hline)
    rintro ⟨-, hcs, hafter⟩
    cases expression with
    | nil => cases hcs
    | cons d expression =>
      obtain ⟨-, rfl⟩ := List.cons.inj hcs
      exact hline (List.mem_cons_of_mem d (hafter expression rest rfl))

/-- Where no marker starts with the first character, whole markers are those behind it. -/
theorem complete_cons_iff {c : Char} {cs : List Char} (h : Unmarking c cs) :
    Complete (c :: cs) ↔ Complete cs := by
  refine ⟨fun hcomplete => ?_, fun hcomplete => hcomplete.mono (List.suffix_cons c cs).isInfix⟩
  rcases hcomplete.of_cons with hcs | ⟨hc, expression, after, hline, hcs⟩
  · exact hcs
  · exact absurd (h _ hc hcs expression after rfl) hline

theorem Unclosed.complete_iff {after : List Char} (h : Unclosed after) :
    Complete ('{' :: after) ↔ Complete after := by
  apply complete_cons_iff
  rintro tail - rfl
  exact h.of_cons (by decide)

end Marker

/-! ## Literals with unclosed braces -/

namespace Pieces

/-- A text is empty, or starts with a marker, or with a character of a literal. -/
theorem ofText_induction {P : List Char → Pieces → Prop} (nil : P [] ⟨[], []⟩)
    (marker : ∀ expression rest,
      readExpression (expression ++ '}' :: '}' :: rest) = some (expression, rest) →
      P rest (ofText rest) →
      P ('{' :: '{' :: expression ++ '}' :: '}' :: rest) ((ofText rest).mark expression))
    (literal : ∀ c cs, Unmarking c cs → P cs (ofText cs) → P (c :: cs) ((ofText cs).push c))
    (cs : List Char) : P cs (ofText cs) := by
  fun_induction ofText cs with
  | case1 => exact nil
  | case2 cs expression rest h _ ih =>
    have hcs := readExpression_eq h
    rw [hcs]
    exact marker expression rest (hcs ▸ h) ih
  | case3 cs h ih =>
    refine literal '{' ('{' :: cs) ?_ ih
    rintro tail - htail
    obtain rfl := (List.cons.inj htail).2
    exact readExpression_eq_none_iff.1 h
  | case4 c cs hno ih => exact literal c cs (fun tail hc hcs => absurd hcs (hno tail hc)) ih

theorem marked_push (c : Char) (p : Pieces) : (p.push c).marked = [] ↔ p.marked = [] := by
  obtain ⟨_ | ⟨first, marked⟩, tail⟩ := p
  · exact Iff.rfl
  · exact iff_of_false (List.cons_ne_nil _ _) (List.cons_ne_nil _ _)

/-- A text has a marker exactly if it holds a whole one. -/
theorem marked_eq_nil_iff (cs : List Char) : (ofText cs).marked = [] ↔ ¬ Complete cs := by
  induction cs using ofText_induction with
  | nil => exact iff_of_true rfl not_complete_nil
  | marker expression rest hread _ =>
    exact iff_of_false (List.cons_ne_nil _ _)
      (not_not_intro ⟨[], expression, rest, (closed_of_read hread).line, rfl⟩)
  | literal c cs h ih => rw [marked_push, ih, complete_cons_iff h]

/-- Every expression that is cut out goes up to the first closing braces behind it. -/
theorem closed_marked (cs : List Char) : ∀ m ∈ (ofText cs).marked, Closed m.2 := by
  induction cs using ofText_induction with
  | nil => exact fun _ h => absurd h List.not_mem_nil
  | marker expression rest hread ih => exact List.forall_mem_cons.2 ⟨closed_of_read hread, ih⟩
  | literal c cs _ ih =>
    revert ih
    obtain ⟨_ | ⟨first, marked⟩, tail⟩ := ofText cs
    · exact id
    · intro ih
      exact List.forall_mem_cons.2 (List.forall_mem_cons.1 ih)

/-- The text up to the last literal. -/
def front (p : Pieces) : List Char := (⟨p.marked, []⟩ : Pieces).text

/-- Behind everything up to it stands the last literal. -/
theorem drop_text (p : Pieces) (n : Nat) : p.text.drop (p.front.length + n) = p.tail.drop n := by
  have htext : p.text = p.front ++ p.tail := by simp [front, text]
  rw [htext, List.drop_append, List.drop_eq_nil_of_le (Nat.le_add_right _ _), List.nil_append,
    Nat.add_sub_cancel_left]

/-- A text without a whole marker is its last literal. -/
theorem ofText_of_not_complete {cs : List Char} (h : ¬ Complete cs) : ofText cs = ⟨[], cs⟩ := by
  have htext := text_ofText cs
  have hmarked := (marked_eq_nil_iff cs).2 h
  cases hp : ofText cs with
  | mk marked tail =>
    rw [hp] at htext hmarked
    obtain rfl : marked = [] := hmarked
    obtain rfl : tail = cs := htext
    rfl

/-- A text with a whole marker starts with the literal before the first one. -/
theorem exists_first {cs : List Char} (h : Complete cs) :
    ∃ literal expression marked tail, ofText cs = ⟨(literal, expression) :: marked, tail⟩ ∧
      '\n' ∉ expression ∧ ∃ rest,
        cs = literal ++ '{' :: '{' :: (expression ++ '}' :: '}' :: rest) := by
  have hmarked := (marked_eq_nil_iff cs).not.2 (not_not_intro h)
  have hclosed := closed_marked cs
  have htext := text_ofText cs
  cases hp : ofText cs with
  | mk marked tail =>
    rw [hp] at hmarked hclosed htext
    obtain ⟨⟨literal, expression⟩, marked, rfl⟩ := List.exists_cons_of_ne_nil hmarked
    refine ⟨literal, expression, marked, tail, rfl, (hclosed _ List.mem_cons_self).line,
      (⟨marked, tail⟩ : Pieces).text, ?_⟩
    rw [← htext]
    simp [text]

/-- The last literal has the unclosed braces that no whole marker follows. -/
theorem hasOpening_tail_iff (cs : List Char) : hasOpening (ofText cs).tail = true ↔
    ∃ after, UnclosedAt cs after ∧ ¬ Complete after := by
  induction cs using ofText_induction with
  | nil =>
    refine iff_of_false Bool.false_ne_true ?_
    rintro ⟨after, ⟨hafter, -⟩, -⟩
    exact List.cons_ne_nil _ _ (List.suffix_nil.1 hafter)
  | marker expression rest hread ih =>
    have hbraces : '\n' ∉ '{' :: '{' :: expression := by
      simpa using (closed_of_read hread).line
    simp only [unclosedAt_closed hbraces]
    exact ih
  | literal c cs h ih =>
    by_cases hcomplete : Complete cs
    · obtain ⟨literal, expression, marked, tail, hp, -⟩ := exists_first hcomplete
      rw [hp] at ih ⊢
      refine Iff.trans ih (exists_congr fun after => and_congr_left fun hafter => ?_)
      rw [unclosedAt_cons]
      refine (or_iff_right ?_).symm
      rintro ⟨-, rfl, hopen⟩
      exact hafter (hopen.complete_iff.1 hcomplete)
    · rw [ofText_of_not_complete hcomplete] at ih ⊢
      change hasOpening (c :: cs) = true ↔ _
      rw [hasOpening_cons]
      constructor
      · rintro (⟨rfl, hhead⟩ | hopening)
        · obtain ⟨after, rfl⟩ := List.head?_eq_some_iff.1 hhead
          have hopen := h after rfl rfl
          exact ⟨after, unclosedAt_cons.2 (Or.inl ⟨rfl, rfl, hopen⟩),
            hopen.complete_iff.not.1 hcomplete⟩
        · obtain ⟨after, hat, hafter⟩ := ih.1 hopening
          exact ⟨after, unclosedAt_cons.2 (Or.inr hat), hafter⟩
      · rintro ⟨after, hat, hafter⟩
        rcases unclosedAt_cons.1 hat with ⟨rfl, rfl, -⟩ | hat
        · exact Or.inl ⟨rfl, rfl⟩
        · exact Or.inr (ih.2 ⟨after, hat, hafter⟩)

/-- The literals before markers have the unclosed braces that some whole marker follows. -/
theorem hasOpening_marked_iff (cs : List Char) :
    (∃ m ∈ (ofText cs).marked, hasOpening m.1 = true) ↔
      ∃ after, UnclosedAt cs after ∧ Complete after := by
  induction cs using ofText_induction with
  | nil =>
    refine iff_of_false (fun ⟨_, h, _⟩ => absurd h List.not_mem_nil) ?_
    rintro ⟨after, ⟨hafter, -⟩, -⟩
    exact List.cons_ne_nil _ _ (List.suffix_nil.1 hafter)
  | marker expression rest hread ih =>
    have hbraces : '\n' ∉ '{' :: '{' :: expression := by
      simpa using (closed_of_read hread).line
    simp only [unclosedAt_closed hbraces]
    rw [← ih]
    exact (List.exists_mem_cons_iff _ _ _).trans (or_iff_right Bool.false_ne_true)
  | literal c cs h ih =>
    by_cases hcomplete : Complete cs
    · obtain ⟨literal, expression, marked, tail, hp, hline, rest, hcs⟩ := exists_first hcomplete
      rw [hp] at ih ⊢
      change (∃ m ∈ (c :: literal, expression) :: marked, hasOpening m.1 = true) ↔ _
      rw [List.exists_mem_cons_iff] at ih ⊢
      rw [hasOpening_cons, or_assoc, ih]
      simp only [unclosedAt_cons, or_and_right, exists_or]
      refine or_congr_left ?_
      constructor
      · rintro ⟨rfl, hhead⟩
        obtain ⟨literal, rfl⟩ := List.head?_eq_some_iff.1 hhead
        have hopen := h _ rfl hcs
        rw [hcs] at hcomplete
        exact ⟨_, ⟨rfl, hcs, hopen⟩, hopen.complete_iff.1 hcomplete⟩
      · rintro ⟨after, ⟨hc, hafter, hopen⟩, -⟩
        refine ⟨hc, ?_⟩
        cases literal with
        | nil =>
          -- The marker behind the brace would close it on the line.
          obtain rfl := (List.cons.inj (hafter.symm.trans hcs)).2
          exact absurd (hopen ('{' :: expression) rest rfl) (by simpa using hline)
        | cons d literal =>
          obtain ⟨rfl, -⟩ := List.cons.inj (hafter.symm.trans hcs)
          rfl
    · rw [ofText_of_not_complete hcomplete]
      refine iff_of_false (fun ⟨_, h, _⟩ => absurd h List.not_mem_nil) ?_
      rintro ⟨after, ⟨hafter, -⟩, hin⟩
      have hlonger : after <:+: c :: cs :=
        (((List.suffix_cons _ _).trans (List.suffix_cons _ _)).trans hafter).isInfix
      exact hcomplete ((complete_cons_iff h).1 (hin.mono hlonger))

end Pieces

/-! ## What becomes of them -/

namespace Interpolation

/-- Whether an expression stands for a part: for a value, or for a directive. -/
def Known (expression : List Char) : Prop :=
  expression.head?.any isWordChar = true ∨ ∃ part, Directive.parts expression = .ok [part]

section Texts

variable {position : Position} {locate : Locator}

/-- Opening braces that are left in the text of a template are those of its literals. -/
theorem exists_raw_interleaved_iff {p : Pieces} :
    (∃ text, .raw text ∈ interleaved position p ∧ hasOpening text.toList = true) ↔
      (∃ m ∈ p.marked, hasOpening m.1 = true) ∨ hasOpening p.tail = true := by
  have hliteral : ∀ {text : String} {literal : List Char},
      .raw text ∈ Part.literal literal → text.toList = literal := by
    intro text literal hmem
    unfold Part.literal at hmem
    split at hmem
    · cases hmem
    · cases List.mem_singleton.1 hmem
      exact String.toList_ofList
  have hraw : ∀ {literal : List Char}, hasOpening literal = true →
      .raw (String.ofList literal) ∈ Part.literal literal := by
    intro literal hopening
    cases literal with
    | nil => cases hopening
    | cons c literal => exact List.mem_singleton_self _
  constructor
  · rintro ⟨text, hmem, hopening⟩
    rcases List.mem_append.1 hmem with hmem | hmem
    · obtain ⟨m, hm, hmem⟩ := List.mem_flatMap.1 hmem
      rcases List.mem_append.1 hmem with hmem | hmem
      · exact Or.inl ⟨m, hm, hliteral hmem ▸ hopening⟩
      · have hlone := Part.isRaw_of_isLone (isLone_inserted position (strip m.2))
        rw [← List.mem_singleton.1 hmem] at hlone
        cases hlone
    · exact Or.inr (hliteral hmem ▸ hopening)
  · rintro (⟨m, hm, hopening⟩ | hopening)
    · exact ⟨_, List.mem_append_left _ (List.mem_flatMap.2 ⟨m, hm,
        List.mem_append_left _ (hraw hopening)⟩), by rwa [String.toList_ofList]⟩
    · exact ⟨_, List.mem_append_right _ (hraw hopening), by rwa [String.toList_ofList]⟩

theorem Known.passes {expression : List Char} (h : Known expression) :
    Passes builtin expression := by
  rcases h with hword | ⟨part, hpart⟩
  · exact Or.inl (any_iff_isValue.1 hword)
  · refine Or.inr ⟨[part], ?_, List.cons_ne_nil _ _⟩
    unfold builtin
    rw [hpart]
    rfl

theorem drop_findOpening {cs : List Char} {n : Nat} (h : findOpening cs = some n) :
    ∃ after, cs.drop n = '{' :: '{' :: after := by
  fun_induction findOpening cs generalizing n with
  | case1 => cases h
  | case2 after =>
    cases h
    exact ⟨after, rfl⟩
  | case3 c cs _ ih =>
    obtain ⟨m, hm, rfl⟩ := Option.map_eq_some_iff.1 h
    exact ih hm

/-- If every expression stands for a part, the last literal is refused for its opening braces. -/
theorem partsFrom_of_opening {tail : List Char} {n : Nat} (hopening : findOpening tail = some n)
    {marked : List (List Char × List Char)} (hknown : ∀ m ∈ marked, Known (strip m.2))
    (offset : Nat) :
    partsFrom position builtin locate tail offset marked =
      .error (.template
        (.lexical (.unterminatedMarker (String.ofList ((tail.drop n).take snippetLength))))
        (locate (offset + (⟨marked, tail⟩ : Pieces).front.length + n))) := by
  have happend : partsFrom position builtin locate tail offset (marked ++ []) = _ :=
    partsFrom_append (fun m hm => (hknown m hm).passes) offset []
  rw [List.append_nil, partsFrom, tailParts, hopening] at happend
  exact happend

end Texts

/-- Unclosed braces pass in silence exactly if a whole marker stands behind them.

If a text is accepted, its literals hold opening braces exactly if there are unclosed ones with a
whole marker behind them.  If there are unclosed ones with none behind them, it is refused: for such
braces, with their place, unless for an expression that stands for nothing. -/
theorem unclosed_passes_iff (position : Position) (locate : Locator) (cs : List Char) :
    (∀ ps, parts position builtin locate cs = .ok ps →
      ((∃ text, .raw text ∈ ps ∧ hasOpening text.toList = true) ↔
        ∃ after, UnclosedAt cs after ∧ Complete after)) ∧
    ∀ after, UnclosedAt cs after → ¬ Complete after →
      (∃ fault, parts position builtin locate cs = .error fault) ∧
      ((∀ m ∈ (Pieces.ofText cs).marked, Known (strip m.2)) →
        ∃ n last, cs.drop n = '{' :: '{' :: last ∧ Unclosed last ∧ ¬ Complete last ∧
          parts position builtin locate cs = .error (.template
            (.lexical (.unterminatedMarker (String.ofList ((cs.drop n).take snippetLength))))
            (locate n))) := by
  constructor
  · intro ps h
    obtain ⟨htail, rfl⟩ := parts_eq h
    rw [exists_raw_interleaved_iff, ← Pieces.hasOpening_marked_iff]
    exact or_iff_left (Bool.eq_false_iff.1 htail)
  · intro after hat hafter
    have htail := (Pieces.hasOpening_tail_iff cs).2 ⟨after, hat, hafter⟩
    constructor
    · cases h : parts position builtin locate cs with
      | error fault => exact ⟨fault, rfl⟩
      | ok ps => exact absurd htail (Bool.eq_false_iff.1 (parts_eq h).1)
    · intro hknown
      obtain ⟨n, hn⟩ := Option.isSome_iff_exists.1 htail
      obtain ⟨last, hlast⟩ := drop_findOpening hn
      have hdrop := (Pieces.ofText cs).drop_text n
      rw [Pieces.text_ofText] at hdrop
      -- What closed the braces on the line would make a whole marker of the last literal.
      have hnone : ¬ Complete ('{' :: '{' :: last) := fun h =>
        Pieces.not_complete_literal (List.mem_append_right _ List.mem_cons_self)
          (h.mono (hlast ▸ (List.drop_suffix n _).isInfix))
      refine ⟨_, last, hdrop.trans hlast, ?_, ?_, ?_⟩
      · intro expression rest he
        refine Classical.byContradiction fun hline => hnone ⟨[], expression, rest, hline, ?_⟩
        rw [he]
        rfl
      · exact fun h => hnone (h.mono
          ((List.suffix_cons _ _).trans (List.suffix_cons _ _)).isInfix)
      · rw [hdrop]
        exact (partsFrom_of_opening hn hknown 0).trans (by rw [Nat.zero_add])

/-- Braces that a line break leaves unclosed, in front of a marker and behind one. -/
theorem unclosed_passes_lines :
    (∃ ps, parts .body builtin (fun _ => none) "\x7b\x7b\n\x7b\x7bx\x7d\x7d".toList = .ok ps ∧
      ∃ text, .raw text ∈ ps ∧ hasOpening text.toList = true) ∧
    ∃ n last, "\x7b\x7bx\x7d\x7d\x7b\x7b\n".toList.drop n = '{' :: '{' :: last ∧
      parts .comment builtin (fun _ => none) "\x7b\x7bx\x7d\x7d\x7b\x7b\n".toList =
        .error (.template (.lexical (.unterminatedMarker
          (String.ofList (('{' :: '{' :: last).take snippetLength)))) none) := by
  have hbreak : ∀ rest, Unclosed ('\n' :: rest) := by
    intro rest expression after he
    cases expression with
    | nil => cases he
    | cons c expression =>
      obtain ⟨rfl, -⟩ := List.cons.inj he
      exact List.mem_cons_self
  have hparts : parts .body builtin (fun _ => none) "\x7b\x7b\n\x7b\x7bx\x7d\x7d".toList =
      .ok [.raw "\x7b\x7b\n", .body "x"] := by
    with_unfolding_all rfl
  have hmarked : (Pieces.ofText "\x7b\x7bx\x7d\x7d\x7b\x7b\n".toList).marked = [([], ['x'])] := by
    with_unfolding_all rfl
  have hknown : ∀ m ∈ (Pieces.ofText "\x7b\x7bx\x7d\x7d\x7b\x7b\n".toList).marked,
      Known (strip m.2) := by
    rw [hmarked]
    exact List.forall_mem_singleton.2 (Or.inl (by decide))
  have hfollowed : Complete "\n\x7b\x7bx\x7d\x7d".toList := ⟨['\n'], ['x'], [], by decide, rfl⟩
  have halone : ¬ Complete ['\n'] := fun h => absurd h.hasOpening (by decide)
  obtain ⟨-, hlast⟩ := (unclosed_passes_iff .comment (fun _ => none)
    "\x7b\x7bx\x7d\x7d\x7b\x7b\n".toList).2 ['\n']
    ⟨⟨"\x7b\x7bx\x7d\x7d".toList, rfl⟩, hbreak []⟩ halone
  obtain ⟨n, last, hdrop, -, -, hrefused⟩ := hlast hknown
  refine ⟨⟨_, hparts, ?_⟩, n, last, hdrop, hdrop ▸ hrefused⟩
  exact ((unclosed_passes_iff .body (fun _ => none) _).1 _ hparts).2
    ⟨_, ⟨List.suffix_refl _, hbreak _⟩, hfollowed⟩

/-- Unclosed braces are left in the text without a word if a marker stands on a later line. -/
theorem unclosed_silent :
    parts .body builtin (fun _ => none) "\x7b\x7b\n\x7b\x7bx\x7d\x7d".toList =
        .ok [.raw "\x7b\x7b\n", .body "x"] ∧
      hasOpening "\x7b\x7b\n".toList = true :=
  ⟨by with_unfolding_all rfl, rfl⟩

end Interpolation
end HtmlTemplate
