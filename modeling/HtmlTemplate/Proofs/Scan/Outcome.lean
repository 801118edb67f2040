import HtmlTemplate.Proofs.Scan.Cutting

/-!
# Outcome — what becomes of a text's expressions

The value of an attribute is cut into its segments, and body texts and comments are turned into
parts.  Both see the same literals and the same expressions: what becomes of a text is told by its
segments (`Interpolation.parts_outcome`).  Its expressions are gone through in order, up to the
first one that does not stand for parts, and the last literal is looked at when they all do.
-/

namespace HtmlTemplate

open Text Marker

namespace Pieces

/-! ## Segments -/

/-- Literals and expressions in turn, and the last literal. -/
def segments (marked : List (String × String)) (tail : String) : List String :=
  marked.flatMap (fun (literal, expression) => [literal, expression]) ++ [tail]

/-- The literals with the expressions behind them, without the blanks around an expression. -/
def shown (p : Pieces) : List (String × String) :=
  p.marked.map fun (literal, expression) =>
    (String.ofList literal, String.ofList (strip expression))

theorem alternating_eq (p : Pieces) : p.alternating = segments p.shown (String.ofList p.tail) := by
  simp [alternating, segments, shown, List.flatMap_map]

theorem segments_cons (literal expression : String) (marked : List (String × String))
    (tail : String) :
    segments ((literal, expression) :: marked) tail =
      literal :: expression :: segments marked tail := rfl

theorem segments_inj {marked marked' : List (String × String)} {tail tail' : String}
    (h : segments marked tail = segments marked' tail') : marked = marked' ∧ tail = tail' := by
  induction marked generalizing marked' with
  | nil =>
    cases marked' with
    | nil => exact ⟨rfl, (List.cons.inj h).1⟩
    | cons first marked' =>
      rw [segments_cons] at h
      cases h
  | cons first marked ih =>
    cases marked' with
    | nil =>
      rw [segments_cons] at h
      cases h
    | cons first' marked' =>
      rw [segments_cons, segments_cons, List.cons.injEq, List.cons.injEq] at h
      obtain ⟨hliteral, hexpression, h⟩ := h
      obtain ⟨rfl, rfl⟩ := ih h
      exact ⟨congrArg (· :: marked) (Prod.ext hliteral hexpression), rfl⟩

/-! ## What stands in front of a marker -/

/-- Where no marker starts with a character, it belongs to the first literal. -/
theorem ofText_of_unmarking {c : Char} {cs : List Char} (h : Unmarking c cs) :
    ofText (c :: cs) = (ofText cs).push c := by
  by_cases hbraces : c = '{' ∧ cs.head? = some '{'
  · obtain ⟨rfl, hhead⟩ := hbraces
    obtain ⟨tail, rfl⟩ := List.head?_eq_some_iff.1 hhead
    have hnone := readExpression_eq_none_iff.2 (h tail rfl rfl)
    rw [ofText]
    split
    · rename_i hread
      cases hnone.symm.trans hread
    · rfl
  · exact ofText_cons fun hc hhead => hbraces ⟨hc, hhead⟩

theorem unmarking_mono {c : Char} {cs ds : List Char} (h : Unmarking c cs) (hds : ds <+: cs) :
    Unmarking c ds := by
  rintro tail hc rfl expression rest rfl
  obtain ⟨more, rfl⟩ := hds
  exact h _ hc rfl expression (rest ++ more) (by simp)

/-- The text in front of a marker, up to the literal behind the marker before it, is the front of
the whole text. -/
theorem text_split {p : Pieces} {before after : List (List Char × List Char)}
    {literal expression : List Char} (h : p.marked = before ++ (literal, expression) :: after) :
    p.text = (⟨before, literal⟩ : Pieces).text ++
      '{' :: '{' :: (expression ++ '}' :: '}' :: (⟨after, p.tail⟩ : Pieces).text) := by
  simp [text, h]

/-- A character that was put in front of pieces is in the first literal. -/
theorem exists_of_marked_push {c : Char} {p : Pieces} {before after : List (List Char × List Char)}
    {literal expression : List Char}
    (h : (p.push c).marked = before ++ (literal, expression) :: after) :
    ∃ before' literal' expression', p.marked = before' ++ (literal', expression') :: after ∧
      (⟨before, literal⟩ : Pieces) = push c ⟨before', literal'⟩ := by
  obtain ⟨_ | ⟨first, marked⟩, tail⟩ := p
  · exact absurd h.symm (List.append_ne_nil_of_right_ne_nil _ (List.cons_ne_nil _ _))
  · rcases List.cons_eq_append_iff.1 h with ⟨rfl, hfirst⟩ | ⟨before, rfl, hrest⟩
    · cases hfirst
      exact ⟨[], _, _, rfl, rfl⟩
    · exact ⟨first :: before, literal, expression, congrArg (first :: ·) hrest, rfl⟩

/-- What stands in front of a marker is cut as it is in the whole text. -/
theorem ofText_front {cs : List Char} {before after : List (List Char × List Char)}
    {literal expression : List Char}
    (h : (ofText cs).marked = before ++ (literal, expression) :: after) :
    ofText (⟨before, literal⟩ : Pieces).text = ⟨before, literal⟩ := by
  induction cs using ofText_induction generalizing before literal expression with
  | nil => exact absurd h.symm (List.append_ne_nil_of_right_ne_nil _ (List.cons_ne_nil _ _))
  | marker e rest hread ih =>
    rcases List.cons_eq_append_iff.1 h with ⟨rfl, hfirst⟩ | ⟨before, rfl, hrest⟩
    · cases hfirst
      exact ofText_of_not_complete not_complete_nil
    · have htext : (⟨([], e) :: before, literal⟩ : Pieces).text =
          '{' :: '{' :: (e ++ '}' :: '}' :: (⟨before, literal⟩ : Pieces).text) := by simp [text]
      rw [htext, ofText_marker ((closed_of_read hread).read _), ih hrest]
      rfl
  | literal c cs hun ih =>
    obtain ⟨before', literal', expression', hmarked, hpush⟩ := exists_of_marked_push h
    have hfront : (⟨before', literal'⟩ : Pieces).text <+: cs := by
      have htext := text_split hmarked
      rw [text_ofText] at htext
      exact ⟨_, htext.symm⟩
    calc ofText (⟨before, literal⟩ : Pieces).text
        = ofText (c :: (⟨before', literal'⟩ : Pieces).text) := by rw [hpush, text_push]
      -- No marker starts with the character there, since none does in the whole text.
      _ = (ofText (⟨before', literal'⟩ : Pieces).text).push c :=
        ofText_of_unmarking (unmarking_mono hun hfront)
      _ = ⟨before, literal⟩ := by rw [ih hmarked, hpush]

/-- Whether the marker of an expression stands behind `n` characters of a text, which are cut into
the segments given. -/
def MarkerAt (cs : List Char) (n : Nat) (before : List (String × String))
    (literal expression : String) : Prop :=
  ∃ front raw back, cs = front ++ '{' :: '{' :: (raw ++ '}' :: '}' :: back) ∧ front.length = n ∧
    (ofText front).alternating = segments before literal ∧ Closed raw ∧
    String.ofList (strip raw) = expression

end Pieces

/-! ## Going through the expressions -/

namespace Interpolation

open Pieces

/-- What becomes of a text whose literals, expressions and last literal are given. -/
inductive Outcome (position : Position) (reader : DirectiveReader) (locate : Locator)
    (cs : List Char) (marked : List (String × String)) (tail : String) :
    Except Error (List Part) → Prop
  /-- The reader stops at an expression, those in front of it being fine. -/
  | stopped {before after : List (String × String)} {literal expression : String} {fault : Error} :
      marked = before ++ (literal, expression) :: after →
      (∀ m ∈ before, Passes reader m.2.toList) → ¬ IsValue expression.toList →
      reader expression.toList = .error fault →
      Outcome position reader locate cs marked tail (.error fault)
  /-- The reader knows no such expression, those in front of it being fine. -/
  | unknown {before after : List (String × String)} {literal expression : String} {n : Nat} :
      marked = before ++ (literal, expression) :: after →
      (∀ m ∈ before, Passes reader m.2.toList) → ¬ IsValue expression.toList →
      reader expression.toList = .ok [] → MarkerAt cs n before literal expression →
      Outcome position reader locate cs marked tail
        (.error (.template (.unknownDirective expression) (locate n)))
  /-- All expressions are fine, and the last literal holds opening braces. -/
  | unclosed {front : List Char} {n : Nat} :
      (∀ m ∈ marked, Passes reader m.2.toList) → cs = front ++ tail.toList →
      findOpening tail.toList = some n →
      Outcome position reader locate cs marked tail
        (.error (.template (.lexical (.unterminatedMarker
          (String.ofList ((tail.toList.drop n).take snippetLength)))) (locate (front.length + n))))
  /-- All expressions are fine, and so is the last literal. -/
  | accepted :
      (∀ m ∈ marked, Passes reader m.2.toList) → hasOpening tail.toList = false →
      Outcome position reader locate cs marked tail
        (.ok (marked.flatMap (fun m =>
            Part.literal m.1.toList ++ resolved position reader m.2.toList) ++
          Part.literal tail.toList))

variable {position : Position} {reader : DirectiveReader} {locate : Locator}

/-- For an expression that does not stand for parts the reader has none, unless it stops. -/
theorem eq_nil_of_not_passes {expression : List Char} {ps : List Part}
    (h : ¬ Passes reader expression) (hread : reader expression = .ok ps) : ps = [] := by
  by_contra hne
  exact h (Or.inr ⟨ps, hread, hne⟩)

theorem forall_passes_shown {p : Pieces} :
    (∀ m ∈ p.shown, Passes reader m.2.toList) ↔ ∀ m ∈ p.marked, Passes reader (strip m.2) := by
  simp only [shown, List.forall_mem_map, String.toList_ofList]

/-- An expression that is no value is left to the reader. -/
theorem expressionParts_of_not_isValue {expression : List Char} (h : ¬ IsValue expression)
    (offset : Nat) : expressionParts position reader locate offset expression = do
      let parts ← reader expression
      if parts.isEmpty then
        throw (.template (.unknownDirective (String.ofList expression)) (locate offset))
      return parts :=
  if_neg (mt any_iff_isValue.1 h)

/-- Either all expressions stand for parts, or there is a first one that does not. -/
theorem forall_passes_or_first (reader : DirectiveReader) (marked : List (List Char × List Char)) :
    (∀ m ∈ marked, Passes reader (strip m.2)) ∨
      ∃ before literal expression after, marked = before ++ (literal, expression) :: after ∧
        (∀ m ∈ before, Passes reader (strip m.2)) ∧ ¬ Passes reader (strip expression) := by
  induction marked with
  | nil => exact Or.inl fun _ h => absurd h List.not_mem_nil
  | cons first marked ih =>
    obtain ⟨literal, expression⟩ := first
    by_cases hfirst : Passes reader (strip expression)
    · rcases ih with hall | ⟨before, l, e, after, rfl, hbefore, hnot⟩
      · exact Or.inl (List.forall_mem_cons.2 ⟨hfirst, hall⟩)
      · exact Or.inr ⟨(literal, expression) :: before, l, e, after, rfl,
          List.forall_mem_cons.2 ⟨hfirst, hbefore⟩, hnot⟩
    · exact Or.inr ⟨[], literal, expression, marked, rfl,
        fun _ h => absurd h List.not_mem_nil, hfirst⟩

/-- The parts of a text are told by the first expression that does not stand for parts. -/
theorem parts_of_first {cs : List Char} {before after : List (List Char × List Char)}
    {literal expression : List Char}
    (h : (ofText cs).marked = before ++ (literal, expression) :: after)
    (hbefore : ∀ m ∈ before, Passes reader (strip m.2))
    (hnot : ¬ Passes reader (strip expression)) :
    parts position reader locate cs = (reader (strip expression)).bind fun _ =>
      .error (.template (.unknownDirective (String.ofList (strip expression)))
        (locate (⟨before, literal⟩ : Pieces).text.length)) := by
  have hvalue : ¬ IsValue (strip expression) := fun h => hnot (Or.inl h)
  have hlength : 0 + (⟨before, []⟩ : Pieces).text.length + literal.length =
      (⟨before, literal⟩ : Pieces).text.length := by
    simp [text]
  rw [parts, h, partsFrom_append hbefore, partsFrom, expressionParts_of_not_isValue hvalue, hlength]
  cases hread : reader (strip expression) with
  | error fault => rfl
  | ok ps =>
    rw [eq_nil_of_not_passes hnot hread]
    rfl

/-- The marker of an expression stands where the pieces say. -/
theorem markerAt_of_marked {cs : List Char} {before after : List (List Char × List Char)}
    {literal expression : List Char}
    (h : (ofText cs).marked = before ++ (literal, expression) :: after) :
    MarkerAt cs (⟨before, literal⟩ : Pieces).text.length (⟨before, literal⟩ : Pieces).shown
      (String.ofList literal) (String.ofList (strip expression)) := by
  have htext := text_split h
  rw [text_ofText] at htext
  refine ⟨_, expression, _, htext, rfl, ?_, ?_, rfl⟩
  · rw [ofText_front h, alternating_eq]
  · exact closed_marked cs (literal, expression) (by rw [h]; simp)

/-- Where all expressions stand for parts, the last literal decides. -/
theorem parts_of_forall_passes {cs : List Char}
    (h : ∀ m ∈ (ofText cs).marked, Passes reader (strip m.2)) :
    parts position reader locate cs =
      (tailParts locate (⟨(ofText cs).marked, []⟩ : Pieces).text.length (ofText cs).tail).map
        fun rest => (ofText cs).marked.flatMap
          (fun m => Part.literal m.1 ++ resolved position reader (strip m.2)) ++ rest := by
  have happend : partsFrom position reader locate (ofText cs).tail 0 ((ofText cs).marked ++ []) = _ :=
    partsFrom_append h 0 []
  rw [List.append_nil, Nat.zero_add] at happend
  exact happend

theorem outcome_of_forall_passes {cs : List Char}
    (h : ∀ m ∈ (ofText cs).marked, Passes reader (strip m.2)) :
    Outcome position reader locate cs (ofText cs).shown (String.ofList (ofText cs).tail)
      (parts position reader locate cs) := by
  have hshown := forall_passes_shown.2 h
  rw [parts_of_forall_passes h]
  unfold tailParts
  cases htail : findOpening (ofText cs).tail with
  | some n =>
    have hsplit : cs = (⟨(ofText cs).marked, []⟩ : Pieces).text ++
        (String.ofList (ofText cs).tail).toList := by
      conv_lhs => rw [← text_ofText cs]
      simp [text]
    have hopening : findOpening (String.ofList (ofText cs).tail).toList = some n := by
      rw [String.toList_ofList, htail]
    have hunclosed : Outcome position reader locate cs _ _ _ := .unclosed hshown hsplit hopening
    rwa [String.toList_ofList] at hunclosed
  | none =>
    have hclosed : hasOpening (String.ofList (ofText cs).tail).toList = false := by
      rw [String.toList_ofList, hasOpening, htail]
      rfl
    have haccepted : Outcome position reader locate cs _ _ _ := .accepted hshown hclosed
    simpa [shown, List.flatMap_map, Except.map] using haccepted

theorem outcome_of_first {cs : List Char} {before after : List (List Char × List Char)}
    {literal expression : List Char}
    (h : (ofText cs).marked = before ++ (literal, expression) :: after)
    (hbefore : ∀ m ∈ before, Passes reader (strip m.2))
    (hnot : ¬ Passes reader (strip expression)) :
    Outcome position reader locate cs (ofText cs).shown (String.ofList (ofText cs).tail)
      (parts position reader locate cs) := by
  have hshown : (ofText cs).shown = (⟨before, literal⟩ : Pieces).shown ++
      (String.ofList literal, String.ofList (strip expression)) ::
        (⟨after, (ofText cs).tail⟩ : Pieces).shown := by
    simp [shown, h]
  have hpasses : ∀ m ∈ (⟨before, literal⟩ : Pieces).shown, Passes reader m.2.toList :=
    forall_passes_shown.2 hbefore
  have hvalue : ¬ IsValue (String.ofList (strip expression)).toList := by
    rw [String.toList_ofList]
    exact fun h => hnot (Or.inl h)
  have hreader : reader (String.ofList (strip expression)).toList = reader (strip expression) := by
    rw [String.toList_ofList]
  rw [parts_of_first h hbefore hnot]
  cases hread : reader (strip expression) with
  | error fault => exact .stopped hshown hpasses hvalue (hreader.trans hread)
  | ok ps =>
    obtain rfl := eq_nil_of_not_passes hnot hread
    exact .unknown hshown hpasses hvalue (hreader.trans hread) (markerAt_of_marked h)

/-- The segments of a text tell what becomes of it: the reader stops at an expression or knows none
such, the last literal holds opening braces, or the literals that are not empty and the parts of the
expressions stand in the order of the segments.  The expressions, blanks included, put back between
the literals give the text. -/
theorem parts_outcome (position : Position) (reader : DirectiveReader) (locate : Locator)
    {cs : List Char} {marked : List (String × String)} {tail : String}
    (h : (ofText cs).alternating = segments marked tail) :
    Outcome position reader locate cs marked tail (parts position reader locate cs) ∧
      ∃ expressions : List (List Char),
        expressions.map (fun e => String.ofList (strip e)) = marked.map (·.2) ∧
        rejoined (marked.map (·.1) ++ [tail]) expressions = cs := by
  rw [alternating_eq] at h
  obtain ⟨rfl, rfl⟩ := segments_inj h
  constructor
  · rcases forall_passes_or_first reader (ofText cs).marked with
      hall | ⟨before, literal, expression, after, hmarked, hbefore, hnot⟩
    · exact outcome_of_forall_passes hall
    · exact outcome_of_first hmarked hbefore hnot
  · refine ⟨(ofText cs).marked.map (·.2), by simp [shown], ?_⟩
    have hliterals : (ofText cs).shown.map (·.1) ++ [String.ofList (ofText cs).tail] =
        everyOther (ofText cs).alternating := by
      rw [everyOther_alternating]
      simp [shown, literals]
    rw [hliterals, rejoined_alternating, text_ofText]

/-- Two markers that touch, a brace behind them, and an expression that no directive starts. -/
theorem parts_outcome_touching :
    Outcome .body builtin (fun _ => none) "a\x7b\x7bb\x7d\x7d\x7b\x7b ~!x \x7d\x7d\x7b".toList
      [("a", "b"), ("", "~!x")] "\x7b"
      (.ok [.raw "a", .body "b", .conditional "x" true false, .raw "\x7b"]) ∧
    Outcome .comment builtin (fun _ => none) "a\x7b\x7b?\x7d\x7db".toList [("a", "?")] "b"
      (.error (.template (.unknownDirective "?") none)) := by
  have htouching : parts .body builtin (fun _ => none)
      "a\x7b\x7bb\x7d\x7d\x7b\x7b ~!x \x7d\x7d\x7b".toList =
        .ok [.raw "a", .body "b", .conditional "x" true false, .raw "\x7b"] := by
    with_unfolding_all rfl
  have hunknown : parts .comment builtin (fun _ => none) "a\x7b\x7b?\x7d\x7db".toList =
      .error (.template (.unknownDirective "?") none) := by
    with_unfolding_all rfl
  constructor
  · rw [← htouching]
    exact (parts_outcome .body builtin _ (by with_unfolding_all rfl)).1
  · rw [← hunknown]
    exact (parts_outcome .comment builtin _ (by with_unfolding_all rfl)).1

end Interpolation
end HtmlTemplate
