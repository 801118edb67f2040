import HtmlTemplate.Proofs.Scan.Outcome

/-!
# Inline — the directives that are written as expressions

The grammar of inline directives has a test, a loop, an else and a close (`Directive.ReadAsPart`).
Expressions outside the grammar are refused, by the loop itself for words too many and else by the
text they stand in.  The exceptions are an else and a close with more text behind them
(`Directive.Trails`): they are taken as if there were none, and what is written there is lost
(`Directive.inline_exact`).
-/

namespace HtmlTemplate
namespace Directive

open Text Interpolation

/-- The grammar: the expressions it has, and the part that each of them is read as. -/
inductive ReadAsPart : List Char → Part → Prop
  | test {path : List Char} : path.head? ≠ some '!' →
      ReadAsPart ('~' :: path) (.conditional (String.ofList (strip path)) false false)
  | inverted {path : List Char} :
      ReadAsPart ('~' :: '!' :: path) (.conditional (String.ofList (strip path)) true false)
  | loopAlone {rest : List Char} : words rest = [] →
      ReadAsPart ('>' :: rest) (.loop "" Part.defaultBinding)
  | loopOver {rest path : List Char} : words rest = [path] →
      ReadAsPart ('>' :: rest) (.loop (String.ofList path) Part.defaultBinding)
  | loopBinding {rest path binding : List Char} : words rest = [path, binding] →
      ReadAsPart ('>' :: rest) (.loop (String.ofList path) (String.ofList binding))
  | otherwise : ReadAsPart ['|'] .otherwise
  | close : ReadAsPart ['<'] .close

/-- An else or a close, and more text behind it. -/
inductive Trails : List Char → List Char → Prop
  | otherwise {c : Char} {more : List Char} : Trails ('|' :: c :: more) ['|']
  | close {c : Char} {more : List Char} : Trails ('<' :: c :: more) ['<']

/-- What an expression is taken for: what it is read as, or an else or a close that it starts
with. -/
def TakenFor (expression : List Char) (part : Part) : Prop :=
  ReadAsPart expression part ∨ ∃ directive, Trails expression directive ∧ ReadAsPart directive part

/-- A loop with more than a path and a binding. -/
def Crowded (expression : List Char) : Prop :=
  ∃ rest, expression = '>' :: rest ∧ 2 < (words rest).length

/-- What is neither a loop with too many words nor taken for anything. -/
structure Ungrammatical (expression : List Char) : Prop where
  notTaken : ∀ part, ¬ TakenFor expression part
  notCrowded : ¬ Crowded expression

variable {expression directive : List Char} {part : Part}

theorem parts_of_readAsPart (h : ReadAsPart expression part) : parts expression = .ok [part] := by
  cases h with
  | @test path hpath =>
    -- A `!` would have been taken for the mark of an inverted test.
    have htest : Directive.test path = (strip path, false) := by
      unfold Directive.test
      split
      · exact absurd rfl hpath
      · rfl
    rw [parts, htest]
  | inverted => rfl
  | loopAlone hwords => rw [parts, hwords]; rfl
  | loopOver hwords => rw [parts, hwords]; rfl
  | loopBinding hwords => rw [parts, hwords]; rfl
  | otherwise => rfl
  | close => rfl

/-- What stands behind an else or a close makes no difference. -/
theorem parts_of_trails (h : Trails expression directive) : parts expression = parts directive := by
  cases h <;> rfl

theorem parts_of_takenFor (h : TakenFor expression part) : parts expression = .ok [part] := by
  rcases h with hreads | ⟨directive, htrails, hreads⟩
  · exact parts_of_readAsPart hreads
  · exact (parts_of_trails htrails).trans (parts_of_readAsPart hreads)

theorem parts_of_crowded (h : Crowded expression) :
    parts expression = .error (.extraLoopWords (String.ofList expression)) := by
  obtain ⟨rest, rfl, hlength⟩ := h
  rw [parts]
  unfold loop
  split
  all_goals simp_all

/-- Every expression is taken for something, or it is a crowded loop, or there are no parts. -/
theorem takenFor_or (expression : List Char) :
    (∃ part, TakenFor expression part) ∨ Crowded expression ∨ parts expression = .ok [] := by
  fun_cases parts expression with
  | case1 rest =>
    by_cases hbang : rest.head? = some '!'
    · obtain ⟨path, rfl⟩ := List.head?_eq_some_iff.1 hbang
      exact .inl ⟨_, .inl .inverted⟩
    · exact .inl ⟨_, .inl (.test hbang)⟩
  | case2 rest =>
    match hwords : words rest with
    | [] => exact .inl ⟨_, .inl (.loopAlone hwords)⟩
    | [path] => exact .inl ⟨_, .inl (.loopOver hwords)⟩
    | [path, binding] => exact .inl ⟨_, .inl (.loopBinding hwords)⟩
    | _ :: _ :: _ :: _ => exact .inr (.inl ⟨rest, rfl, by simp [hwords]⟩)
  | case3 more =>
    cases more with
    | nil => exact .inl ⟨_, .inl .otherwise⟩
    | cons c more => exact .inl ⟨_, .inr ⟨_, .otherwise, .otherwise⟩⟩
  | case4 more =>
    cases more with
    | nil => exact .inl ⟨_, .inl .close⟩
    | cons c more => exact .inl ⟨_, .inr ⟨_, .close, .close⟩⟩
  | case5 => exact .inr (.inr rfl)

theorem parts_eq_nil_iff : parts expression = .ok [] ↔ Ungrammatical expression := by
  constructor
  · intro h
    refine ⟨fun part htaken => ?_, fun hcrowded => ?_⟩
    · cases (parts_of_takenFor htaken).symm.trans h
    · cases (parts_of_crowded hcrowded).symm.trans h
  · intro h
    rcases takenFor_or expression with ⟨part, htaken⟩ | hcrowded | hnone
    · exact absurd htaken (h.notTaken part)
    · exact absurd hcrowded h.notCrowded
    · exact hnone

theorem parts_eq_ok_iff {ps : List Part} (hne : ps ≠ []) :
    parts expression = .ok ps ↔ ∃ part, ps = [part] ∧ TakenFor expression part := by
  constructor
  · intro h
    rcases takenFor_or expression with ⟨part, htaken⟩ | hcrowded | hnone
    · cases (parts_of_takenFor htaken).symm.trans h
      exact ⟨part, rfl, htaken⟩
    · cases (parts_of_crowded hcrowded).symm.trans h
    · cases hnone.symm.trans h
      exact absurd rfl hne
  · rintro ⟨part, rfl, htaken⟩
    exact parts_of_takenFor htaken

theorem parts_eq_error_iff {fault : SemanticFault} : parts expression = .error fault ↔
    Crowded expression ∧ fault = .extraLoopWords (String.ofList expression) := by
  constructor
  · intro h
    rcases takenFor_or expression with ⟨part, htaken⟩ | hcrowded | hnone
    · cases (parts_of_takenFor htaken).symm.trans h
    · cases (parts_of_crowded hcrowded).symm.trans h
      exact ⟨hcrowded, rfl⟩
    · cases hnone.symm.trans h
  · rintro ⟨hcrowded, rfl⟩
    exact parts_of_crowded hcrowded

/-! ## In a text -/

/-- Whether an expression is come to when those of a text are gone through, its marker standing
behind `n` characters. -/
def ExpressionAt (cs expression : List Char) (n : Nat) : Prop :=
  ∃ before literal raw after, (Pieces.ofText cs).marked = before ++ (literal, raw) :: after ∧
    (∀ m ∈ before, Passes builtin (strip m.2)) ∧ strip raw = expression ∧
    (⟨before, literal⟩ : Pieces).text.length = n

/-- A text is told by the first expression that is no value and that stands for no parts. -/
theorem parts_of_expressionAt {position : Position} {locate : Locator} {cs : List Char} {n : Nat}
    (h : ExpressionAt cs expression n) (hvalue : ¬ IsValue expression)
    (hnone : ∀ ps, parts expression = .ok ps → ps = []) :
    Interpolation.parts position builtin locate cs = (builtin expression).bind fun _ =>
      .error (.template (.unknownDirective (String.ofList expression)) (locate n)) := by
  obtain ⟨before, literal, raw, after, hmarked, hbefore, rfl, rfl⟩ := h
  refine parts_of_first hmarked hbefore ?_
  rintro (hvalue' | ⟨ps, hread, hne⟩)
  · exact hvalue hvalue'
  · unfold builtin at hread
    cases hparts : parts (strip raw) with
    | error fault =>
      rw [hparts] at hread
      cases hread
    | ok ps' =>
      rw [hparts] at hread
      cases hread
      exact hne (hnone _ hparts)

/-- What is made of an expression that is no value.

It stands for parts exactly if it is in the grammar, or is an else or a close with more text behind
it, which is ignored.  A loop with too many words is refused as such, and every other expression
stands for nothing, so that a text is refused for it, at its marker. -/
theorem inline_exact (expression : List Char) :
    (∀ ps, ps ≠ [] → (parts expression = .ok ps ↔
      ∃ part, ps = [part] ∧ TakenFor expression part)) ∧
    (∀ fault, parts expression = .error fault ↔
      Crowded expression ∧ fault = .extraLoopWords (String.ofList expression)) ∧
    (parts expression = .ok [] ↔ Ungrammatical expression) ∧
    ∀ position locate cs n, ExpressionAt cs expression n → ¬ IsValue expression →
      (Crowded expression → Interpolation.parts position builtin locate cs =
        .error (.semantic (.extraLoopWords (String.ofList expression)))) ∧
      (Ungrammatical expression → Interpolation.parts position builtin locate cs =
        .error (.template (.unknownDirective (String.ofList expression)) (locate n))) := by
  refine ⟨fun ps => parts_eq_ok_iff, fun fault => parts_eq_error_iff, parts_eq_nil_iff, ?_⟩
  intro position locate cs n hreached hvalue
  constructor
  · intro hcrowded
    have hparts := parts_of_crowded hcrowded
    rw [parts_of_expressionAt hreached hvalue (fun ps h => nomatch hparts.symm.trans h), builtin, hparts]
    rfl
  · intro hrefused
    have hparts := parts_eq_nil_iff.2 hrefused
    have hnone : ∀ ps, parts expression = .ok ps → ps = [] := by
      intro ps h
      cases hparts.symm.trans h
      rfl
    rw [parts_of_expressionAt hreached hvalue hnone, builtin, hparts]
    rfl

/-- Behind a value an expression that no directive starts, and behind a test a loop of three
words. -/
theorem inline_exact_second :
    Interpolation.parts .comment builtin (fun n => some ⟨1, n, n, none⟩)
      "\x7b\x7ba\x7d\x7d\x7b\x7b ?b \x7d\x7d".toList =
        .error (.template (.unknownDirective "?b") (some ⟨1, 5, 5, none⟩)) ∧
    Interpolation.parts .body builtin (fun _ => none)
      "\x7b\x7b~a\x7d\x7d\x7b\x7b>b c d\x7d\x7d".toList =
        .error (.semantic (.extraLoopWords ">b c d")) := by
  have hunknown : ExpressionAt "\x7b\x7ba\x7d\x7d\x7b\x7b ?b \x7d\x7d".toList ['?', 'b'] 5 :=
    ⟨[([], ['a'])], [], [' ', '?', 'b', ' '], [], by with_unfolding_all rfl,
      List.forall_mem_singleton.2 (.inl ⟨'a', rfl, by decide⟩), by decide, rfl⟩
  have hcrowded : ExpressionAt "\x7b\x7b~a\x7d\x7d\x7b\x7b>b c d\x7d\x7d".toList
      ['>', 'b', ' ', 'c', ' ', 'd'] 6 :=
    ⟨[([], ['~', 'a'])], [], ['>', 'b', ' ', 'c', ' ', 'd'], [], by with_unfolding_all rfl,
      List.forall_mem_singleton.2 (.inr ⟨[.conditional "a" false false], rfl, List.cons_ne_nil _ _⟩),
      by decide, rfl⟩
  constructor
  · exact ((inline_exact ['?', 'b']).2.2.2 _ _ _ _ hunknown (by simp [IsValue]; decide)).2
      (parts_eq_nil_iff.1 rfl)
  · exact ((inline_exact ['>', 'b', ' ', 'c', ' ', 'd']).2.2.2 _ _ _ _ hcrowded
      (by simp [IsValue]; decide)).1 ⟨_, rfl, by decide⟩

/-- An else with a condition behind it is taken for a plain else. -/
theorem trailing_taken : ¬ IsValue ['|', 'x'] ∧ parts ['|', 'x'] = .ok [.otherwise] ∧
    ∀ part, ¬ ReadAsPart ['|', 'x'] part := by
  refine ⟨?_, rfl, fun part h => nomatch h⟩
  rintro ⟨c, hc, hword⟩
  cases hc
  exact absurd hword (by decide)

end Directive
end HtmlTemplate
