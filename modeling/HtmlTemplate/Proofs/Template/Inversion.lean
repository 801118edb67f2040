import HtmlTemplate.Proofs.Render.Ensures
import HtmlTemplate.Proofs.Template.Admission
import HtmlTemplate.Proofs.Template.Evaluation
import HtmlTemplate.Proofs.Template.Recording
import HtmlTemplate.Proofs.Template.Runnable

/-!
# Inversion — an inverted conditional and the plain one with its bodies the other way round

Both are compiled together, and require the context together.  They also render the same, but for
one kind of value.  An object with a text of its own, and neither a truth nor a length, is judged by
that text where a conditional tests it; but `not` comes first, and does not look at the text.  If the
text is empty, the inverted conditional therefore runs the same body as the plain one
(`Compiled.inverted_iff_swapped`).
-/

namespace HtmlTemplate

open Text

/-! ## Values -/

namespace Value

variable {v : Value} {s : String}

/-- Whether a value is an object that is judged by a text of its own: it has neither a truth nor a
length, not even one that it refuses. -/
def JudgedBy (v : Value) (s : String) : Prop :=
  v.size? = Option.none ∧ ∃ access attributes items?,
    v = .object ⟨.given s, Option.none, Option.none, access⟩ attributes items? ∧
      Request.truth ∉ access.refusals

theorem judgedBy?_eq_some_iff : v.judgedBy? = some s ↔ v.JudgedBy s := by
  constructor
  · intro h
    unfold judgedBy? at h
    split at h
    · rename_i s length? access attributes items?
      split at h
      · cases h
      · rename_i hasked
        obtain rfl := Option.some.inj h
        obtain ⟨htruth, hsize⟩ : Request.truth ∉ access.refusals ∧ size? _ = Option.none := by
          simpa using hasked
        -- With a length of its own, it would have a size.
        cases length? with
        | none => exact ⟨hsize, access, attributes, items?, rfl, htruth⟩
        | some n =>
          simp only [size?, objectSize?] at hsize
          split at hsize <;> cases hsize
    · cases h
  · rintro ⟨hsize, access, attributes, items?, rfl, htruth⟩
    simp [judgedBy?, hsize, htruth]

/-- A value that is judged by a text is true in itself. -/
theorem JudgedBy.truth_eq (h : v.JudgedBy s) : v.truth = .ok true := by
  obtain ⟨hsize, access, attributes, items?, rfl, htruth⟩ := h
  simp [truth, ObjectTraits.refuses, hsize, htruth]

/-- An object that is judged by a text of its own, which is empty. -/
def Blank (v : Value) : Prop := v.JudgedBy ""

theorem Blank.check_eq (h : v.Blank) : v.check = .ok false := by
  rw [check, judgedBy?_eq_some_iff.2 h]
  rfl

/-- Only an object is blank. -/
theorem not_blank (h : ∀ traits attributes items?, v ≠ .object traits attributes items?) :
    ¬ v.Blank := by
  rintro ⟨-, access, attributes, items?, hv, -⟩
  exact h _ _ _ hv

/-- A conditional takes any other value for true just if it is. -/
theorem check_eq_truth (h : ¬ v.Blank) : v.check = v.truth := by
  unfold check
  split
  · rename_i s hjudged
    have hjudged := judgedBy?_eq_some_iff.1 hjudged
    have hs : s.isEmpty = false := by
      rw [Bool.eq_false_iff]
      intro hempty
      obtain rfl := String.isEmpty_iff.1 hempty
      exact h hjudged
    rw [hs, hjudged.truth_eq]
    rfl
  · rfl

end Value

section Code

open HtmlTemplate.Expr Meaning

variable {contextName : String} {context : Value} {bindings : Bindings}

/-- What a function without a parameter runs. -/
def bodyRun (contextName : String) (context : Value) (bindings : Bindings) (e : Expr) :
    Render Value := do
  (← eval (environment contextName context bindings) e).asValue

/-! ## Choices -/

/-- A value chooses between two bodies by what it is taken for. -/
theorem applyHelper_ifCheck (v : Value) (yes no : Render Value) :
    applyHelper .ifCheck [.value v, .thunk yes, .thunk no] = (do
      if ← Render.ofExcept v.check then yes >>= Render.orEmpty else no >>= Render.orEmpty) := rfl

theorem ofExcept_check_bool (b : Bool) : Render.ofExcept (Value.bool b).check = return b := rfl

section Choice

variable (hcheck : normalName contextName ≠ Helper.ifCheck.name)

include hcheck

theorem eval_choice (test yes no : Expr) :
    eval (environment contextName context bindings)
        (helperCall .ifCheck [test, function none yes, function none no]) = (do
      let m ← eval (environment contextName context bindings) test
      return .value (← applyHelper .ifCheck [m, .thunk (bodyRun contextName context bindings yes),
        .thunk (bodyRun contextName context bindings no)])) := by
  have hreachable : Reachable False contextName context .ifCheck := Or.inl hcheck
  rw [(eval_helperCall hreachable [test, function none yes, function none no]).eq]
  simp [evalAll, eval, bodyRun]

/-- A negated test chooses as the test does with the bodies the other way round, if the values that
are tested are taken for true just if they are. -/
theorem eval_choice_negation {test : Expr}
    (htest : Render.Ensures (fun m => ∃ v : Value, m = .value v ∧ v.check = v.truth)
      (eval (environment contextName context bindings) test)) (yes no : Expr) :
    eval (environment contextName context bindings)
        (helperCall .ifCheck [negation test, function none yes, function none no]) =
      eval (environment contextName context bindings)
        (helperCall .ifCheck [test, function none no, function none yes]) := by
  rw [eval_choice hcheck, eval_choice hcheck, eval, bind_assoc]
  refine htest.bind_congr ?_
  rintro _ ⟨v, rfl, hv⟩
  simp only [asValue, applyHelper_ifCheck, ofExcept_check_bool, hv, pure_bind, bind_assoc]
  -- Once the truth is known, each form has one body to run, and it is the same.
  refine bind_congr fun truth => ?_
  cases truth <;> rfl

/-- On a blank value the negation has no effect. -/
theorem eval_choice_blank {test : Expr} {v : Value} (hv : v.Blank)
    (htest : eval (environment contextName context bindings) test = return .value v)
    (yes no : Expr) :
    eval (environment contextName context bindings)
        (helperCall .ifCheck [negation test, function none yes, function none no]) =
      eval (environment contextName context bindings)
        (helperCall .ifCheck [test, function none yes, function none no]) := by
  rw [eval_choice hcheck, eval_choice hcheck, eval, htest]
  have htaken : Render.ofExcept v.check = return false := congrArg Render.ofExcept hv.check_eq
  have htruth : Render.ofExcept v.truth = return true := congrArg Render.ofExcept hv.truth_eq
  simp only [asValue, applyHelper_ifCheck, ofExcept_check_bool, htaken, htruth, pure_bind,
    Bool.not_true]

end Choice

/-! ## Tests -/

theorem readPath_nil (context : Value) (path : String) :
    readPath context [] path = Render.ofExcept (context.lookup (Path.segments path)) := by
  obtain ⟨head, rest, hpath⟩ := Path.exists_segments path
  unfold readPath
  rw [hpath]
  rfl

/-- A context that is called in a helper's place gives no blank value. -/
theorem ensures_hidden_not_blank {h : Helper} (he : normalName contextName = h.name)
    (arguments : List Expr) :
    Render.Ensures (fun m => ∃ v : Value, m = .value v ∧ ¬ v.Blank)
      (eval (environment contextName context bindings) (helperCall h arguments)) := by
  refine (ensures_hidden he arguments).mono ?_
  rintro m ⟨result, -, rfl⟩
  exact ⟨.str result, rfl, Value.not_blank fun _ _ _ => Value.noConfusion⟩

variable (hn : Generator.checkContextName contextName = .ok ())

include hn

theorem eval_pathCode_nil (hlookup : normalName contextName ≠ Helper.lookup.name) (context : Value)
    (path : String) :
    eval (environment contextName context []) (pathCode (normalName contextName) [] path) =
      Meaning.value <$> Render.ofExcept (context.lookup (Path.segments path)) := by
  have hreachable : Reachable False contextName context .lookup := Or.inl hlookup
  have hpath := eval_pathCode hn hreachable [] path
  rw [readPath_nil] at hpath
  exact hpath.eq

/-- A blank value can only be what the path leads to. -/
theorem ensures_pathCode (context : Value) (path : String) :
    Render.Ensures (fun m => ∃ v : Value, m = .value v ∧
        (v.Blank → context.lookup (Path.segments path) = .ok v))
      (eval (environment contextName context []) (pathCode (normalName contextName) [] path)) := by
  by_cases hlookup : normalName contextName = Helper.lookup.name
  · obtain ⟨head, rest, hpath⟩ := Path.exists_segments path
    have hcode : pathCode (normalName contextName) [] path = helperCall .lookup
        (name (normalName contextName) :: (head :: rest).map literal) := by
      unfold pathCode
      rw [hpath]
      rfl
    rw [hcode]
    refine (ensures_hidden_not_blank hlookup _).mono ?_
    rintro m ⟨v, rfl, hv⟩
    exact ⟨v, rfl, fun hblank => absurd hblank hv⟩
  · rw [eval_pathCode_nil hn hlookup context path, map_eq_pure_bind]
    refine (Render.Ensures.ofExcept _).bind fun v hv => ?_
    exact .pure ⟨v, rfl, fun _ => hv⟩

/-- A blank value is only tested where it is not asked for elements. -/
theorem ensures_testCode (path : String) (emptiness : Bool) :
    Render.Ensures (fun m => ∃ v : Value, m = .value v ∧
        (v.Blank → emptiness = false ∧ context.lookup (Path.segments path) = .ok v))
      (eval (environment contextName context [])
        (testCode (normalName contextName) [] path false emptiness)) := by
  have hpath := ensures_pathCode hn context path
  cases emptiness with
  | false =>
    refine hpath.mono ?_
    rintro m ⟨v, rfl, hv⟩
    exact ⟨v, rfl, fun hblank => ⟨rfl, hv hblank⟩⟩
  | true =>
    change Render.Ensures _ (eval _ (helperCall .isNonempty [pathCode _ [] path]))
    by_cases hhidden : normalName contextName = Helper.isNonempty.name
    · refine (ensures_hidden_not_blank hhidden _).mono ?_
      rintro m ⟨v, rfl, hv⟩
      exact ⟨v, rfl, fun hblank => absurd hblank hv⟩
    · have hreachable : Reachable False contextName context .isNonempty := Or.inl hhidden
      rw [(eval_helperCall hreachable [pathCode (normalName contextName) [] path]).eq, evalAll,
        evalAll, bind_assoc]
      refine hpath.bind ?_
      rintro _ ⟨v, rfl, -⟩
      -- Whether there is an element is a truth value, which is not blank.
      simp only [pure_bind, applyHelper, bind_assoc]
      refine (Render.Ensures.any _).bind fun b _ => .pure ⟨.bool b, rfl, fun hb => ?_⟩
      exact absurd hb (Value.not_blank fun _ _ _ => Value.noConfusion)

end Code

/-! ## Conditionals -/

/-- A conditional with two bodies, and nothing else. -/
def Template.conditional (path : String) (inverted emptiness : Bool) (body other : Template) :
    Template :=
  .choice (.conditional path inverted emptiness) body other .done

namespace Compiled

open Template

variable {name path : String} {inverted emptiness : Bool} {first second : Template}

/-- A conditional is compiled exactly if its path is spelled like one and both bodies may stand in
a block. -/
theorem exists_conditional_iff :
    (∃ c, ofParts name (conditional path inverted emptiness first second).parts = .ok c) ↔
      (Generator.checkContextName name = .ok () ∧ Path.WellSpelled path) ∧
        ((∀ p ∈ first.parts, p.BuiltIn) ∧ first.AdmittedAt name 1) ∧
          (∀ p ∈ second.parts, p.BuiltIn) ∧ second.AdmittedAt name 1 := by
  have hspelled : (Head.conditional path inverted emptiness).part.Spelled name ↔
      Path.WellSpelled path :=
    (Part.spelled_iff fun _ _ => Part.noConfusion).trans List.forall_mem_singleton
  rw [conditional, exists_choice_iff, hspelled, and_assoc]
  rfl

/-- A template whose code does the same as another's renders the same, if either both of them have a
loop that cannot be run, or none. -/
theorem render_eq_of_code {other : String} {t u : Template} {c d : Compiled}
    (hc : ofParts name t.parts = .ok c) (hd : ofParts other u.parts = .ok d)
    (hloops : (∃ path, Part.loop path Binding.unbindable ∈ t.parts) ↔
      ∃ path, Part.loop path Binding.unbindable ∈ u.parts) {context : Value}
    (hcode : (Expr.joined (t.code (normalName name) [])).render name context =
      (Expr.joined (u.code (normalName other) [])).render other context) :
    c.render context = d.render context := by
  obtain ⟨t', ht, -, -, hc⟩ := exists_code hc
  obtain rfl : t = t' := Template.eq_of_ofParts? ht
  obtain ⟨u', hu, -, -, hd⟩ := exists_code hd
  obtain rfl : u = u' := Template.eq_of_ofParts? hu
  have hreserved : Expr.reservedName ∈ (Expr.joined (t.code (normalName name) [])).parameters ↔
      Expr.reservedName ∈ (Expr.joined (u.code (normalName other) [])).parameters := by
    rw [mem_parameters_reserved, mem_parameters_reserved]
    exact hloops
  rw [hc, hd, Expr.bindable_eq, Expr.bindable_eq]
  by_cases hmem : Expr.reservedName ∈ (Expr.joined (t.code (normalName name) [])).parameters
  · -- Neither of them can be run.
    rw [if_pos hmem, if_pos (hreserved.1 hmem)]
    rfl
  · rw [if_neg hmem, if_neg (mt hreserved.2 hmem)]
    exact hcode

theorem mem_parts_conditional {q r : String} :
    Part.loop q r ∈ (conditional path inverted emptiness first second).parts ↔
      Part.loop q r ∈ first.parts ∨ Part.loop q r ∈ second.parts := by
  simp [conditional, parts, Head.part]

/-- Which body comes first, and whether the test is inverted, makes no difference to what is
required of the context. -/
theorem anyRequired_swapped {c d : Compiled}
    (hc : ofParts name (conditional path true emptiness first second).parts = .ok c)
    (hd : ofParts name (conditional path false emptiness second first).parts = .ok d) :
    c.anyRequired = d.anyRequired := by
  have hswap : ∀ r, r ∈ (conditional path true emptiness first second).references [] ↔
      r ∈ (conditional path false emptiness second first).references [] := by
    intro r
    have hhead : (Head.conditional path true emptiness).references [] =
        (Head.conditional path false emptiness).references [] := rfl
    -- Either body is read without a binding of the block's own, wherever it stands.
    simp only [conditional, Template.references, hhead, Head.blocks, List.append_nil,
      List.mem_append, or_assoc]
    exact or_congr_right or_comm
  rw [Bool.eq_iff_iff, anyRequired_iff hc, anyRequired_iff hd]
  exact exists_congr fun r => and_congr_left fun _ => hswap r

theorem render_joined {e f : Expr} {context : Value}
    (h : e.eval (environment name context []) = f.eval (environment name context [])) :
    (Expr.joined [e]).render name context = (Expr.joined [f]).render name context := by
  refine Expr.render_congr ?_
  simp only [Expr.joined, Expr.eval, Expr.evalAll, h]

/-- Whether a conditional tests a blank value itself, rather than whether it has an element. -/
def TestsBlank (path : String) (emptiness : Bool) (context : Value) : Prop :=
  emptiness = false ∧ ∃ v, context.lookup (Path.segments path) = .ok v ∧ v.Blank

section Rendering

variable (hcheck : normalName name ≠ Helper.ifCheck.name)

include hcheck

theorem render_swapped {c d : Compiled} {context : Value}
    (hc : ofParts name (conditional path true emptiness first second).parts = .ok c)
    (hd : ofParts name (conditional path false emptiness second first).parts = .ok d)
    (hblank : ¬ TestsBlank path emptiness context) : c.render context = d.render context := by
  obtain ⟨hn, -⟩ := ofParts_ok hc
  have htest : Render.Ensures (fun m => ∃ v : Value, m = .value v ∧ v.check = v.truth)
      (Expr.eval (environment name context [])
        (testCode (normalName name) [] path false emptiness)) := by
    refine (ensures_testCode hn path emptiness).mono ?_
    rintro m ⟨v, rfl, hv⟩
    -- A blank value would have to come straight from the path.
    refine ⟨v, rfl, Value.check_eq_truth fun hvb => hblank ?_⟩
    obtain ⟨he, hlookup⟩ := hv hvb
    exact ⟨he, v, hlookup, hvb⟩
  refine render_eq_of_code hc hd (exists_congr fun q => ?_)
    (render_joined (eval_choice_negation hcheck htest _ _))
  rw [mem_parts_conditional, mem_parts_conditional, or_comm]

theorem render_blank {c d : Compiled} {context : Value}
    (hlookup : normalName name ≠ Helper.lookup.name)
    (hc : ofParts name (conditional path true emptiness first second).parts = .ok c)
    (hd : ofParts name (conditional path false emptiness first second).parts = .ok d)
    (hblank : TestsBlank path emptiness context) : c.render context = d.render context := by
  obtain ⟨hn, -⟩ := ofParts_ok hc
  obtain ⟨rfl, v, hpath, hv⟩ := hblank
  have htest : Expr.eval (environment name context [])
      (testCode (normalName name) [] path false false) = return .value v := by
    have hcode := eval_pathCode_nil hn hlookup context path
    rw [hpath] at hcode
    exact hcode
  refine render_eq_of_code hc hd (exists_congr fun q => ?_)
    (render_joined (eval_choice_blank hcheck hv htest _ _))
  rw [mem_parts_conditional, mem_parts_conditional]

/-- An inverted conditional is the plain one with its bodies the other way round: it is compiled if
and only if that is, it requires the context as that does, and it renders the same, unless it tests
a blank value.  Then it renders as if it were not inverted. -/
theorem inverted_iff_swapped (path : String) (emptiness : Bool) (first second : Template) :
    ((∃ c, ofParts name (conditional path true emptiness first second).parts = .ok c) ↔
      ∃ d, ofParts name (conditional path false emptiness second first).parts = .ok d) ∧
    ∀ c d, ofParts name (conditional path true emptiness first second).parts = .ok c →
      ofParts name (conditional path false emptiness second first).parts = .ok d →
      c.anyRequired = d.anyRequired ∧
      (∀ context, ¬ TestsBlank path emptiness context → c.render context = d.render context) ∧
      (normalName name ≠ Helper.lookup.name →
        ∃ e, ofParts name (conditional path false emptiness first second).parts = .ok e ∧
          ∀ context, TestsBlank path emptiness context → c.render context = e.render context) := by
  refine ⟨?_, ?_⟩
  · rw [exists_conditional_iff, exists_conditional_iff]
    exact and_congr_right fun _ => and_comm
  · intro c d hc hd
    refine ⟨anyRequired_swapped hc hd, fun context => render_swapped hcheck hc hd, ?_⟩
    intro hlookup
    obtain ⟨e, he⟩ := exists_conditional_iff.2 (exists_conditional_iff.1 ⟨c, hc⟩)
    exact ⟨e, he, fun context => render_blank hcheck hlookup hc he⟩

end Rendering

/-- Both forms of a conditional agree on a number. -/
theorem inverted_iff_swapped_zero : ∃ c d,
    ofParts "context" (conditional "a" true false (.insert (.raw "A") .done)
      (.insert (.raw "B") .done)).parts = .ok c ∧
    ofParts "context" (conditional "a" false false (.insert (.raw "B") .done)
      (.insert (.raw "A") .done)).parts = .ok d ∧
    c.anyRequired = d.anyRequired ∧
    c.render (.dict [(.str "a", .int 0)]) = d.render (.dict [(.str "a", .int 0)]) := by
  have hcheck : normalName "context" ≠ Helper.ifCheck.name := by
    rw [normalName_ascii (by decide)]
    decide
  obtain ⟨-, hswapped⟩ := inverted_iff_swapped hcheck "a" false (.insert (.raw "A") .done)
    (.insert (.raw "B") .done)
  obtain ⟨hrequired, hrender, -⟩ := hswapped _ _ rfl rfl
  refine ⟨_, _, rfl, rfl, hrequired, hrender _ ?_⟩
  rintro ⟨-, v, hlookup, hblank⟩
  cases hlookup
  exact absurd hblank (Value.not_blank fun _ _ _ => Value.noConfusion)

/-- On an object whose text is empty it renders its second body, as the plain conditional does that
has the bodies in the same order. -/
theorem not_swapped_blank : ∃ c d,
    ofSource {} (inBraces "~!a" ++ "A" ++ inBraces "|" ++ "B" ++ inBraces "<") = .ok c ∧
    ofSource {} (inBraces "~a" ++ "B" ++ inBraces "|" ++ "A" ++ inBraces "<") = .ok d ∧
    c.render (.dict [(.str "a", .object { text := .given "" } [] Option.none)]) =
      .ok (.str "B") ∧
    d.render (.dict [(.str "a", .object { text := .given "" } [] Option.none)]) =
      .ok (.str "A") := by
  have hinverted : templateOf {} (inBraces "~!a" ++ "A" ++ inBraces "|" ++ "B" ++ inBraces "<") =
      .ok (conditional "a" true false (.insert (.raw "A") .done)
        (.insert (.raw "B") .done)).parts := by with_unfolding_all rfl
  have hplain : templateOf {} (inBraces "~a" ++ "B" ++ inBraces "|" ++ "A" ++ inBraces "<") =
      .ok (conditional "a" false false (.insert (.raw "B") .done)
        (.insert (.raw "A") .done)).parts := by with_unfolding_all rfl
  obtain ⟨c, hc⟩ : ∃ c, ofParts "context" (conditional "a" true false (.insert (.raw "A") .done)
      (.insert (.raw "B") .done)).parts = .ok c := ⟨_, rfl⟩
  obtain ⟨d, hd⟩ : ∃ d, ofParts "context" (conditional "a" false false (.insert (.raw "B") .done)
      (.insert (.raw "A") .done)).parts = .ok d := ⟨_, rfl⟩
  have hname : normalName "context" = "context" := normalName_ascii (by decide)
  refine ⟨c, d, ofSource_of_parts hinverted hc, ofSource_of_parts hplain hd, ?_, ?_⟩
  · have hcode := code_bindable hc (by simp [conditional, parts, Head.part, Insertion.part])
    obtain ⟨-, hcname, -⟩ := ofParts_ok hc
    unfold render Expr.render Expr.run
    rw [hcode, hcname, hname]
    rfl
  · have hcode := code_bindable hd (by simp [conditional, parts, Head.part, Insertion.part])
    obtain ⟨-, hdname, -⟩ := ofParts_ok hd
    unfold render Expr.render Expr.run
    rw [hcode, hdname, hname]
    rfl

end Compiled
end HtmlTemplate
