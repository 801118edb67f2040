import HtmlTemplate.Proofs.Template.Code

/-!
# Evaluation — the code of a template means what the template means

Each kind of insertion and each kind of block is evaluated on its own, and `Template.renders_code`
puts them together by induction on the template, for any bindings that are live around it.
-/

namespace HtmlTemplate

open Text HtmlTemplate.Expr Meaning

/-! ## Values -/

theorem output_singleton (piece : Piece) : Piece.output [piece] = piece.text := by
  rw [Piece.output_cons, Piece.output_nil, String.append_empty]

theorem output_escaped (source : Insertion) (x : Except RenderFault String) :
    x.map Value.escape = Piece.output <$> (do return [Piece.escaped source (← x)]) := by
  cases x with
  | error fault => rfl
  | ok s => exact congrArg Except.ok (output_singleton (.escaped source s)).symm

theorem leafText_eq (source : Insertion) (v : Value) :
    v.leafText = Piece.output <$> leafPiece source v := by
  cases v with
  | none => rfl
  | markup s => exact congrArg Except.ok (output_singleton (.verbatim source s)).symm
  | _ =>
    unfold Value.leafText leafPiece
    exact output_escaped source _

theorem leavesText_eq (source : Insertion) (leaves : List Value.Leaf) :
    Value.leavesText leaves = Piece.output <$> leafPieces source leaves := by
  induction leaves with
  | nil => rfl
  | cons leaf leaves ih => simp [Value.leavesText, leafPieces, ih, leafText_eq source]

/-- A value in body text is the pieces of its leaves. -/
theorem body_eq (source : Insertion) (v : Value) :
    Render.body v = Piece.output <$> (do
      let leaves ← leavesOf v
      Render.ofExcept (leafPieces source leaves)) := by
  funext p
  have hbody := Render.run_body v p
  rw [leavesText_eq source] at hbody
  refine hbody.trans ?_
  change _ = (Piece.output <$> Render.ofExcept (leafPieces source (v.leaves p).1)).run (v.leaves p).2
  cases leafPieces source (v.leaves p).1 <;> rfl

/-- A value that is there is put in a frame as text. -/
theorem defined_eq (source : Insertion) (v : Value) :
    Render.defined v (fun s => return .str s) =
      Value.str <$> Piece.output <$> escapedPieces source v := by
  unfold Render.defined escapedPieces
  split
  · simp
  · simp [Render.escaped, Piece.text]

/-- The frame of an attribute stands around a value that is there. -/
theorem defined_frame_eq (source : Insertion) (v : Value) (before : String) :
    Render.defined v (fun s => return .str (before ++ s ++ "\"")) =
      Value.str <$> Piece.output <$> (do
        match ← escapedPieces source v with
        | [] => return []
        | inner => return .literal source before :: inner ++ [.literal source "\""]) := by
  unfold Render.defined escapedPieces
  split
  · simp
  · simp [Render.escaped, Piece.text, String.append_assoc]

theorem orEmpty_str (s : String) : Render.orEmpty (.str s) = return .str s := by
  have htruth : (Value.str s).truth = .ok (0 < s.length : Bool) := rfl
  unfold Render.orEmpty
  rw [htruth]
  by_cases h : 0 < s.length
  · simp only [h, decide_true]
    rfl
  · have hs : s = "" := String.length_eq_zero_iff.1 (Nat.eq_zero_of_not_pos h)
    subst hs
    rfl

/-! ## Insertions -/

theorem asText_str (s : String) : Render.asText (.str s) = return s := by
  simp [Render.asText, Value.chars?]

theorem evalAll_attributeCode (env : Env) (key : String) :
    evalAll env [attributeCode key] = return [.function fun v => do
      let text ← Render.asText v
      return .str (" " ++ key ++ "=\"" ++ text ++ "\"")] := by
  have hv : ∀ v, ofName (("v", v) :: env) "v" = return .value v := fun v => rfl
  simp only [evalAll, attributeCode, eval, hv, asValue, Meaning.plus, asText_str, pure_bind,
    bind_assoc]

theorem renders_literal {excused : Prop} {contextName : String} {context : Value}
    (bindings : Bindings) (source : Insertion) (text : String) :
    Renders excused (environment contextName context bindings)
      (if text.isEmpty then [] else [.literal text])
      (Piece.output <$> (return [.literal source text] : Render (List Piece))) := by
  by_cases h : text.isEmpty = true
  · rw [if_pos h, String.isEmpty_iff.1 h]
    simpa [Piece.text] using Renders.nil
  · rw [if_neg h]
    refine Renders.single (.of_eq ?_)
    simp [eval, Piece.text, said]

theorem segmentCode_text (name : String) (live : List String) (text : String)
    (rest : List String) : segmentCode name live true (text :: rest) =
      (if text.isEmpty then [] else [.literal text]) ++ segmentCode name live false rest := by
  rw [segmentCode]
  split <;> rfl

theorem renders_raw {excused : Prop} {contextName : String} {context : Value}
    (bindings : Bindings) (text : String) :
    Renders excused (environment contextName context bindings) [.literal text]
      (Piece.output <$> (Insertion.raw text).trace context bindings) := by
  refine Renders.single (.of_eq ?_)
  simp [eval, Insertion.trace, Piece.text, said]

/-- The helpers that the code of an insertion calls. -/
def Insertion.helpers : Insertion → List Helper
  | .raw _ => []
  | .body _ => [.lookup, .renderBody]
  | .flag _ _ => [.lookup, .ifCheck]
  | _ => [.lookup, .ifDefined]

theorem Insertion.ne_markSafe {insertion : Insertion} {h : Helper} (hh : h ∈ insertion.helpers) :
    h ≠ .markSafe := by
  rintro rfl
  cases insertion <;> simp [helpers] at hh

section Insertions

variable {excused : Prop} {contextName : String} {context : Value}

variable (hn : Generator.checkContextName contextName = .ok ())
  (hl : Reachable excused contextName context .lookup)

include hn hl

theorem renders_defined (hd : Reachable excused contextName context .ifDefined)
    (bindings : Bindings) (source : Insertion) (path : String) :
    Renders excused (environment contextName context bindings)
      [helperCall .ifDefined [pathCode (normalName contextName) (bindings.map (·.1)) path]]
      (Piece.output <$> (readPath context bindings path >>= escapedPieces source)) := by
  have hpath := eval_pathCode hn hl bindings path
  refine Renders.single ((eval_helperCall_value hd hpath rfl).trans (.of_eq ?_))
  simp only [applyHelper, defined_eq source, map_bind, bind_pure_comp, Functor.map_map]
  rfl

theorem renders_body (hb : Reachable excused contextName context .renderBody)
    (bindings : Bindings) (path : String) :
    Renders excused (environment contextName context bindings)
      [helperCall .renderBody [pathCode (normalName contextName) (bindings.map (·.1)) path]]
      (Piece.output <$> (Insertion.body path).trace context bindings) := by
  have hpath := eval_pathCode hn hl bindings path
  refine Renders.single ((eval_helperCall_value hb hpath rfl).trans (.of_eq ?_))
  simp only [applyHelper, body_eq (.body path), Insertion.trace, map_bind, bind_pure_comp,
    Functor.map_map]
  rfl

theorem renders_optional (hd : Reachable excused contextName context .ifDefined)
    (bindings : Bindings) (key path : String) :
    Renders excused (environment contextName context bindings)
      [helperCall .ifDefined [pathCode (normalName contextName) (bindings.map (·.1)) path,
        attributeCode key]]
      (Piece.output <$> (Insertion.optional key path).trace context bindings) := by
  have hpath := eval_pathCode hn hl bindings path
  refine Renders.single ((eval_helperCall_value hd hpath (evalAll_attributeCode _ key)).trans
    (.of_eq ?_))
  simp only [applyHelper, asText_str, pure_bind, defined_frame_eq (.optional key path),
    Insertion.trace]
  simp only [map_bind, bind_pure_comp, Functor.map_map]
  rfl

theorem renders_flag (hc : Reachable excused contextName context .ifCheck)
    (bindings : Bindings) (key path : String) :
    Renders excused (environment contextName context bindings)
      [helperCall .ifCheck [pathCode (normalName contextName) (bindings.map (·.1)) path,
        .function none (.literal (" " ++ key))]]
      (Piece.output <$> (Insertion.flag key path).trace context bindings) := by
  have hpath := eval_pathCode hn hl bindings path
  refine Renders.single ((eval_helperCall_value hc hpath rfl).trans (.of_eq ?_))
  simp only [applyHelper, Render.choose, Insertion.trace, eval, asValue, pure_bind, map_bind,
    bind_assoc]
  congr 1
  funext v
  congr 1
  funext truth
  cases truth with
  | false => simp [said]
  | true => simp [orEmpty_str, Piece.text, said]

/-- Segments with a quote behind the last one.  A composite value starts and ends with text. -/
theorem renders_closeQuote (hd : Reachable excused contextName context .ifDefined)
    (bindings : Bindings) (source : Insertion) : ∀ segments : List String,
    segments.length % 2 = 1 → Renders excused (environment contextName context bindings)
      (segmentCode (normalName contextName) (bindings.map (·.1)) true
        (closeQuote segments))
      (Piece.output <$> (do
        let inner ← segmentPieces context bindings source true segments
        return inner ++ [.literal source "\""]))
  | [], h => by cases h
  | [text], _ => by
    have hlit : Renders excused (environment contextName context bindings) _ _ :=
      renders_literal bindings source (text ++ "\"")
    rw [closeQuote_singleton, segmentCode_text, segmentCode, List.append_nil]
    refine hlit.congr ?_
    simp [segmentPieces, Piece.text]
  | [_, _], h => absurd h (by simp)
  | text :: path :: next :: rest, h => by
    have hodd : (next :: rest).length % 2 = 1 := by
      simp only [List.length_cons] at h ⊢
      omega
    have hrest := renders_closeQuote hd bindings source (next :: rest) hodd
    have hpath := renders_defined hn hl hd bindings source path
    rw [closeQuote_cons_cons, closeQuote_cons_cons, segmentCode_text, segmentCode]
    refine ((renders_literal bindings source text).append (hpath.append hrest)).congr ?_
    simp [segmentPieces, Piece.text]

theorem renders_composite (hd : Reachable excused contextName context .ifDefined)
    (bindings : Bindings) {segments : List String} (hodd : segments.length % 2 = 1) :
    Renders excused (environment contextName context bindings)
      (segmentCode (normalName contextName) (bindings.map (·.1)) true
        (Generate.quoteSegments segments))
      (Piece.output <$> (Insertion.composite segments).trace context bindings) := by
  cases segments with
  | nil => cases hodd
  | cons first rest =>
    rw [quoteSegments_cons]
    refine (renders_closeQuote hn hl hd bindings (.composite (first :: rest))
      (("\"" ++ first) :: rest) hodd).congr ?_
    simp [Insertion.trace, segmentPieces, Piece.text, String.append_assoc]

omit hl in
/-- The code of an insertion means what the insertion means, if the helpers that it calls can be. -/
theorem renders_insertion {insertion : Insertion}
    (hh : ∀ h ∈ insertion.helpers, Reachable excused contextName context h) (bindings : Bindings)
    (hsound : insertion.Sound) :
    Renders excused (environment contextName context bindings)
      (insertion.code (normalName contextName) (bindings.map (·.1)))
      (Piece.output <$> insertion.trace context bindings) := by
  cases insertion with
  | raw text => exact renders_raw bindings text
  | body path =>
    obtain ⟨hl, hb⟩ := List.forall_mem_cons.1 hh
    exact renders_body hn hl (List.forall_mem_singleton.1 hb) bindings path
  | comment path =>
    obtain ⟨hl, hd⟩ := List.forall_mem_cons.1 hh
    exact renders_defined hn hl (List.forall_mem_singleton.1 hd) bindings (.comment path) path
  | composite segments =>
    obtain ⟨hl, hd⟩ := List.forall_mem_cons.1 hh
    exact renders_composite hn hl (List.forall_mem_singleton.1 hd) bindings hsound
  | optional key path =>
    obtain ⟨hl, hd⟩ := List.forall_mem_cons.1 hh
    exact renders_optional hn hl (List.forall_mem_singleton.1 hd) bindings key path
  | flag key path =>
    obtain ⟨hl, hc⟩ := List.forall_mem_cons.1 hh
    exact renders_flag hn hl (List.forall_mem_singleton.1 hc) bindings key path

end Insertions

/-! ## Blocks -/

/-- Whether a call's last argument, if there is one, is a function that comes to a text, and the
text is empty without it. -/
def Otherwise (excused : Prop) (others : List Meaning) (z : Render String) : Prop :=
  (others = [] ∧ z = return "") ∨
    ∃ no, others = [.thunk no] ∧ Render.Agrees excused no (Value.str <$> z)

section Blocks

variable {excused : Prop}

theorem agrees_orEmpty {x : Render Value} {y : Render String}
    (h : Render.Agrees excused x (Value.str <$> y)) :
    Render.Agrees excused (x >>= Render.orEmpty) (Value.str <$> y) := by
  refine (h.bind fun v => Render.Agrees.refl _).trans (.of_eq ?_)
  simp [orEmpty_str]

/-- A choice runs exactly one of its bodies. -/
theorem agrees_ifCheck {yes : Render Value} {others : List Meaning} {y z : Render String}
    (hyes : Render.Agrees excused yes (Value.str <$> y)) (hothers : Otherwise excused others z)
    (v : Value) :
    Render.Agrees excused (applyHelper .ifCheck (.value v :: .thunk yes :: others))
      (Value.str <$> (do if ← Render.ofExcept v.check then y else z)) := by
  rw [map_bind]
  rcases hothers with ⟨rfl, rfl⟩ | ⟨no, rfl, hno⟩
  · refine (Render.Agrees.refl _).bind fun truth => ?_
    cases truth with
    | false => exact .of_eq (by simp)
    | true => exact agrees_orEmpty hyes
  · refine (Render.Agrees.refl _).bind fun truth => ?_
    cases truth with
    | false => exact agrees_orEmpty hno
    | true => exact agrees_orEmpty hyes

theorem loop_eq (v : Value) (each : Value → Render Value) (empty? : Option (Render Value)) :
    Render.loop v each empty? = (do
      let results ← Render.eachOf v each
      if results.isEmpty then empty?.getD (return .str "") else Render.joined "" results) := by
  unfold Render.loop
  congr 1
  funext results
  cases results <;> cases empty? <;> rfl

/-- A loop joins the texts of its elements, unless there is none. -/
theorem agrees_loop {each : Value → Render Value} {others : List Meaning}
    {y : Value → Render String} {z : Render String}
    (heach : ∀ v, Render.Agrees excused (each v) (Value.str <$> y v))
    (hothers : Otherwise excused others z) (v : Value) :
    Render.Agrees excused (applyHelper .loop (.value v :: .function each :: others))
      (Value.str <$> (do
        let results ← Render.eachOf v y
        if results.isEmpty then z else return String.join results)) := by
  have hof := Render.Agrees.eachOf v heach
  rw [Render.eachOf_map] at hof
  have hloop : ∀ empty? : Option (Render Value),
      Render.Agrees excused (empty?.getD (return .str "")) (Value.str <$> z) →
      Render.Agrees excused (Render.loop v each empty?) (Value.str <$> (do
        let results ← Render.eachOf v y
        if results.isEmpty then z else return String.join results)) := by
    intro empty? hempty
    rw [loop_eq, map_bind]
    refine (hof.bind fun results => Render.Agrees.refl _).trans ?_
    rw [bind_map_left]
    refine (Render.Agrees.refl _).bind fun results => ?_
    cases results with
    | nil => exact hempty
    | cons s results => exact .of_eq (Renders.joined_str (s :: results))
  rcases hothers with ⟨rfl, rfl⟩ | ⟨no, rfl, hno⟩
  · exact hloop none (.of_eq (by simp))
  · exact hloop (some no) hno

end Blocks

/-- The value that the code of a conditional tests. -/
def tested (v : Value) (inverted emptiness : Bool) : Render Value := do
  let value ← if emptiness then Value.bool <$> Render.isNonempty v else pure v
  if inverted then Value.bool <$> not <$> Render.ofExcept value.truth else pure value

/-- It is taken for true when the conditional runs its first body. -/
theorem check_tested (v : Value) (inverted emptiness : Bool) :
    (tested v inverted emptiness >>= fun w => Render.ofExcept w.check) =
      holds v inverted emptiness := by
  have hbool : ∀ b : Bool, Render.ofExcept (Value.bool b).check = return b := fun b => rfl
  have htruth : ∀ b : Bool, Render.ofExcept (Value.bool b).truth = return b := fun b => rfl
  unfold tested holds
  cases inverted <;> cases emptiness <;> simp [hbool, htruth]

section Heads

variable {excused : Prop} {contextName : String} {context : Value}

variable (hn : Generator.checkContextName contextName = .ok ())
  (hh : ∀ h : Helper, h ≠ .markSafe → Reachable excused contextName context h)

include hn hh

theorem eval_testCode (bindings : Bindings) (path : String) (inverted emptiness : Bool) :
    Render.Agrees excused
      (eval (environment contextName context bindings)
        (testCode (normalName contextName) (bindings.map (·.1)) path inverted emptiness))
      (Meaning.value <$> (readPath context bindings path >>= fun v => tested v inverted emptiness)) := by
  have hvalue : Render.Agrees excused
      (eval (environment contextName context bindings)
        (testCode (normalName contextName) (bindings.map (·.1)) path false emptiness))
      (Meaning.value <$> (readPath context bindings path >>= fun v => tested v false emptiness)) := by
    have hnil : evalAll (environment contextName context bindings) [] = return [] := rfl
    have hpath := eval_pathCode hn (hh .lookup (by decide)) bindings path
    have hcall := eval_helperCall_value (hh .isNonempty (by decide)) hpath hnil
    cases emptiness with
    | false =>
      refine hpath.trans (.of_eq ?_)
      simp [tested]
    | true =>
      refine hcall.trans (.of_eq ?_)
      simp [tested, applyHelper]
  cases inverted with
  | false => exact hvalue
  | true =>
    have hnot := hvalue.bind fun m => Render.Agrees.refl (do
      let v ← m.asValue
      return Meaning.value (.bool !(← Render.ofExcept v.truth)))
    refine Render.Agrees.trans (.of_eq ?_) (hnot.trans (.of_eq ?_))
    · simp [testCode, eval]
    · cases emptiness <;> simp [tested, asValue]

omit hn hh in
/-- A function whose body is joined comes to the text of the body. -/
theorem agrees_body {env : Env} {es : List Expr} {y : Render String}
    (h : Renders excused env es y) :
    Render.Agrees excused (do (← eval env (Expr.joined es)).asValue) (Value.str <$> y) := by
  refine (h.joined.bind fun m => Render.Agrees.refl m.asValue).trans (.of_eq ?_)
  simp [said, asValue]

/-- The code of a block means what the block means, if the code of its bodies does. -/
theorem eval_head (bindings : Bindings) (head : Head) {body others : List Expr}
    {meanings : List Meaning} {trace : Bindings → Render (List Piece)} {other : Render (List Piece)}
    (hbody : ∀ inner : Bindings, inner.map (·.1) = head.within (bindings.map (·.1)) →
      Renders excused (environment contextName context inner) body (Piece.output <$> trace inner))
    (hmeanings : evalAll (environment contextName context bindings) others = return meanings)
    (hothers : Otherwise excused meanings (Piece.output <$> other)) :
    Render.Agrees excused
      (eval (environment contextName context bindings)
        (head.code (normalName contextName) (bindings.map (·.1)) body others))
      (said <$> Piece.output <$> head.trace context bindings trace other) := by
  cases head with
  | conditional path inverted emptiness =>
    have hyes := agrees_body (hbody bindings rfl)
    have hargs : evalAll (environment contextName context bindings)
        (.function none (Expr.joined body) :: others) = pure (Meaning.thunk (do
          (← eval (environment contextName context bindings) (Expr.joined body)).asValue) ::
        meanings) := by
      rw [evalAll, hmeanings]
      simp [eval]
    refine (eval_helperCall_value (hh .ifCheck (by decide))
      (eval_testCode hn hh bindings path inverted emptiness) hargs).trans ?_
    have hread := (Render.Agrees.refl
      (readPath context bindings path >>= fun v => tested v inverted emptiness)).bind fun w =>
        (agrees_ifCheck hyes hothers w).map Meaning.value
    refine Render.Agrees.trans (.of_eq ?_) (hread.trans (.of_eq ?_))
    · simp
    · simp only [Head.trace, ← check_tested, map_bind, bind_assoc]
      -- The value is read and tested once, then either body runs.
      refine bind_congr fun v => bind_congr fun w => bind_congr fun truth => ?_
      cases truth <;> simp [said]
  | loop path binding =>
    -- The body runs with the element in the binding's variable, in front of the others.
    have heach : ∀ v, Render.Agrees excused
        (do (← eval ((Binding.variableOf binding, v) :: environment contextName context bindings)
          (Expr.joined body)).asValue)
        (Value.str <$> Piece.output <$> trace ((binding, v) :: bindings)) :=
      fun v => agrees_body (hbody ((binding, v) :: bindings) rfl)
    have hargs : evalAll (environment contextName context bindings)
        (.function (some (Binding.variableOf binding)) (Expr.joined body) :: others) =
        pure (Meaning.function (fun v => do
          (← eval ((Binding.variableOf binding, v) :: environment contextName context bindings)
            (Expr.joined body)).asValue) :: meanings) := by
      rw [evalAll, hmeanings]
      simp [eval]
    refine (eval_helperCall_value (hh .loop (by decide))
      (eval_pathCode hn (hh .lookup (by decide)) bindings path) hargs).trans ?_
    have hread := (Render.Agrees.refl (readPath context bindings path)).bind fun v =>
      (agrees_loop heach hothers v).map Meaning.value
    refine Render.Agrees.trans (.of_eq ?_) (hread.trans (.of_eq ?_))
    · simp
    · simp only [Head.trace, Render.eachOf_map, map_bind, bind_map_left]
      refine bind_congr fun v => bind_congr fun results => ?_
      cases results <;> simp [said, Piece.output_flatten]

/-- The code of a template means what the template means. -/
theorem Template.renders_code (t : Template) : t.Sound → ∀ bindings : Bindings,
    Renders excused (environment contextName context bindings)
      (t.code (normalName contextName) (bindings.map (·.1)))
      (Piece.output <$> t.trace context bindings) := by
  induction t with
  | done =>
    intro _ bindings
    refine Renders.nil.congr ?_
    simp [Template.trace]
  | insert insertion rest ih =>
    intro hsound bindings
    have hfirst := renders_insertion hn (fun h hm => hh h (Insertion.ne_markSafe hm)) bindings hsound.1
    refine (hfirst.append (ih hsound.2 bindings)).congr ?_
    simp [Template.trace]
  | block head body rest ihbody ihrest =>
    intro hsound bindings
    have hbody := ihbody hsound.2.1
    have hnil : evalAll (environment contextName context bindings) [] = pure [] := rfl
    -- A block without another body comes to nothing instead.
    have hnone : Otherwise excused [] (Piece.output <$> (return [] : Render (List Piece))) :=
      Or.inl ⟨rfl, by simp⟩
    have hfirst := eval_head hn hh bindings head (fun inner hi => hi ▸ hbody inner) hnil hnone
    refine ((Renders.single hfirst).append (ihrest hsound.2.2 bindings)).congr ?_
    simp [Template.trace]
  | choice head body other rest ihbody ihother ihrest =>
    intro hsound bindings
    have hbody := ihbody hsound.2.1
    have hother := agrees_body (ihother hsound.2.2.1 bindings)
    have hthunk : evalAll (environment contextName context bindings)
        [.function none (Expr.joined (other.code (normalName contextName) (bindings.map (·.1))))] =
        pure [Meaning.thunk (do
          (← eval (environment contextName context bindings)
            (Expr.joined (other.code (normalName contextName) (bindings.map (·.1))))).asValue)] := by
      simp [evalAll, eval]
    have hfirst := eval_head hn hh bindings head (fun inner hi => hi ▸ hbody inner) hthunk
      (Or.inr ⟨_, rfl, hother⟩)
    refine ((Renders.single hfirst).append (ihrest hsound.2.2.2 bindings)).congr ?_
    simp [Template.trace]

end Heads

end HtmlTemplate
