import HtmlTemplate.Proofs.Render.Emptiness
import HtmlTemplate.Proofs.Scan.Choices
import HtmlTemplate.Proofs.Template.Substitution
import HtmlTemplate.Proofs.Template.Totality

/-!
# Emptiness — conditionals that ask for elements, and loops

A conditional that asks for elements and a loop over the same path agree on whether there are any:
each runs its second body exactly if the other one does, and an inverted conditional exactly if the
other two do not (`Compiled.emptiness_agrees`).
-/

namespace HtmlTemplate

open Text

variable {v context : Value} {path binding : String} {first second : Template}

/-! ## Meanings -/

namespace Template

/-- The text of a body for some elements, one after another. -/
def overElements (body : Template) (binding : String) (context : Value) (elements : List Value) :
    Except RenderFault String :=
  (fun result => Piece.output result.1.flatten) <$>
    (Render.eachItem (fun element => body.trace context [(binding, element)]) elements).run []

theorem interpret_eq (t : Template) (context : Value) : t.interpret context =
    (fun result => Piece.output result.1) <$> (t.trace context []).run [] := by
  unfold interpret pieces
  rw [Functor.map_map]

theorem trace_choice (head : Head) (first second : Template) :
    (choice head first second .done).trace context [] =
      head.trace context [] (first.trace context) (second.trace context []) := by
  rw [trace]
  simp [trace]

section Test

variable (hread : context.lookup (Path.segments path) = .ok v)

include hread

theorem readPath_eq : readPath context [] path = return v := by
  rw [readPath_nil, hread]
  rfl

/-- A conditional that asks for elements runs one of its bodies by whether there are any. -/
theorem interpret_conditional (hv : ∀ id items, v ≠ .iterator id items) (hlength : v.Faithful)
    (hmeasured : v.Measured) (inverted : Bool) :
    (conditional path inverted true first second).interpret context =
      if v.elements.isEmpty = inverted then first.interpret context
      else second.interpret context := by
  have hholds : holds v inverted true = return (v.elements.isEmpty == inverted) := by
    unfold holds
    rw [if_pos rfl, Render.isNonempty_of_measured hv hlength hmeasured, pure_bind]
    cases v.elements.isEmpty <;> cases inverted <;> rfl
  rw [interpret_eq, conditional, trace_choice, Head.trace]
  simp only [readPath_eq hread, hholds, pure_bind, beq_iff_eq]
  split <;> exact (interpret_eq _ _).symm

theorem interpret_conditional_of_error (hv : ∀ id items, v ≠ .iterator id items)
    (hiterable : v.isIterable = true) {fault : RenderFault} (h : v.size? = some (.error fault))
    (inverted : Bool) :
    (conditional path inverted true first second).interpret context = .error fault := by
  rw [interpret_eq, conditional, trace_choice, Head.trace]
  simp only [readPath_eq hread, holds, Render.isNonempty_of_error hv hiterable h, pure_bind]
  rfl

/-- A loop runs its first body for the elements, and its second one if there is none. -/
theorem interpret_loop (hv : ∀ id items, v ≠ .iterator id items) (hends : v.breaksOff = false)
    (binding : String) :
    (choice (.loop path binding) first second .done).interpret context =
      if v.elements = [] then second.interpret context
      else first.overElements binding context v.elements := by
  rw [interpret_eq, trace_choice, Head.trace]
  simp only [readPath_eq hread, pure_bind, Render.eachOf_eq hv hends]
  cases helements : v.elements with
  | nil =>
    rw [if_pos rfl, Render.eachItem, pure_bind, interpret_eq]
    rfl
  | cons element others =>
    have hresults : (do
        let results ← Render.eachItem (fun element => first.trace context [(binding, element)])
          (element :: others)
        if results.isEmpty then second.trace context [] else return results.flatten) =
        List.flatten <$> Render.eachItem (fun element => first.trace context [(binding, element)])
          (element :: others) := by
      -- The first element has a result, so that there is one.
      simp [Render.eachItem]
    rw [if_neg (List.cons_ne_nil _ _), hresults, StateT.run_map, Functor.map_map, overElements]

end Test

end Template

/-! ## What is compiled -/

/-- Whether a text may stand as a body in a block, for a context of the name, and is read as a
template that can be run. -/
structure Template.StandsAs (name : String) (t : Template) (text : String) : Prop where
  written : ∃ ps, Scan.ReadsAs Resolver.builtin.resolve text.toList ps ∧ Part.coalesce ps = t.parts
  stands : t.MayStand name
  runnable : ¬ t.Binds Binding.unbindable

/-- Literal text may stand anywhere. -/
theorem Template.standsAs_literal {text : String} (hne : text ≠ "") (htags : '<' ∉ text.toList)
    (hmarkers : '{' ∉ text.toList) (name : String) :
    (insert (.raw text) done).StandsAs name text where
  written := by
    have hreads := Scan.readsAs_literal Resolver.builtin.resolve
      (mt String.toList_eq_nil_iff.1 hne) htags hmarkers
    rw [String.ofList_toList] at hreads
    refine ⟨_, hreads, ?_⟩
    have hjoined : Part.coalesce [.raw text] = if text.isEmpty then [] else [.raw text] := by
      simp [Part.coalesce, Part.coalesceFrom]
    rw [hjoined, if_neg (mt String.isEmpty_iff.1 hne)]
    rfl
  stands := by
    have hspelled : (Insertion.raw text).part.Spelled name :=
      (Part.spelled_iff fun _ _ => Part.noConfusion).2 (List.forall_mem_nil _)
    exact ⟨List.forall_mem_singleton.2 trivial, hspelled, trivial⟩
  runnable := by
    rw [binds_insert]
    rintro ⟨path, hpath⟩
    cases hpath

namespace Compiled

open Template

variable {name source : String} {config : Config} {c : Compiled} {t : Template}

/-- What is compiled renders what its template means, if no loop has the binding that no function
can have. -/
theorem render_of_parts (hc : ofParts name t.parts = .ok c)
    (hname : ∀ helper : Helper, helper ≠ .markSafe → normalName name ≠ helper.name)
    (hbinds : ¬ t.Binds Binding.unbindable) (context : Value) :
    c.render context = Value.str <$> t.interpret context := by
  have hcode := code_bindable hc fun path hpath => hbinds ⟨path, hpath⟩
  obtain ⟨u, hu, hrender⟩ := render_eq_interpret hc ⟨_, hcode⟩ hname
  obtain rfl : u = t := Template.eq_of_ofParts? (Template.ofParts?_eq_some_iff.2 hu.symm)
  exact hrender context

theorem conditional_spelled {path : String} {inverted emptiness : Bool}
    (hpath : Path.WellSpelled path) :
    (Head.conditional path inverted emptiness).part.Spelled name :=
  (Part.spelled_iff fun _ _ => Part.noConfusion).2 (List.forall_mem_singleton.2 hpath)

theorem writable_inverted {path : String} (hpath : Path.check path = .ok ()) :
    Writable ("!" ++ path).toList ∧ ∀ c ∈ ("!" ++ path).toList, isBlank c = false := by
  have hlist : ("!" ++ path).toList = '!' :: ([] ++ path.toList) := String.toList_append ..
  rw [hlist]
  exact ⟨.of_inverted hpath fun _ h => absurd h List.not_mem_nil,
    List.forall_mem_cons.2 ⟨rfl, (Path.check_eq_ok_iff.1 hpath).isPlain.not_blank⟩⟩

/-- The default binding is no name of a context, since it starts like a loop variable. -/
theorem defaultLoop_spelled {path : String} (hcheck : Generator.checkContextName name = .ok ())
    (hpath : Path.WellSpelled path) :
    (Head.loop path Part.defaultBinding).part.Spelled name where
  paths := List.forall_mem_singleton.2 hpath
  binding := by
    intro _ binding he
    obtain ⟨-, rfl⟩ := Part.loop.inj he
    have hsegment : Path.isName Part.defaultBinding.toList = true := rfl
    obtain ⟨hsegment, hstart⟩ := Binding.isName_iff.1 hsegment
    refine ⟨hsegment, hstart, ?_⟩
    rintro rfl
    obtain ⟨-, hvariable, -⟩ := Generator.checkContextName_ok hcheck
    exact hvariable rfl

section Sources

variable (hconfig : config.resolver = Resolver.builtin)
  (hcheck : Generator.checkContextName config.contextName = .ok ())
  (hname : ∀ helper : Helper, helper ≠ .markSafe → normalName config.contextName ≠ helper.name)
  {a b : String} (ha : first.StandsAs config.contextName a)
  (hb : second.StandsAs config.contextName b)

include hconfig hcheck hname ha hb

/-- A block with two bodies that is written with tags is compiled, and renders what it means. -/
theorem exists_choiceSource {kind value : String} (head : Head) (hkind : kind ∈ ["loop", "if"])
    (hvalue : Writable value.toList) (hblank : ∀ c ∈ value.toList, isBlank c = false)
    (hresolve : Resolver.builtin.resolve (iterTag kind value).tag = .ok (some [head.part]))
    (hspelled : head.part.Spelled config.contextName)
    (hbinding : ¬ head.Binds Binding.unbindable) :
    ∃ c, ofSource config (choiceSource kind value a b) = .ok c ∧ ∀ context,
      c.render context = Value.str <$>
        (Template.choice head first second .done).interpret context := by
  obtain ⟨ps, hps, hfirst⟩ := ha.written
  obtain ⟨qs, hqs, hsecond⟩ := hb.written
  have hraw : head.part.isRaw = false := by cases head <;> rfl
  have htemplate := templateOf_choiceSource hconfig hkind hvalue hblank hresolve hraw hps hqs
  obtain ⟨c, hc⟩ := exists_choice_iff.2 ⟨hcheck, hspelled, ha.stands, hb.stands⟩
  rw [hfirst, hsecond] at htemplate
  refine ⟨c, ofSource_of_parts htemplate hc, render_of_parts hc hname ?_⟩
  -- A loop in the block is the block itself, or one in a body.
  rw [Template.binds_choice]
  rintro (h | h | h | ⟨path, h⟩)
  · exact hbinding h
  · exact ha.runnable h
  · exact hb.runnable h
  · cases h

variable {path : String} (hpath : Path.check path = .ok ())

include hpath

/-- A conditional that asks for elements, as it is or inverted. -/
theorem exists_test (inverted : Bool) : ∃ c,
    ofSource config (choiceSource "if" (if inverted then "!" ++ path else path) a b) = .ok c ∧
      ∀ context, c.render context =
        Value.str <$> (conditional path inverted true first second).interpret context := by
  have hwell := Path.check_eq_ok_iff.1 hpath
  have hwritable := Writable.of_path hpath
  have hbinds : ¬ (Head.conditional path inverted true).Binds Binding.unbindable := by
    rintro ⟨q, hq⟩
    cases hq
  cases inverted with
  | false =>
    have hhead : path.toList.head? ≠ some '!' := fun h =>
      hwell.isPlain.not_mem rfl (by decide) (List.mem_of_mem_head? h)
    exact exists_choiceSource hconfig hcheck hname ha hb _ (by decide) hwritable
      hwell.isPlain.not_blank (resolve_testTag hwritable hhead) (conditional_spelled hwell) hbinds
  | true =>
    obtain ⟨hwritable', hblank⟩ := writable_inverted hpath
    exact exists_choiceSource hconfig hcheck hname ha hb _ (by decide) hwritable' hblank
      (resolve_invertedTag hwritable hwritable') (conditional_spelled hwell) hbinds

/-- A loop that gives its elements no name. -/
theorem exists_loop : ∃ c, ofSource config (choiceSource "loop" path a b) = .ok c ∧
    ∀ context, c.render context = Value.str <$>
      (choice (.loop path Part.defaultBinding) first second .done).interpret context := by
  have hwell := Path.check_eq_ok_iff.1 hpath
  have hwritable := Writable.of_path hpath
  have hbinds : ¬ (Head.loop path Part.defaultBinding).Binds Binding.unbindable := by
    rintro ⟨q, hq⟩
    exact absurd (Part.loop.inj hq).2 (by decide)
  exact exists_choiceSource hconfig hcheck hname ha hb _ (by decide) hwritable
    hwell.isPlain.not_blank (resolve_loopTag hwritable) (defaultLoop_spelled hcheck hwell) hbinds

end Sources

/-! ## Emptiness -/

/-- A test for elements says whether a loop over the value calls for each of them or for none, on
every value that may be gone through more than once, each time to its end, and reports no other
length than the number of its elements.  It only stops if the length cannot be had: where a range
has too many elements, or an object refuses or reports a length below zero or too large.

So a conditional that asks for elements runs its second body exactly if a loop over the same path
runs its own, and an inverted one exactly if the loop does not; where the test stops, both
conditionals do, and the loop still goes by the elements. -/
theorem emptiness_agrees {v : Value} (hv : ∀ id items, v ≠ .iterator id items)
    (hlength : v.Faithful) :
    (v.Measured →
      (Render.isNonempty v = pure true ↔ Render.CallsEach v) ∧
      (Render.isNonempty v = pure false ↔ Render.CallsEmpty v)) ∧
    (∀ fault, v.isIterable = true → v.size? = some (.error fault) →
      Render.isNonempty v = throw fault) ∧
    (∀ fault, v.size? = some (.error fault) ↔
      (∃ start stop step, v = .range start stop step ∧
        Value.lengthBound ≤ Value.rangeLength start stop step ∧ fault = .rangeTooLong) ∨
      ∃ traits attributes items?, v = .object traits attributes items? ∧
        ((traits.refuses .length = true ∧ fault = .conversion) ∨
          (traits.refuses .length = false ∧ ∃ n, traits.length? = some n ∧
            (n < 0 ∧ fault = .negativeLength ∨
              (Value.lengthBound : Int) ≤ n ∧ fault = .lengthTooLarge)))) ∧
    ∀ (config : Config) (path a b c d : String) (A B C D : Template),
      config.resolver = Resolver.builtin →
      Generator.checkContextName config.contextName = .ok () →
      (∀ helper : Helper, helper ≠ .markSafe → normalName config.contextName ≠ helper.name) →
      Path.check path = .ok () →
      A.StandsAs config.contextName a → B.StandsAs config.contextName b →
      C.StandsAs config.contextName c → D.StandsAs config.contextName d →
      ∃ plain inverted looped,
        ofSource config (choiceSource "if" path a b) = .ok plain ∧
        ofSource config (choiceSource "if" ("!" ++ path) a b) = .ok inverted ∧
        ofSource config (choiceSource "loop" path c d) = .ok looped ∧
        ∀ context : Value, context.lookup (Path.segments path) = .ok v →
          (looped.render context = Value.str <$>
            if v.elements = [] then D.interpret context
            else C.overElements Part.defaultBinding context v.elements) ∧
          (v.Measured →
            (plain.render context = Value.str <$>
              if v.elements = [] then B.interpret context else A.interpret context) ∧
            (inverted.render context = Value.str <$>
              if v.elements = [] then A.interpret context else B.interpret context)) ∧
          ∀ fault, v.isIterable = true → v.size? = some (.error fault) →
            plain.render context = .error fault ∧ inverted.render context = .error fault := by
  refine ⟨Render.isNonempty_iff hv hlength,
    fun _ hiterable hsize => Render.isNonempty_of_error hv hiterable hsize,
    fun fault => Value.size?_eq_error_iff, ?blocks⟩
  case blocks =>
    intro config path a b c d A B C D hconfig hcheck hname hpath hA hB hC hD
    obtain ⟨plain, hplain, hplainRender⟩ := exists_test hconfig hcheck hname hA hB hpath false
    obtain ⟨inverted, hinverted, hinvertedRender⟩ :=
      exists_test hconfig hcheck hname hA hB hpath true
    obtain ⟨looped, hlooped, hloopedRender⟩ := exists_loop hconfig hcheck hname hC hD hpath
    refine ⟨plain, inverted, looped, hplain, hinverted, hlooped, ?_⟩
    intro context hread
    refine ⟨?looped, fun hmeasured => ⟨?plain, ?inverted⟩,
      fun fault hiterable hsize => ⟨?plainFault, ?invertedFault⟩⟩
    case looped => rw [hloopedRender, interpret_loop hread hv hlength.ends]
    case plain =>
      rw [hplainRender, interpret_conditional hread hv hlength hmeasured]
      cases v.elements <;> rfl
    case inverted =>
      rw [hinvertedRender, interpret_conditional hread hv hlength hmeasured]
      cases v.elements <;> rfl
    case plainFault =>
      rw [hplainRender, interpret_conditional_of_error hread hv hiterable hsize]
      rfl
    case invertedFault =>
      rw [hinvertedRender, interpret_conditional_of_error hread hv hiterable hsize]
      rfl

/-- On an empty list the second bodies of a conditional and of a loop run, and the first one of an
inverted conditional. -/
theorem emptiness_agrees_empty : ∃ plain inverted looped,
    ofSource {} "<hc:if iter=p>A<hc:else/>B</hc:if>" = .ok plain ∧
    ofSource {} "<hc:if iter=!p>A<hc:else/>B</hc:if>" = .ok inverted ∧
    ofSource {} "<hc:loop iter=p>C<hc:else/>D</hc:loop>" = .ok looped ∧
    plain.render (.dict [(.str "p", .list [])]) = .ok (.str "B") ∧
    inverted.render (.dict [(.str "p", .list [])]) = .ok (.str "A") ∧
    looped.render (.dict [(.str "p", .list [])]) = .ok (.str "D") := by
  have hname : ∀ helper : Helper, helper ≠ .markSafe →
      normalName (Config.contextName {}) ≠ helper.name := by
    intro helper _
    have hascii : normalName (Config.contextName {}) = "context" := normalName_ascii (by decide)
    rw [hascii]
    cases helper <;> decide
  have hliteral : ∀ text ∈ ["A", "B", "C", "D"],
      (Template.insert (.raw text) .done).StandsAs "context" text := by
    intro text htext
    have hplain : ∀ text ∈ ["A", "B", "C", "D"],
        text ≠ "" ∧ '<' ∉ text.toList ∧ '{' ∉ text.toList := by decide
    obtain ⟨hne, htags, hmarkers⟩ := hplain text htext
    exact standsAs_literal hne htags hmarkers "context"
  have hv : ∀ id items, Value.list [] ≠ .iterator id items := fun _ _ => Value.noConfusion
  have hlength : (Value.list []).Faithful :=
    Value.faithful_of_not_object (fun _ _ _ => Value.noConfusion) hv
  obtain ⟨-, -, -, hblocks⟩ := emptiness_agrees hv hlength
  obtain ⟨plain, inverted, looped, hplain, hinverted, hlooped, hrender⟩ := hblocks {} "p" "A" "B"
    "C" "D" _ _ _ _ rfl rfl hname rfl (hliteral "A" (by decide)) (hliteral "B" (by decide))
    (hliteral "C" (by decide)) (hliteral "D" (by decide))
  obtain ⟨hlooped', hmeasured, -⟩ := hrender (.dict [(.str "p", .list [])]) rfl
  obtain ⟨hplain', hinverted'⟩ := hmeasured fun _ fault h => by cases h
  exact ⟨plain, inverted, looped, hplain, hinverted, hlooped, hplain', hinverted', hlooped'⟩

/-- A range may have more elements than any length that can be had, and then a test for elements
stops, while a loop calls for each of them. -/
theorem not_isNonempty_range :
    (Value.range 0 9223372036854775808 1).Faithful ∧
    Render.CallsEach (.range 0 9223372036854775808 1) ∧
    Render.isNonempty (.range 0 9223372036854775808 1) ≠ pure true ∧
    Render.isNonempty (.range 0 9223372036854775808 1) = throw .rangeTooLong := by
  have hv : ∀ id items, Value.range 0 9223372036854775808 1 ≠ .iterator id items :=
    fun _ _ => Value.noConfusion
  have hlength : Value.rangeLength 0 9223372036854775808 1 = 9223372036854775808 := by decide
  have hsize : (Value.range 0 9223372036854775808 1).size? = some (.error .rangeTooLong) :=
    Value.size?_eq_error_iff.2 (Or.inl ⟨_, _, _, rfl, hlength.ge, rfl⟩)
  have hthrow := Render.isNonempty_of_error hv rfl hsize
  have hfaithful := Value.faithful_of_not_object (fun _ _ _ => Value.noConfusion) hv
  refine ⟨hfaithful, ?_, ?_, hthrow⟩
  · refine Render.callsEach_of_elements hv rfl fun hnone => ?_
    have hcount := Value.length_rangeFrom 0 1 (Value.rangeLength 0 9223372036854775808 1)
    have helements : (Value.range 0 9223372036854775808 1).elements =
        Value.rangeFrom 0 1 (Value.rangeLength 0 9223372036854775808 1) := rfl
    rw [← helements, hnone, hlength] at hcount
    exact absurd hcount (by decide)
  · rw [hthrow]
    intro h
    cases congrArg (fun x => StateT.run x []) h

end Compiled
end HtmlTemplate
