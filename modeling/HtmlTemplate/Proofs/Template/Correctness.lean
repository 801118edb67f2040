import HtmlTemplate.Proofs.Template.Evaluation
import HtmlTemplate.Proofs.Template.Folding
import HtmlTemplate.Proofs.Template.Reading
import HtmlTemplate.Proofs.Text.Wide

/-!
# Correctness — the expression of a template renders what the template means

The expression that parts are folded into, read and evaluated with the context at its name, has the
same outcome as the template of the parts: the same text or the same fault.  This holds for exactly
those context names whose normal spelling is not the name of a helper that the code calls
(`Generator.renders_meaning_iff`).  The check of a context's name compares it as it is spelled, and
so lets every helper's name through in another spelling (`Generator.checkContextName_widen`).
-/

namespace HtmlTemplate

open Text

section Rendering

variable {excused : Prop} {name : String} {context : Value}

/-- The code of a template, run with the context at its name, does what the template means. -/
theorem Template.agrees_run (hn : Generator.checkContextName name = .ok ())
    (hh : ∀ h : Helper, h ≠ .markSafe → Reachable excused name context h) {t : Template}
    (hsound : t.Sound) :
    Render.Agrees excused ((Expr.joined (t.code (normalName name) [])).run name context)
      (Value.str <$> Piece.output <$> t.trace context []) :=
  agrees_body (t.renders_code hn hh hsound [])

/-- Nothing is excused if the context's name hides no helper. -/
theorem Template.render_code (hn : Generator.checkContextName name = .ok ())
    (hh : ∀ h : Helper, h ≠ .markSafe → normalName name ≠ h.name) {t : Template}
    (hsound : t.Sound) :
    (Expr.joined (t.code (normalName name) [])).render name context =
      Value.str <$> t.interpret context := by
  have hagrees : Render.Agrees False ((Expr.joined (t.code (normalName name) [])).run name context)
      (Value.str <$> Piece.output <$> t.trace context []) :=
    Template.agrees_run hn (fun h hm => Or.inl (hh h hm)) hsound
  have hrun := hagrees.eq
  unfold Expr.render Template.interpret Template.pieces
  rw [hrun, StateT.run_map, StateT.run_map]
  simp

end Rendering

/-! ## Helpers that are hidden -/

/-- A loop is opened if its path can be read, its binding can be used and the scope takes it. -/
theorem Generate.Yields.loop {path binding parameter : String} {code : List Token}
    {g h k : Generator} (hread : Yields (reference path false) g code h)
    (hcheck : Binding.check h.contextName binding = .ok parameter)
    (hnest : Yields (nestIterable path binding) h () k) :
    Yields (Generate.loop path binding) g ()
      { k with output := k.output ++ blockOpen .loop code (some parameter) } := by
  refine hread.bind ?_
  have hget : Yields get h h h := rfl
  refine hget.bind ?_
  rw [hcheck]
  exact hnest.bind rfl

/-- A small template whose code calls a helper. -/
def Helper.probe : Helper → Template
  | renderBody => .insert (.body "a") .done
  | ifDefined => .insert (.comment "a") .done
  | ifCheck => .insert (.flag "a" "a") .done
  | loop => .block (.loop "a" "b") .done .done
  | isNonempty => .block (.conditional "a" false true) .done .done
  | lookup => .insert (.body "a") .done
  | markSafe => .done

theorem Helper.interpret_probe (h : Helper) : h.probe.interpret .none = .ok "" := by
  cases h <;> rfl

/-- A missing context cannot be called. -/
theorem Helper.render_probe {h : Helper} (hm : h ≠ .markSafe) {name : String}
    (he : normalName name = h.name) :
    (Expr.joined (h.probe.code (normalName name) [])).render name .none =
      .error (.notCallable "NoneType") := by
  unfold Expr.render Expr.run
  rw [he]
  cases h with
  | markSafe => exact absurd rfl hm
  | _ => rfl

theorem Helper.accepts_probe {h : Helper} {name : String} (he : normalName name = h.name) :
    ∃ g, (Generator.mk name .empty #[] none).fold h.probe.parts = (.ok (), g) := by
  cases h with
  | loop =>
    -- Folding compares the binding with the context's name, so that it cannot just be evaluated.
    have hne : "b" ≠ name := by
      rintro rfl
      rw [normalName_ascii (by decide)] at he
      exact absurd he (by decide)
    have hcheck : Binding.check name "b" = .ok "_b" := by
      unfold Binding.check
      rw [if_neg (by decide), if_neg (by decide), if_neg hne, if_neg (by decide)]
      rfl
    have hloop : Generate.Yields (Generate.loop "a" "b")
        ⟨name, .empty, Generate.bodyOpen.toArray, none⟩ () _ :=
      Generate.Yields.loop rfl hcheck rfl
    have hparts : Generate.Yields (Generate.parts [.loop "a" "b", .close])
        ⟨name, .empty, Generate.bodyOpen.toArray, none⟩ () _ :=
      hloop.bind rfl
    exact ⟨_, Generate.Yields.bind rfl (hparts.bind rfl)⟩
  | _ => exact ⟨_, rfl⟩

/-! ## Correctness -/

/-- Accepted parts have a template, and their expression is read as its code. -/
theorem Generator.exists_code {name : String} {g h : Generator} {ps : List Part}
    (hg : ofContextName name = .ok g) (hfold : g.fold ps = (.ok (), h)) :
    ∃ t text, Template.ofParts? ps = some t ∧ t.Sound ∧ h.expression = .ok text ∧
      Expr.ofText text = .ok (Expr.joined (t.code (normalName name) [])) := by
  obtain ⟨rfl, hn⟩ := ofContextName_ok hg
  obtain ⟨t, ht, hsound, htext⟩ := Generate.fold_ok hfold
  exact ⟨t, _, ht, hsound, htext, Template.ofText_code (checkContextName_ok hn).1 hsound⟩

/-- The expression of a template's parts runs as its code. -/
theorem Generator.run_parts {name : String} {g h : Generator} {t : Template}
    (hg : ofContextName name = .ok g) (hfold : g.fold t.parts = (.ok (), h)) :
    ∃ text, h.expression = .ok text ∧
      ∀ context, (Expr.ofText text >>= fun e => e.render name context) =
        (Expr.joined (t.code (normalName name) [])).render name context := by
  obtain ⟨u, text, hu, -, htext, hread⟩ := exists_code hg hfold
  obtain rfl : t = u := Template.eq_of_ofParts? hu
  refine ⟨text, htext, fun context => ?_⟩
  rw [hread]
  rfl

/-- What every accepted template renders is what it means, exactly if the context's name hides no
helper that code calls. -/
theorem Generator.renders_meaning_iff {name : String} {g : Generator}
    (hg : ofContextName name = .ok g) :
    (∀ ps h, g.fold ps = (.ok (), h) → ∃ t text, Template.ofParts? ps = some t ∧
      h.expression = .ok text ∧ ∀ context,
        (Expr.ofText text >>= fun e => e.render name context) =
          Value.str <$> t.interpret context) ↔
      ∀ helper : Helper, helper ≠ .markSafe → normalName name ≠ helper.name := by
  constructor
  · intro hrenders helper hm he
    obtain ⟨rfl, -⟩ := ofContextName_ok hg
    obtain ⟨h, hfold⟩ := helper.accepts_probe he
    obtain ⟨t, text, ht, htext, hmeans⟩ := hrenders _ h hfold
    obtain ⟨code, hcode, hrun⟩ := run_parts hg hfold
    obtain rfl : text = code := Except.ok.inj (htext.symm.trans hcode)
    obtain rfl : helper.probe = t := Template.eq_of_ofParts? ht
    -- The probe means nothing for a missing context, but the context is called for the helper.
    have hnone := (hrun .none).symm.trans (hmeans .none)
    rw [Helper.render_probe hm he, helper.interpret_probe] at hnone
    cases hnone
  · intro hh ps h hfold
    obtain ⟨t, text, ht, hsound, htext, hread⟩ := exists_code hg hfold
    refine ⟨t, text, ht, htext, fun context => ?_⟩
    rw [hread]
    exact Template.render_code (ofContextName_ok hg).2 hh hsound

/-- A loop with two bodies, and a context with an element for it. -/
theorem Generator.renders_meaning_loop : ∃ g h text, ofContextName "context" = .ok g ∧
    g.fold [.loop "xs" "x", .body "x", .otherwise, .raw "-", .close] = (.ok (), h) ∧
    h.expression = .ok text ∧
    (Expr.ofText text >>= fun e =>
      e.render "context" (.dict [(.str "xs", .list [.str "<", .markup "<br>"])])) =
        .ok (.str "&lt;<br>") := by
  have hg : ofContextName "context" = .ok ⟨"context", .empty, #[], none⟩ := rfl
  have hnames : ∀ helper : Helper, helper ≠ .markSafe → normalName "context" ≠ helper.name := by
    intro helper _
    rw [normalName_ascii (by decide)]
    cases helper <;> decide
  obtain ⟨t, text, ht, htext, hmeans⟩ := (renders_meaning_iff hg).2 hnames
    [.loop "xs" "x", .body "x", .otherwise, .raw "-", .close] _ rfl
  obtain rfl : .choice (.loop "xs" "x") (.insert (.body "x") .done) (.insert (.raw "-") .done)
      .done = t := Template.eq_of_ofParts? ht
  exact ⟨_, _, text, hg, rfl, htext, (hmeans _).trans rfl⟩

/-- The check of a context's name refuses a helper's name, but not in full width. -/
theorem Generator.checkContextName_widen (helper : Helper) :
    checkContextName (widen helper.name) = .ok () ∧
      normalName (widen helper.name) = helper.name := by
  have hwide : isIdentifier (widen helper.name) = true :=
    isIdentifier_widen (by cases helper <;> decide)
  have hascii : helper.name.toList.all (·.toNat < 0x80) = true := by cases helper <;> decide
  refine ⟨?_, normalName_widen fun c hc => of_decide_eq_true (List.all_eq_true.1 hascii c hc)⟩
  unfold checkContextName
  rw [hwide, if_neg (by cases helper <;> decide), if_neg (by cases helper <;> decide)]

/-- A context of such a name takes the helper's place, and calling it fails. -/
theorem Generator.hides_lookup : ∃ g h text, ofContextName "ｌｏｏｋｕｐ" = .ok g ∧
    g.fold [.body "a"] = (.ok (), h) ∧ h.expression = .ok text ∧
    (Expr.ofText text >>= fun e =>
      e.render "ｌｏｏｋｕｐ" (.dict [(.str "a", .str "b")])) = .error (.notCallable "dict") ∧
    Helper.lookup.probe.interpret (.dict [(.str "a", .str "b")]) = .ok "b" := by
  have hspelled : "ｌｏｏｋｕｐ" = widen Helper.lookup.name := by decide
  rw [hspelled]
  obtain ⟨hcheck, hname⟩ := checkContextName_widen .lookup
  have hg : ofContextName (widen Helper.lookup.name) =
      .ok ⟨widen Helper.lookup.name, .empty, #[], none⟩ := by
    unfold ofContextName
    rw [hcheck]
    rfl
  have hrun : (Expr.joined (Helper.lookup.probe.code (normalName (widen Helper.lookup.name))
      [])).render (widen Helper.lookup.name) (.dict [(.str "a", .str "b")]) =
        .error (.notCallable "dict") := by
    unfold Expr.render Expr.run
    rw [hname]
    rfl
  obtain ⟨h, hfold⟩ := Helper.accepts_probe hname
  obtain ⟨text, htext, hcode⟩ := run_parts hg hfold
  exact ⟨_, h, text, hg, hfold, htext, (hcode _).trans hrun, rfl⟩

end HtmlTemplate
