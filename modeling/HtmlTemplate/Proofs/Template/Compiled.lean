import HtmlTemplate.Compile
import HtmlTemplate.Proofs.Except
import HtmlTemplate.Proofs.Template.Correctness

/-!
# Compiled — what comes of compiling parts

Parts are compiled by folding them with a name for the context that passes its check
(`Compiled.ofParts_ok`, `Compiled.ofParts_of_fold`).  The text that comes out is read as the code
of the parts' template (`Compiled.exists_template`), so that rendering runs this code as soon as
its parameters can be bound (`Compiled.exists_code`).
-/

namespace HtmlTemplate

open Text

namespace Compiled

variable {name : String} {ps : List Part} {c : Compiled}

/-- What is compiled is what the fold of the parts has left. -/
theorem ofParts_ok (h : ofParts name ps = .ok c) :
    Generator.checkContextName name = .ok () ∧ c.contextName = name ∧ ∃ k,
      (Generator.mk name .empty #[] none).fold ps = (.ok (), k) ∧ k.expression = .ok c.expression ∧
        c.typeText = k.scope.typeText ∧ c.anyRequired = k.scope.anyRequired := by
  obtain ⟨g, hg, h⟩ := Except.bind_eq_ok.1 h
  obtain ⟨rfl, hn⟩ := Generator.ofContextName_ok hg
  split at h
  · cases h
  · rename_i k hfold
    obtain ⟨text, hk, h⟩ := Except.bind_eq_ok.1 h
    cases h
    exact ⟨hn, rfl, k, hfold, hk, rfl, rfl⟩

/-- Parts that can be folded are compiled. -/
theorem ofParts_of_fold {k : Generator} {text : String}
    (hn : Generator.checkContextName name = .ok ())
    (hfold : (Generator.mk name .empty #[] none).fold ps = (.ok (), k))
    (htext : k.expression = .ok text) :
    ofParts name ps = .ok ⟨text, k.scope.typeText, k.scope.anyRequired, name⟩ := by
  have hg : Generator.ofContextName name = .ok ⟨name, .empty, #[], none⟩ := by
    unfold Generator.ofContextName
    rw [hn]
    rfl
  unfold ofParts
  rw [hg]
  simp only [bind, Except.bind, hfold, htext]
  rfl

/-- What is compiled is the text of the code of the parts' template. -/
theorem exists_template (h : ofParts name ps = .ok c) : ∃ t, Template.ofParts? ps = some t ∧
    t.Sound ∧ Expr.ofText c.expression = .ok (Expr.joined (t.code (normalName name) [])) := by
  obtain ⟨hn, -, k, hfold, htext, -⟩ := ofParts_ok h
  obtain ⟨t, ht, hsound, hcode⟩ := Generate.fold_ok hfold
  have hexpression := Except.ok.inj (htext.symm.trans hcode)
  refine ⟨t, ht, hsound, ?_⟩
  rw [hexpression]
  exact Template.ofText_code (Generator.checkContextName_ok hn).1 hsound

/-- What is read is the code of the parts' template, if its parameters can be bound. -/
theorem code_parts {t : Template} (h : ofParts name t.parts = .ok c) :
    c.code = (Expr.joined (t.code (normalName name) [])).bindable := by
  obtain ⟨u, hu, -, hread⟩ := exists_template h
  obtain rfl : t = u := Template.eq_of_ofParts? hu
  unfold code Expr.read
  rw [hread]
  rfl

/-- Rendering runs the code of the parts' template. -/
theorem exists_code (h : ofParts name ps = .ok c) : ∃ t, Template.ofParts? ps = some t ∧ t.Sound ∧
    Generator.checkContextName name = .ok () ∧ ∀ context, c.render context =
      ((Expr.joined (t.code (normalName name) [])).bindable >>= fun e => e.render name context) := by
  obtain ⟨hn, rfl, -⟩ := ofParts_ok h
  obtain ⟨t, ht, hsound, -⟩ := exists_template h
  obtain rfl : t.parts = ps := Template.ofParts?_eq_some_iff.1 ht
  refine ⟨t, ht, hsound, hn, fun context => ?_⟩
  unfold render
  rw [code_parts h]

/-! ## Sources -/

theorem ofSource_ok {config : Config} {source : String}
    (h : ofSource config source = .ok c) :
    ∃ ps, templateOf config source = .ok ps ∧ ofParts config.contextName ps = .ok c := by
  exact Except.bind_eq_ok.1 h

theorem ofSource_of_parts {config : Config} {source : String}
    (hps : templateOf config source = .ok ps) (hc : ofParts config.contextName ps = .ok c) :
    ofSource config source = .ok c := by
  unfold ofSource
  rw [hps]
  exact hc

end Compiled
end HtmlTemplate
