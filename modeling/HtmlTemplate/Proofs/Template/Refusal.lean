import HtmlTemplate.Proofs.Scan.Regular
import HtmlTemplate.Proofs.Template.Compiled

/-!
# Refusal — why a source is not compiled

The parts of a scan are regular, so that the generator refuses them for a misspelled path or
binding or for blocks that do not match up, and for nothing else (`Generator.within_fold`).  As a
scan stops for declared reasons too, a source is compiled or refused for one of these
(`Compiled.compiled_or_declared`).
-/

namespace HtmlTemplate

/-- Folding parts that have code may be refused for their spelling or their structure. -/
theorem Generator.within_fold (g : Generator) {ps : List Part} (hps : ∀ p ∈ ps, p.BuiltIn) :
    (g.fold ps).1.Within (fun _ => True) Error.Declared := by
  by_cases hadmitted : Part.AdmittedIn g.started.contextName g.started.blocks ps
  · obtain ⟨h, hrun, -⟩ := Generate.parts_admitted hps hadmitted
    obtain ⟨hsettled, hleft⟩ := fold_of_ok hrun
    by_cases hblocks : h.blocks = []
    · rw [hsettled hblocks]
      trivial
    · obtain ⟨fault, hfault⟩ := hleft hblocks
      rw [hfault]
      exact .structural fault none
  · obtain ⟨_, _, _, -, -, hrefused⟩ := Generate.parts_refused hps hadmitted
    rcases hrefused with ⟨-, fault, h, hrun⟩ | ⟨-, -, fault, h, hrun⟩
    · rw [fold_of_error hrun]
      exact .semantic fault none
    · rw [fold_of_error hrun]
      exact .structural fault none

namespace Compiled

/-- Compiling parts is folding them. -/
theorem within_ofParts {name : String} {ps : List Part}
    (hname : Generator.checkContextName name = .ok ()) (hps : ∀ p ∈ ps, p.BuiltIn) :
    (ofParts name ps).Within (fun _ => True) Error.Declared := by
  let start : Generator := ⟨name, .empty, #[], none⟩
  have hstart : Generator.ofContextName name = .ok start := by
    unfold Generator.ofContextName
    rw [hname]
    rfl
  have hfolded : (start.fold ps).1.Within (fun _ => True) Error.Declared := start.within_fold hps
  cases hfold : start.fold ps with
  | mk result k =>
    rw [hfold] at hfolded
    cases result with
    | error fault =>
      have hrefused : ofParts name ps = .error fault := by
        unfold ofParts
        rw [hstart]
        simp only [bind, Except.bind, hfold]
        rfl
      rw [hrefused]
      exact hfolded
    | ok _ =>
      obtain ⟨_, -, -, htext⟩ := Generate.fold_ok hfold
      rw [ofParts_of_fold hname hfold htext]
      trivial

/-- The template of a source is that of its scan, unless this has met a fault. -/
theorem templateOf_eq (config : Config) (source : String) :
    templateOf config source =
      match (Scan.ofSource config.resolver config.sourceFile source).fault with
      | some fault => .error fault
      | none => .ok (Scan.ofSource config.resolver config.sourceFile source).template :=
  rfl

/-- A source gives regular parts, or a declared fault. -/
theorem within_templateOf {config : Config} (source : String) (hb : config.resolver.IsBuiltin) :
    (templateOf config source).Within
      (Part.Regular (Scan.ofSource config.resolver config.sourceFile source).tags)
      Error.Declared := by
  rw [templateOf_eq]
  cases hfault : (Scan.ofSource config.resolver config.sourceFile source).fault with
  | none => exact Scan.regular_template hb hfault
  | some fault => exact Scan.declared_of_fault hb hfault

/-- A source is compiled or refused for a declared reason.

This is so for every source, the built-in resolvers, and every context name that may be used.  The
parts of a source that can be scanned are regular, so that folding them never meets a part without
code or a composite value without segments: it succeeds, or stops with a declared fault too. -/
theorem compiled_or_declared (config : Config) (source : String)
    (hname : Generator.checkContextName config.contextName = .ok ())
    (hb : config.resolver.IsBuiltin) :
    ((∃ c, ofSource config source = .ok c) ∨
      ∃ fault, ofSource config source = .error fault ∧ fault.Declared) ∧
    ∀ ps, templateOf config source = .ok ps →
      Part.Regular (Scan.ofSource config.resolver config.sourceFile source).tags ps ∧
      ∀ g, Generator.ofContextName config.contextName = .ok g →
        (g.fold ps).1 = .ok () ∨ ∃ fault, (g.fold ps).1 = .error fault ∧ fault.Declared := by
  have htemplate := within_templateOf source hb
  have hsource : (ofSource config source).Within (fun _ => True) Error.Declared :=
    htemplate.bind fun ps hps => within_ofParts hname hps.builtIn
  constructor
  · cases hresult : ofSource config source with
    | ok c => exact Or.inl ⟨c, rfl⟩
    | error fault => exact Or.inr ⟨fault, rfl, hsource.of_error hresult⟩
  · intro ps hps
    have hregular := htemplate.of_ok hps
    refine ⟨hregular, fun g _ => ?_⟩
    have hfolded := g.within_fold hregular.builtIn
    cases hfold : (g.fold ps).1 with
    | ok _ => exact Or.inl rfl
    | error fault => exact Or.inr ⟨fault, rfl, hfolded.of_error hfold⟩

/-- A composite value behind the text of its tag. -/
theorem compiled_or_declared_value :
    Generator.checkContextName "context" = .ok () ∧ (Config.resolver {}).IsBuiltin ∧
      templateOf {} "-<p a b=\"x\x7b\x7by\x7d\x7d\">" =
        .ok [.raw "-<p a b=", .composite ["x", "y", ""], .raw ">"] ∧
      Part.Regular [⟨"p", [("a", .present), ("b", .text "x\x7b\x7by\x7d\x7d")], false, false⟩]
        [.raw "-<p a b=", .composite ["x", "y", ""], .raw ">"] := by
  have hname : Generator.checkContextName "context" = .ok () := rfl
  have hb : (Config.resolver {}).IsBuiltin := rfl
  have hscan : Scan.ofSource (Config.resolver {}) none "-<p a b=\"x\x7b\x7by\x7d\x7d\">" =
      ⟨[.text, .tag],
        [.raw "-", .raw "<p", .raw " a", .raw " b=", .composite ["x", "y", ""], .raw ">"],
        [⟨"p", [("a", .present), ("b", .text "x\x7b\x7by\x7d\x7d")], false, false⟩], none⟩ := by
    with_unfolding_all rfl
  have hparts : templateOf {} "-<p a b=\"x\x7b\x7by\x7d\x7d\">" =
      .ok [.raw "-<p a b=", .composite ["x", "y", ""], .raw ">"] := by
    rw [templateOf_eq, hscan]
    rfl
  have hregular := ((compiled_or_declared {} _ hname hb).2 _ hparts).1
  rw [hscan] at hregular
  exact ⟨hname, hb, hparts, hregular⟩

end Compiled
end HtmlTemplate
