import HtmlTemplate.Bundle.Loading
import HtmlTemplate.Proofs.Bundle.Enclosed
import HtmlTemplate.Proofs.Template.Runnable

/-!
# Loading — when a module that was built can be loaded

Lines that stand outside the import and the functions come from a folder's path with line breaks
alone.  A module that is cut into its import and its functions has none, so that loading it carries
nothing out but definitions (`Bundle.load_eq_of_regions`).  It can be loaded exactly if each of its
functions can be run (`Bundle.load_iff`).
-/

namespace HtmlTemplate

open Text

/-- What is compiled can be run, unless it binds the reserved name. -/
theorem Compiled.code_cases {name : String} {ps : List Part} {c : Compiled}
    (hc : Compiled.ofParts name ps = .ok c) :
    (∃ e, c.code = .ok e) ∨ c.code = .error (.reservedParameter Expr.reservedName) := by
  obtain ⟨t, ht, -⟩ := exists_template hc
  obtain rfl : t.parts = ps := Template.ofParts?_eq_some_iff.1 ht
  -- A loop with the binding whose variable is reserved is the only reason against it.
  by_cases h : ∃ path, Part.loop path Binding.unbindable ∈ t.parts
  · obtain ⟨path, hpath⟩ := h
    exact Or.inr (code_unbindable hc hpath)
  · exact Or.inl ⟨_, code_bindable hc fun path hpath => h ⟨path, hpath⟩⟩

namespace Bundle

variable {b : Bundle}

/-- Functions are refused exactly if one of them cannot be run. -/
theorem checkFunctions_iff {functions : List TemplateFunction} (line : Nat)
    (h : ∀ f ∈ functions, (∃ e, f.compiled.code = .ok e) ∨
      f.compiled.code = .error (.reservedParameter Expr.reservedName)) :
    checkFunctions line functions = .ok () ↔ ∀ f ∈ functions, ∃ e, f.compiled.code = .ok e := by
  induction functions generalizing line with
  | nil => exact iff_of_true rfl (List.forall_mem_nil _)
  | cons f functions ih =>
    obtain ⟨hf, hfunctions⟩ := List.forall_mem_cons.1 h
    rw [checkFunctions, List.forall_mem_cons]
    rcases hf with ⟨e, he⟩ | hreserved
    · simp only [he, ih _ hfunctions, Except.ok.injEq, exists_eq', true_and]
    · simp [hreserved]

/-- A module that is cut into its import and its functions has no other lines. -/
theorem strayLines_of_regions (hclean : ∀ f ∈ b.functions, f.Clean)
    (hread : Region.all (unifyLineEnds b.text.toList) = b.regions) : b.strayLines = .ok [] := by
  have hbreak : '\n' ∉ unifyLineEnds b.folder.toList :=
    mt mem_unifyLineEnds_iff.1 (not_or.2 ((all_text_iff hclean).1 hread))
  have hcount : lineBreaks b.folder = 0 := List.count_eq_zero.2 hbreak
  rw [strayLines, hcount]
  rfl

/-- Nothing of such a module is carried out. -/
theorem load_eq_of_regions (hclean : ∀ f ∈ b.functions, f.Clean)
    (hread : Region.all (unifyLineEnds b.text.toList) = b.regions) :
    b.load = checkFunctions (lineBreaks (header b.folder)) b.functions := by
  rw [load, strayLines_of_regions hclean hread]
  -- Whatever the functions say, there are no statements to check or to run.
  cases checkFunctions (lineBreaks (header b.folder)) b.functions <;> rfl

/-- A module that was built and is cut into its import and its functions can be loaded exactly if
each of its functions can be run. -/
theorem load_iff {path contextName : String} {found : Except OpenFault Folder}
    (h : (build path found contextName).result = .ok b)
    (hread : Region.all (unifyLineEnds b.text.toList) = b.regions) :
    b.load = .ok () ↔ ∀ f ∈ b.functions, ∃ e, f.compiled.code = .ok e := by
  have hmade := makes_of_build h
  have hclean : ∀ f ∈ b.functions, f.Clean := fun f hf => by
    obtain ⟨file, hmakes⟩ := hmade f hf
    exact TemplateFunction.clean_of_makes hmakes
  rw [load_eq_of_regions hclean hread]
  refine checkFunctions_iff _ fun f hf => ?_
  obtain ⟨file, hmakes⟩ := hmade f hf
  obtain ⟨ps, hparts⟩ := hmakes.exists_parts
  exact Compiled.code_cases hparts

end Bundle
end HtmlTemplate
