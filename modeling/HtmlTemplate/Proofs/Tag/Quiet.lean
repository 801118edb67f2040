import HtmlTemplate.Proofs.Scan.Joining
import HtmlTemplate.Proofs.Tag.Outcome

/-!
# Quiet — directive tags and literal text

What a directive tag gives are parts, and no literal text is among them
(`Resolver.IsBuiltin.silent`).
-/

namespace HtmlTemplate

/-- A reader whose directive tags give no literal text. -/
def TagReader.Silent (reader : TagReader) : Prop :=
  ∀ tag ps, reader tag = .ok (some ps) → Part.Quiet ps

namespace Part

theorem isRaw_of_isLone {part : Part} (h : part.isLone = true) : part.isRaw = false := by
  cases part <;> first | rfl | cases h

theorem Lone.quiet {ps : List Part} (h : Lone ps) : Quiet ps :=
  ⟨h.1, fun part hmem => isRaw_of_isLone (h.2 part hmem)⟩

end Part

/-- The built-in directive tags give no literal text. -/
theorem Resolver.IsBuiltin.silent {resolver : Resolver} (h : resolver.IsBuiltin) :
    TagReader.Silent resolver.resolve := by
  intro tag ps hresolve
  have hlone : Part.Lone ps := (h.within_resolve tag).of_ok hresolve ps rfl
  exact hlone.quiet

end HtmlTemplate
