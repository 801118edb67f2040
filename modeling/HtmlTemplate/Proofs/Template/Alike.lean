import HtmlTemplate.Proofs.Scan.Gaps
import HtmlTemplate.Proofs.Template.Generation

/-!
# Alike — what is folded does not depend on what has been written

Output is only ever appended to.  Generators that differ in nothing else accept the same parts and
refuse the others with the same errors, and their scopes stay the same (`Generate.matches_part`).
Literal text is written and nothing more, so that it does not matter to a fold where it is joined or
left out (`Generator.fold_coalesce`).
-/

namespace HtmlTemplate

open Text

/-- Whether two generators differ at most in what they have written. -/
structure Generator.Alike (g h : Generator) : Prop where
  contextName : g.contextName = h.contextName
  scope : g.scope = h.scope

namespace Generate

variable {α β : Type} {m n : Generate α} {f f' : α → Generate β}

/-- Whether two computations have the same result, and generators that are alike stay so. -/
def Matches (m n : Generate α) : Prop :=
  ∀ g h : Generator, g.Alike h → (m.run g).1 = (n.run h).1 ∧ (m.run g).2.Alike (n.run h).2

namespace Matches

/-- It is enough to look at one name and one scope. -/
theorem of_alike (h : ∀ name scope output output' text text',
    (m.run ⟨name, scope, output, text⟩).1 = (n.run ⟨name, scope, output', text'⟩).1 ∧
      (m.run ⟨name, scope, output, text⟩).2.Alike (n.run ⟨name, scope, output', text'⟩).2) :
    Matches m n := by
  rintro ⟨name, scope, output, text⟩ ⟨_, _, output', text'⟩ ⟨rfl, rfl⟩
  exact h name scope output output' text text'

theorem pure (a : α) : Matches (Pure.pure a) (Pure.pure a) := fun _ _ h => ⟨rfl, h⟩

theorem throw (fault : Error) : Matches (throw fault : Generate α) (throw fault) :=
  fun _ _ h => ⟨rfl, h⟩

theorem bind (hmn : Matches m n) (hf : ∀ a, Matches (f a) (f' a)) :
    Matches (m >>= f) (n >>= f') := by
  intro g h hgh
  obtain ⟨hresult, halike⟩ := hmn g h hgh
  rw [run_bind, run_bind]
  generalize m.run g = r, n.run h = s at hresult halike
  obtain ⟨r, k⟩ := r
  obtain ⟨s, l⟩ := s
  obtain rfl : r = s := hresult
  cases r with
  | error fault => exact ⟨rfl, halike⟩
  | ok a => exact hf a k l halike

/-- What is written does not matter. -/
theorem emit (tokens tokens' : List Token) :
    Matches (Generate.emit tokens) (Generate.emit tokens') :=
  fun _ _ h => ⟨rfl, h.contextName, h.scope⟩

theorem emit_left {n : Generate β} (tokens : List Token) {m : Generate β} (h : Matches m n) :
    Matches (do Generate.emit tokens; m) n := fun _ k hgk => h _ k ⟨hgk.contextName, hgk.scope⟩

theorem emit_right {n : Generate β} (tokens : List Token) {m : Generate β} (h : Matches m n) :
    Matches m (do Generate.emit tokens; n) := fun g _ hgk => h g _ ⟨hgk.contextName, hgk.scope⟩

end Matches

/-! ## Steps -/

theorem matches_onScope (step : Scope → Except StructureFault Scope) :
    Matches (onScope step) (onScope step) := by
  refine .of_alike fun name scope output output' text text' => ?_
  unfold onScope
  rw [run_get_bind, run_get_bind]
  cases step scope <;> exact ⟨rfl, rfl, rfl⟩

theorem matches_nestIterable (path binding : String) :
    Matches (nestIterable path binding) (nestIterable path binding) := by
  refine .of_alike fun name scope output output' text text' => ?_
  unfold nestIterable
  rw [run_get_bind, run_get_bind]
  dsimp only
  cases scope.nestIterable path binding with
  | mk result scope => cases result <;> exact ⟨rfl, rfl, rfl⟩

/-- The code of a path is told by the scope. -/
theorem matches_reference (path : String) (required : Bool) :
    Matches (reference path required) (reference path required) := by
  refine .of_alike fun name scope output output' text text' => ?_
  unfold reference
  cases Path.check path <;> exact ⟨rfl, rfl, rfl⟩

theorem matches_path_piece (path : String) (required : Bool) (code : List Token → List Token) :
    Matches (do piece (code (← reference path required)))
      (do piece (code (← reference path required))) :=
  (matches_reference path required).bind fun _ => .emit _ _

theorem matches_composite (segments : List String) : ∀ literal : Bool,
    Matches (composite literal segments) (composite literal segments) := by
  induction segments with
  | nil =>
    intro literal
    cases literal <;> exact .pure ()
  | cons segment rest ih =>
    intro literal
    cases literal with
    | true =>
      rw [composite]
      split
      · exact ih false
      · exact Matches.bind (.emit _ _) fun _ => ih false
    | false =>
      rw [composite]
      exact (matches_reference segment true).bind fun _ =>
        Matches.bind (.emit _ _) fun _ => ih true

theorem matches_conditional (path : String) (inverted emptiness : Bool) :
    Matches (conditional path inverted emptiness) (conditional path inverted emptiness) := by
  refine (matches_reference path false).bind fun value => ?_
  cases emptiness with
  | false => exact (matches_onScope Scope.nestPlain).bind fun _ => .emit _ _
  | true => exact (matches_nestIterable path "").bind fun _ => .emit _ _

theorem matches_loop (path binding : String) :
    Matches (loop path binding) (loop path binding) := by
  refine (matches_reference path false).bind fun value => ?_
  intro g h hgh
  rw [run_get_bind, run_get_bind, hgh.contextName]
  cases Binding.check h.contextName binding with
  | error fault => exact Matches.throw (Error.semantic fault) g h hgh
  | ok name => exact (matches_nestIterable path binding).bind (fun _ => .emit _ _) g h hgh

/-- A part does the same whatever has been written before it. -/
theorem matches_part (p : Part) : Matches (part p) (part p) := by
  cases p with
  | raw text => exact .emit _ _
  | body path => exact matches_path_piece path false _
  | comment path => exact matches_path_piece path false _
  | flag key path => exact matches_path_piece path false _
  | optional key path => exact matches_path_piece path false (optionalCode key)
  | composite segments =>
    rw [part]
    split
    · exact .throw _
    · exact matches_composite _ true
  | conditional path inverted emptiness => exact matches_conditional path inverted emptiness
  | loop path binding => exact matches_loop path binding
  | otherwise => exact (matches_onScope Scope.enterElse).bind fun _ => .emit _ _
  | close => exact (matches_onScope Scope.pop).bind fun _ => .emit _ _
  | foreign kind => exact .throw _

/-! ## Joined texts -/

/-- Parts whose texts are joined do what the parts do, up to what they write. -/
theorem matches_coalesceFrom (pending : String) (ps : List Part) :
    Matches (parts (Part.coalesceFrom pending ps)) (parts ps) := by
  induction pending, ps using Part.raw_induction with
  | nil pending =>
    rw [Part.coalesceFrom]
    split
    · exact .pure ()
    · exact .emit_left _ (.pure ())
  | raw pending text ps ih => exact .emit_right _ ih
  | part pending part ps h ih =>
    have hrest : Matches (parts (part :: Part.coalesceFrom "" ps)) (parts (part :: ps)) :=
      (matches_part part).bind fun _ => ih
    rw [Part.coalesceFrom_of_not_raw h]
    split
    · exact hrest
    · exact .emit_left _ hrest

theorem matches_fold {ps qs : List Part} (h : Matches (parts ps) (parts qs)) :
    Matches (fold ps) (fold qs) := by
  refine Matches.bind (.emit _ _) fun _ => h.bind fun _ => ?_
  intro g k hgk
  rw [run_get_bind, run_get_bind, hgk.scope]
  cases k.scope.finish with
  | error fault => exact Matches.throw (Error.structural fault) g k hgk
  | ok _ => exact ⟨rfl, hgk.contextName, hgk.scope⟩

end Generate

/-- A fold of joined texts has the same outcome, and records the same. -/
theorem Generator.fold_coalesce (g : Generator) (ps : List Part) :
    (g.fold (Part.coalesce ps)).1 = (g.fold ps).1 ∧
      (g.fold (Part.coalesce ps)).2.Alike (g.fold ps).2 :=
  Generate.matches_fold (Generate.matches_coalesceFrom "" ps) g g ⟨rfl, rfl⟩

end HtmlTemplate
