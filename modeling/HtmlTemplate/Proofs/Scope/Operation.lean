import HtmlTemplate.Shape.Scope

/-!
# Operation — the calls that a scope takes, and runs of them

A scope is driven by calls, each of which may be refused.  A refused call leaves whatever it had
recorded by then, so that a run goes on from there: `Scope.perform` gives the answer to one call and
the scope after it, and `Scope.run` the scope after any sequence of calls.
-/

namespace HtmlTemplate

/-- A call to a scope. -/
inductive Operation where
  | record (path : String) (required : Bool)
  | nestIterable (path binding : String)
  | nestPlain
  | enterElse
  | pop
  | finish
  deriving DecidableEq, Repr

namespace Scope

/-- The answer to a step that a refusal undoes. -/
def orStay (s : Scope) : Except StructureFault Scope → Except TemplateFault Unit × Scope
  | .ok next => (.ok (), next)
  | .error fault => (.error (.structural fault), s)

/-- The answer to a call, and the scope after it. -/
def perform (s : Scope) : Operation → Except TemplateFault Unit × Scope
  | .record path required => (.ok (), (s.record path required).2)
  | .nestIterable path binding =>
    ((s.nestIterable path binding).1.map fun _ => (), (s.nestIterable path binding).2)
  | .nestPlain => s.orStay s.nestPlain
  | .enterElse => s.orStay s.enterElse
  | .pop => s.orStay s.pop
  | .finish => (s.finish.mapError .structural, s)

/-- The scope after a sequence of calls, whatever the answers were. -/
def run (s : Scope) (operations : List Operation) : Scope :=
  operations.foldl (fun s operation => (s.perform operation).2) s

/-- Whether no call of a sequence is refused. -/
def Accepts : Scope → List Operation → Prop
  | _, [] => True
  | s, operation :: rest =>
    (s.perform operation).1.isOk = true ∧ Accepts (s.perform operation).2 rest

@[simp] theorem run_nil (s : Scope) : s.run [] = s := rfl

@[simp] theorem run_cons (s : Scope) (operation : Operation) (rest : List Operation) :
    s.run (operation :: rest) = (s.perform operation).2.run rest := rfl

instance decidableAccepts : ∀ (s : Scope) (operations : List Operation),
    Decidable (s.Accepts operations)
  | _, [] => isTrue trivial
  | s, operation :: rest =>
    have := decidableAccepts (s.perform operation).2 rest
    inferInstanceAs (Decidable ((s.perform operation).1.isOk = true ∧ _))

/-! ## What a step does -/

theorem push_ok {s t : Scope} {frame : Frame} (h : s.push frame = .ok t) :
    t = { s with frames := frame :: s.frames } := by
  unfold push at h
  split at h
  · cases h
  · exact (Except.ok.inj h).symm

theorem enterElse_ok {s t : Scope} (h : s.enterElse = .ok t) :
    ∃ frame rest, s.frames = frame :: rest ∧ frame ≠ .plain true ∧
      t = { s.release frame with frames := .plain true :: rest } := by
  unfold enterElse at h
  split at h
  · cases h
  · cases h
  · rename_i frame rest hne hf
    exact ⟨frame, rest, hf, fun e => hne e, (Except.ok.inj h).symm⟩

theorem pop_ok {s t : Scope} (h : s.pop = .ok t) :
    ∃ frame rest, s.frames = frame :: rest ∧
      t = ({ s with frames := rest } : Scope).release frame := by
  unfold pop at h
  split at h
  · cases h
  · rename_i frame rest hf
    exact ⟨frame, rest, hf, (Except.ok.inj h).symm⟩

end Scope
end HtmlTemplate
