import HtmlTemplate.Compile

/-!
# Section — what a section of a program leaves of the configuration in force

Between an `enter` and the `leave` that closes it, configurations may be set, reset and entered, and
compilations may succeed or fail.  Calls are well nested if every `leave` has a section to close.
Behind it the state is then the one from before the section, whatever was called inside
(`ConfigState.leave_restores`): the configuration that is in force, and those that the sections
around it will bring back.  Errors need no rule of their own, because a program leaves all sections
that an error goes through (`Program.balanced_calls`).
-/

namespace HtmlTemplate

/-! ## Calls -/

/-- A call that bears on the configuration in force.  A section is left at its end, or by an error
that was raised in it, and a compilation may come with a configuration of its own. -/
inductive ConfigCall where
  | set (config : Config)
  | reset
  | enter (config : Config)
  | leave (raised : Bool)
  | compile (config? : Option Config) (source : String)

namespace ConfigCall

/-- How many sections are open behind a call, if there is one for it to close. -/
def turn (opened : Nat) : ConfigCall → Option Nat
  | .enter _ => some (opened + 1)
  | .leave _ => if opened = 0 then none else some (opened - 1)
  | .set _ | .reset | .compile _ _ => some opened

/-- How many sections are open behind calls, if each `leave` has one to close. -/
def openBehind (opened : Nat) (calls : List ConfigCall) : Option Nat := calls.foldlM turn opened

/-- Whether every `leave` closes a section that was entered before. -/
def WellNested (calls : List ConfigCall) : Prop := (openBehind 0 calls).isSome = true

/-- Whether calls close the sections that they enter, and no others. -/
def Balanced (calls : List ConfigCall) : Prop := openBehind 0 calls = some 0

instance (calls : List ConfigCall) : Decidable (WellNested calls) :=
  inferInstanceAs (Decidable (_ = true))

instance (calls : List ConfigCall) : Decidable (Balanced calls) :=
  inferInstanceAs (Decidable (_ = some 0))

/-- Whether the section that a `leave` behind some calls closes was entered behind the first of
them: all that were entered later are closed. -/
def EnteredBehind (before calls : List ConfigCall) : Prop :=
  ∃ config body, calls = before ++ .enter config :: body ∧ Balanced body

variable {call : ConfigCall} {calls more : List ConfigCall} {opened between after : Nat}

@[simp] theorem openBehind_nil : openBehind opened [] = some opened := rfl

theorem openBehind_cons :
    openBehind opened (call :: calls) = (turn opened call).bind (openBehind · calls) :=
  List.foldlM_cons

theorem openBehind_append :
    openBehind opened (calls ++ more) = (openBehind opened calls).bind (openBehind · more) :=
  List.foldlM_append

theorem openBehind_concat :
    openBehind opened (calls ++ [call]) = (openBehind opened calls).bind (turn · call) := by
  rw [openBehind_append]
  exact congrArg (Option.bind _) (funext fun n => by simp [openBehind_cons])

/-- Sections that are open around a call do not matter to it. -/
theorem turn_add (h : turn opened call = some after) (outer : Nat) :
    turn (opened + outer) call = some (after + outer) := by
  cases call with
  | leave raised =>
    by_cases hz : opened = 0
    · simp [turn, hz] at h
    · simp only [turn, if_neg hz, Option.some.injEq] at h
      have hne : opened + outer ≠ 0 := by omega
      simp only [turn, if_neg hne, Option.some.injEq]
      omega
  | enter config =>
    simp only [turn, Option.some.injEq] at h ⊢
    omega
  | set config | reset | compile config? source =>
    simp only [turn, Option.some.injEq] at h ⊢
    omega

theorem openBehind_add (h : openBehind opened calls = some after) (outer : Nat) :
    openBehind (opened + outer) calls = some (after + outer) := by
  induction calls generalizing opened with
  | nil => simpa using h
  | cons call calls ih =>
    rw [openBehind_cons] at h ⊢
    obtain ⟨between, hturn, hrest⟩ := Option.bind_eq_some_iff.1 h
    rw [turn_add hturn outer, Option.bind_some]
    exact ih hrest

theorem Balanced.openBehind_eq (h : Balanced calls) (opened : Nat) :
    openBehind opened calls = some opened := by
  simpa using openBehind_add h opened

theorem Balanced.append (h : Balanced calls) (hmore : Balanced more) :
    Balanced (calls ++ more) := by
  show openBehind 0 (calls ++ more) = some 0
  rw [openBehind_append, h, Option.bind_some, hmore]

/-- A section around balanced calls. -/
theorem Balanced.enclose (h : Balanced calls) (config : Config) (raised : Bool) :
    Balanced (.enter config :: calls ++ [.leave raised]) := by
  show openBehind 0 (.enter config :: (calls ++ [.leave raised])) = some 0
  rw [openBehind_cons, turn, Option.bind_some, openBehind_concat, h.openBehind_eq]
  rfl

/-- While a section is open, there is one that the next `leave` closes. -/
theorem exists_enteredBehind (h : openBehind 0 calls = some (after + 1)) :
    ∃ before, EnteredBehind before calls ∧ openBehind 0 before = some after := by
  -- Behind a `leave` the section is further back than the one that the `leave` closes, in front of
  -- the calls that the induction hypothesis has cut off.
  induction hn : calls.length using Nat.strongRecOn generalizing calls after with
  | _ n ih =>
  rcases List.eq_nil_or_concat calls with rfl | ⟨front, call, rfl⟩
  · simp at h
  rw [List.concat_eq_append] at h hn ⊢
  rw [List.length_append, List.length_singleton] at hn
  rw [openBehind_concat] at h
  obtain ⟨between, hfront, hturn⟩ := Option.bind_eq_some_iff.1 h
  have hplain : turn between call = some between → Balanced [call] →
      ∃ before, EnteredBehind before (front ++ [call]) ∧ openBehind 0 before = some after := by
    intro hsame hcall
    obtain rfl : between = after + 1 := Option.some.inj (hsame.symm.trans hturn)
    obtain ⟨before, ⟨config, body, rfl, hbody⟩, hbefore⟩ := ih front.length (by omega) hfront rfl
    exact ⟨before, ⟨config, body ++ [call], by simp, hbody.append hcall⟩, hbefore⟩
  cases call with
  | enter config =>
    obtain rfl : between = after := by simpa [turn] using hturn
    exact ⟨front, ⟨config, [], rfl, rfl⟩, hfront⟩
  | leave raised =>
    have hbetween : between = after + 1 + 1 := by
      by_cases hz : between = 0
      · simp [turn, hz] at hturn
      · simp only [turn, if_neg hz, Option.some.injEq] at hturn
        omega
    subst hbetween
    obtain ⟨inner, ⟨config', body', rfl, hbody'⟩, hinner⟩ := ih front.length (by omega) hfront rfl
    obtain ⟨before, ⟨config, body, rfl, hbody⟩, hbefore⟩ :=
      ih inner.length (by simp only [List.length_append, List.length_cons] at hn; omega) hinner rfl
    refine ⟨before, ⟨config, body ++ (.enter config' :: body' ++ [.leave raised]), by simp, ?_⟩,
      hbefore⟩
    exact hbody.append (hbody'.enclose config' raised)
  | set config => exact hplain rfl rfl
  | reset => exact hplain rfl rfl
  | compile config? source => exact hplain rfl rfl

end ConfigCall

/-! ## Runs -/

namespace ConfigState

open ConfigCall

/-- Compiles a source, with the configuration in force unless it comes with one of its own. -/
def compile (s : ConfigState) (config? : Option Config) (source : String) :
    Except Error Compiled :=
  Compiled.ofSource (config?.getD s.current) source

/-- The state behind a call. -/
def perform (s : ConfigState) : ConfigCall → ConfigState
  | .set config => s.set config
  | .reset => s.reset
  | .enter config => s.enter config
  | .leave _ => s.leave
  | .compile _ _ => s

/-- The state behind a sequence of calls. -/
def run (s : ConfigState) (calls : List ConfigCall) : ConfigState := calls.foldl perform s

variable {s : ConfigState} {call : ConfigCall} {calls : List ConfigCall} {opened after : Nat}

@[simp] theorem run_nil : s.run [] = s := rfl

theorem run_cons : s.run (call :: calls) = (s.perform call).run calls := rfl

theorem run_append (more : List ConfigCall) : s.run (calls ++ more) = (s.run calls).run more :=
  List.foldl_append

/-- A call touches only what was saved since a section was entered. -/
theorem exists_saved_perform (h : turn opened call = some after) {inner outer : List Config}
    (hs : s.saved = inner ++ outer) (hinner : inner.length = opened) :
    ∃ inner', (s.perform call).saved = inner' ++ outer ∧ inner'.length = after := by
  cases call with
  | enter config =>
    simp only [turn, Option.some.injEq] at h
    exact ⟨s.current :: inner, by simp [perform, enter, hs], by simp [hinner, h]⟩
  | leave raised =>
    cases inner with
    | nil => simp [turn, ← hinner] at h
    | cons previous inner =>
      simp only [turn, ← hinner, List.length_cons, Nat.add_one_ne_zero, if_false,
        Nat.add_sub_cancel, Option.some.injEq] at h
      exact ⟨inner, by simp [perform, leave, hs], h⟩
  | set config | reset | compile config? source =>
    simp only [turn, Option.some.injEq] at h
    exact ⟨inner, hs, hinner.trans h⟩

theorem exists_saved_run (h : openBehind opened calls = some after) {inner outer : List Config}
    (hs : s.saved = inner ++ outer) (hinner : inner.length = opened) :
    ∃ inner', (s.run calls).saved = inner' ++ outer ∧ inner'.length = after := by
  induction calls generalizing s opened inner with
  | nil => exact ⟨inner, hs, hinner.trans (Option.some.inj h)⟩
  | cons call calls ih =>
    rw [openBehind_cons] at h
    obtain ⟨between, hturn, hrest⟩ := Option.bind_eq_some_iff.1 h
    obtain ⟨inner', hs', hinner'⟩ := exists_saved_perform hturn hs hinner
    exact ih hrest hs' hinner'

/-- What the sections around balanced calls will bring back stays as it is. -/
theorem saved_run (h : Balanced calls) : (s.run calls).saved = s.saved := by
  obtain ⟨inner, hs, hinner⟩ := exists_saved_run (s := s) h (List.nil_append _).symm rfl
  obtain rfl := List.length_eq_zero_iff.1 hinner
  exact hs

/-- A section changes nothing, however it is left. -/
theorem run_enclose (h : Balanced calls) (config : Config) (raised : Bool) :
    s.run (.enter config :: calls ++ [.leave raised]) = s := by
  have hsaved : ((s.enter config).run calls).saved = s.current :: s.saved := saved_run h
  calc s.run (.enter config :: calls ++ [.leave raised])
      = ((s.enter config).run calls).leave := run_append [.leave raised]
    _ = s := by simp only [leave, hsaved]

end ConfigState

/-! ## Programs -/

/-- A program that uses configurations.  `within` has a section around its body, and `attempt` goes
on with its handler if its body raises an error, as a compilation does that fails. -/
inductive Program where
  | done
  | set (config : Config)
  | reset
  | compile (config? : Option Config) (source : String)
  | fail
  | andThen (first next : Program)
  | within (config : Config) (body : Program)
  | attempt (body handler : Program)

/-- What came of a program: whether it raised an error, and the calls that it made until then. -/
structure Execution where
  raised : Bool
  calls : List ConfigCall

/-- One program, and then another. -/
def Execution.append (first next : Execution) : Execution :=
  ⟨next.raised, first.calls ++ next.calls⟩

namespace Program

open ConfigCall

/-- Executes a program.  An error is passed on by a section, which is left with it. -/
def execute (s : ConfigState) : Program → Execution
  | .done => ⟨false, []⟩
  | .set config => ⟨false, [.set config]⟩
  | .reset => ⟨false, [.reset]⟩
  | .compile config? source => ⟨!(s.compile config? source).isOk, [.compile config? source]⟩
  | .fail => ⟨true, []⟩
  | .andThen first next =>
    let ran := first.execute s
    if ran.raised then ran else ran.append (next.execute (s.run ran.calls))
  | .within config body =>
    let ran := body.execute (s.enter config)
    ⟨ran.raised, .enter config :: ran.calls ++ [.leave ran.raised]⟩
  | .attempt body handler =>
    let ran := body.execute s
    if ran.raised then ran.append (handler.execute (s.run ran.calls)) else ran

/-- A program leaves the sections that it enters, whatever is raised in them. -/
theorem balanced_calls (s : ConfigState) (program : Program) :
    Balanced (program.execute s).calls := by
  induction program generalizing s with
  | done | set config | reset | compile config? source | fail => rfl
  | andThen first next ihf ihn =>
    rw [execute]
    split
    · exact ihf s
    · exact (ihf s).append (ihn _)
  | within config body ih => exact (ih _).enclose config _
  | attempt body handler ihb ihh =>
    rw [execute]
    split
    · exact (ihb s).append (ihh _)
    · exact ihb s

end Program

namespace ConfigState

open ConfigCall

/-- In calls that are well nested every `leave` has a section to close, and puts back the state from
just before this section was entered: the configuration that was in force then, and those that the
sections around it will bring back.  No compilation changes the state.  The calls of a program are
well nested, and a section in it changes nothing, whether or not an error is raised inside. -/
theorem leave_restores (s : ConfigState) :
    (∀ calls raised more, WellNested (calls ++ .leave raised :: more) →
      (∃ before, EnteredBehind before calls) ∧
      ∀ before, EnteredBehind before calls →
        s.run (calls ++ [.leave raised]) = s.run before) ∧
    (∀ calls config? source, s.run (calls ++ [.compile config? source]) = s.run calls) ∧
    (∀ program : Program, WellNested (program.execute s).calls ∧
      ∀ config, s.run ((Program.within config program).execute s).calls = s) := by
  refine ⟨fun calls raised more hnested => ⟨?_, ?_⟩, fun calls config? source => ?_,
    fun program => ⟨?_, fun config => ?_⟩⟩
  · unfold WellNested at hnested
    rw [openBehind_append] at hnested
    cases hcalls : openBehind 0 calls with
    | none => simp [hcalls] at hnested
    | some opened =>
      cases opened with
      | zero => simp [hcalls, openBehind_cons, turn] at hnested
      | succ opened =>
        obtain ⟨before, hbefore, -⟩ := exists_enteredBehind hcalls
        exact ⟨before, hbefore⟩
  · rintro before ⟨config, body, rfl, hbody⟩
    rw [List.append_assoc, run_append]
    exact run_enclose hbody config raised
  · exact run_append [.compile config? source]
  · exact Option.isSome_iff_exists.2 ⟨0, program.balanced_calls s⟩
  · exact run_enclose (program.balanced_calls _) config _

/-- A section in which another configuration was set, and then a section in which the configuration
was reset and a compilation has failed, which leaves both. -/
def failing : Program :=
  .within { contextName := "row" } (.andThen (.set { contextName := "cell" })
    (.within { sourceFile := some "cell.html" } (.andThen .reset (.compile none "\x7b\x7bx"))))

/-- The calls of such a program behind the end of its inner section. -/
def failingCalls : List ConfigCall :=
  [.set { contextName := "page" }, .enter { contextName := "row" }, .set { contextName := "cell" },
    .enter { sourceFile := some "cell.html" }, .reset, .compile none "\x7b\x7bx", .leave true]

theorem leave_restores_failing :
    WellNested (failingCalls ++ [.leave true]) ∧
    run {} (failingCalls ++ [.leave true]) = run {} [.set { contextName := "page" }] ∧
    (failing.execute {}).raised = true ∧
    run {} ((Program.within {} failing).execute {}).calls = {} :=
  have hentered : EnteredBehind [.set { contextName := "page" }] failingCalls := ⟨_, _, rfl, rfl⟩
  ⟨by decide, ((leave_restores {}).1 failingCalls true [] (by decide)).2 _ hentered,
    by decide +kernel, ((leave_restores {}).2.2 failing).2 {}⟩

end ConfigState
end HtmlTemplate
