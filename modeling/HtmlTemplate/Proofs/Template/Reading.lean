import HtmlTemplate.Proofs.Template.Code

/-!
# Reading — the code of a template is read as it was meant

The text of a template's code is read as that code, the name of the context being in its normal
spelling (`Template.ofText_code`): all its names may be used, and every operand stands where its
operator is allowed.
-/

namespace HtmlTemplate

open Text

namespace Expr

/-! ## Expressions -/

/-- Whether an expression can be written, and is read as another spelling of it. -/
def ReadAs (e f : Expr) : Prop := e.Writable ∧ e.normal = f

def ReadAsAll (es fs : List Expr) : Prop := WritableAll es ∧ normalAll es = fs

theorem ReadAsAll.nil : ReadAsAll [] [] := ⟨trivial, rfl⟩

theorem ReadAsAll.cons {e f : Expr} {es fs : List Expr} (he : ReadAs e f) (hes : ReadAsAll es fs) :
    ReadAsAll (e :: es) (f :: fs) :=
  ⟨⟨he.1, hes.1⟩, by rw [normalAll, he.2, hes.2]⟩

theorem ReadAsAll.append {es fs es' fs' : List Expr} (h : ReadAsAll es fs)
    (h' : ReadAsAll es' fs') : ReadAsAll (es ++ es') (fs ++ fs') := by
  induction es generalizing fs with
  | nil =>
    obtain ⟨-, rfl⟩ := h
    exact h'
  | cons e es ih =>
    obtain ⟨⟨he, hes⟩, rfl⟩ := h
    exact ReadAsAll.cons ⟨he, rfl⟩ (ih ⟨hes, rfl⟩)

theorem readAs_literal (text : String) : ReadAs (literal text) (literal text) := ⟨trivial, rfl⟩

theorem readAs_helperCall (h : Helper) {es fs : List Expr} (hes : ReadAsAll es fs) :
    ReadAs (helperCall h es) (helperCall h fs) := by
  refine ⟨⟨rfl, h.usable_name, hes.1⟩, ?_⟩
  unfold helperCall
  rw [normal, normal, h.normalName_name, hes.2]

theorem readAs_joined {es fs : List Expr} (hes : ReadAsAll es fs) :
    ReadAs (joined es) (joined fs) := by
  have hjoin : Usable "join" := ⟨by decide, by decide⟩
  refine ⟨⟨rfl, ⟨rfl, trivial, hjoin⟩, hes.1, trivial⟩, ?_⟩
  have hnormal : normalName "join" = "join" := normalName_ascii (by decide)
  unfold joined
  rw [normal, normal, normal, normalAll, normal, normalAll, hes.2, hnormal]

theorem readAs_thunk {e f : Expr} (he : ReadAs e f) : ReadAs (function none e) (function none f) :=
  ⟨⟨(fun _ hp => nomatch hp), he.1⟩, by rw [normal, he.2]; rfl⟩

theorem readAs_function {parameter : String} {e f : Expr} (hp : Usable parameter)
    (hnormal : normalName parameter = parameter) (he : ReadAs e f) :
    ReadAs (function (some parameter) e) (function (some parameter) f) := by
  refine ⟨⟨fun _ hmem => Option.mem_some.1 hmem ▸ hp, he.1⟩, ?_⟩
  rw [normal, he.2, Option.map_some, hnormal]

theorem readAs_negation {e f : Expr} (hl : e.looseness ≤ 2) (he : ReadAs e f) :
    ReadAs (negation e) (negation f) :=
  ⟨⟨hl, he.1⟩, by rw [normal, he.2]⟩

theorem readAsAll_literals (path : List String) :
    ReadAsAll (path.map literal) (path.map literal) := by
  induction path with
  | nil => exact ReadAsAll.nil
  | cons segment path ih => exact ReadAsAll.cons (readAs_literal segment) ih

theorem readAs_access {root : String} (hroot : Usable root) (path : List String) :
    ReadAs (access root path) (access (normalName root) path) := by
  unfold access
  split
  · exact ⟨hroot, rfl⟩
  · exact readAs_helperCall .lookup (ReadAsAll.cons ⟨hroot, rfl⟩ (readAsAll_literals path))

end Expr

theorem looseness_pathCode (contextName : String) (live : List String) (path : String) :
    (pathCode contextName live path).looseness = 0 := by
  have haccess : ∀ root path, (Expr.access root path).looseness = 0 := by
    intro root path
    unfold Expr.access
    split <;> rfl
  unfold pathCode
  split
  · rfl
  · split <;> exact haccess _ _

/-! ## Templates -/

section Template

open HtmlTemplate.Expr

/-- Whether the variables of bindings may be used as they are. -/
def Named (live : List String) : Prop :=
  ∀ b ∈ live, Usable (Binding.variableOf b) ∧
    normalName (Binding.variableOf b) = Binding.variableOf b

theorem Named.within {live : List String} (hlive : Named live) {head : Head} (hh : head.Sound) :
    Named (head.within live) := by
  cases head with
  | conditional path inverted emptiness => exact hlive
  | loop path binding =>
    intro b hb
    rcases List.mem_cons.1 hb with rfl | hb
    · exact ⟨Binding.usable_variableOf hh.2, Binding.normalName_variableOf hh.1⟩
    · exact hlive b hb

variable {contextName : String} (hn : Usable contextName)

include hn

theorem readAs_pathCode {live : List String} (hlive : Named live) (path : String) :
    ReadAs (pathCode contextName live path) (pathCode (normalName contextName) live path) := by
  unfold pathCode
  split
  · exact ⟨hn, rfl⟩
  · rename_i head rest _
    split
    · rename_i hmem
      -- A variable has no other spelling.
      obtain ⟨husable, hnormal⟩ := hlive head hmem
      have haccess := readAs_access husable rest
      rw [hnormal] at haccess
      exact haccess
    · exact readAs_access hn (head :: rest)

theorem readAs_call_path (h : Helper) {live : List String} (hlive : Named live) (path : String)
    {es fs : List Expr} (hes : ReadAsAll es fs) :
    ReadAs (helperCall h (pathCode contextName live path :: es))
      (helperCall h (pathCode (normalName contextName) live path :: fs)) :=
  readAs_helperCall h (ReadAsAll.cons (readAs_pathCode hn hlive path) hes)

theorem readAsAll_segmentCode {live : List String} (hlive : Named live) (segments : List String) :
    ∀ literal : Bool, ReadAsAll (segmentCode contextName live literal segments)
      (segmentCode (normalName contextName) live literal segments) := by
  induction segments with
  | nil =>
    intro literal
    cases literal <;> exact ReadAsAll.nil
  | cons segment rest ih =>
    intro literal
    cases literal with
    | true =>
      rw [segmentCode, segmentCode]
      split
      · exact ih false
      · exact ReadAsAll.cons (readAs_literal segment) (ih false)
    | false =>
      exact ReadAsAll.cons (readAs_call_path hn .ifDefined hlive segment ReadAsAll.nil) (ih true)

theorem readAsAll_insertion {live : List String} (hlive : Named live) (insertion : Insertion) :
    ReadAsAll (insertion.code contextName live) (insertion.code (normalName contextName) live) := by
  cases insertion with
  | raw text => exact ReadAsAll.cons (readAs_literal text) ReadAsAll.nil
  | body path =>
    exact ReadAsAll.cons (readAs_call_path hn .renderBody hlive path ReadAsAll.nil) ReadAsAll.nil
  | comment path =>
    exact ReadAsAll.cons (readAs_call_path hn .ifDefined hlive path ReadAsAll.nil) ReadAsAll.nil
  | composite segments => exact readAsAll_segmentCode hn hlive _ true
  | optional key path =>
    have hv : Usable "v" := ⟨by decide, by decide⟩
    have hnormal : normalName "v" = "v" := normalName_ascii (by decide)
    have hframe : ReadAs (attributeCode key) (attributeCode key) := by
      -- A sum of a sum and a text: only the left side may be a sum itself.
      refine readAs_function hv hnormal
        ⟨⟨Nat.le_refl 1, rfl, ⟨Nat.zero_le 1, rfl, trivial, hv⟩, trivial⟩, ?_⟩
      simp only [normal, hnormal]
    exact ReadAsAll.cons
      (readAs_call_path hn .ifDefined hlive path (ReadAsAll.cons hframe ReadAsAll.nil)) ReadAsAll.nil
  | flag key path =>
    have hkey := readAs_thunk (readAs_literal (" " ++ key))
    exact ReadAsAll.cons
      (readAs_call_path hn .ifCheck hlive path (ReadAsAll.cons hkey ReadAsAll.nil)) ReadAsAll.nil

theorem readAs_testCode {live : List String} (hlive : Named live) (path : String)
    (inverted emptiness : Bool) :
    ReadAs (testCode contextName live path inverted emptiness)
      (testCode (normalName contextName) live path inverted emptiness) := by
  have hpath := readAs_pathCode hn hlive path
  have hcall := readAs_helperCall .isNonempty (ReadAsAll.cons hpath ReadAsAll.nil)
  have htight := looseness_pathCode contextName live path
  -- A negation is the loosest operand here, and nothing stands around it but commas.
  cases inverted <;> cases emptiness
  · exact hpath
  · exact hcall
  · exact readAs_negation (htight ▸ Nat.zero_le 2) hpath
  · exact readAs_negation (Nat.zero_le 2) hcall

theorem readAs_head {live : List String} (hlive : Named live) {head : Head} (hh : head.Sound)
    {body body' others others' : List Expr} (hbody : ReadAsAll body body')
    (hothers : ReadAsAll others others') :
    ReadAs (head.code contextName live body others)
      (head.code (normalName contextName) live body' others') := by
  have hjoined := readAs_joined hbody
  cases head with
  | conditional path inverted emptiness =>
    exact readAs_helperCall .ifCheck (ReadAsAll.cons
      (readAs_testCode hn hlive path inverted emptiness)
      (ReadAsAll.cons (readAs_thunk hjoined) hothers))
  | loop path binding =>
    have hfunction := readAs_function (Binding.usable_variableOf hh.2)
      (Binding.normalName_variableOf hh.1) hjoined
    exact readAs_call_path hn .loop hlive path (ReadAsAll.cons hfunction hothers)

theorem readAsAll_code (t : Template) : t.Sound → ∀ live : List String, Named live →
    ReadAsAll (t.code contextName live) (t.code (normalName contextName) live) := by
  induction t with
  | done => exact fun _ _ _ => ReadAsAll.nil
  | insert insertion rest ih =>
    intro hsound live hlive
    exact (readAsAll_insertion hn hlive insertion).append (ih hsound.2 live hlive)
  | block head body rest ihbody ihrest =>
    intro hsound live hlive
    have hbody := ihbody hsound.2.1 _ (hlive.within hsound.1)
    exact ReadAsAll.cons (readAs_head hn hlive hsound.1 hbody ReadAsAll.nil)
      (ihrest hsound.2.2 live hlive)
  | choice head body other rest ihbody ihother ihrest =>
    intro hsound live hlive
    have hbody := ihbody hsound.2.1 _ (hlive.within hsound.1)
    have hother := readAs_thunk (readAs_joined (ihother hsound.2.2.1 live hlive))
    exact ReadAsAll.cons
      (readAs_head hn hlive hsound.1 hbody (ReadAsAll.cons hother ReadAsAll.nil))
      (ihrest hsound.2.2.2 live hlive)

/-- The text of a template's code is read as the code, whatever is printable. -/
theorem Template.ofText_codeBy (printable : Char → Bool) {t : Template} (hsound : t.Sound) :
    Expr.ofText (Token.textBy printable (joined (t.code contextName [])).written) =
      .ok (joined (t.code (normalName contextName) [])) := by
  have hcode := readAsAll_code hn t hsound [] (fun b hb => by cases hb)
  obtain ⟨hwritable, hnormal⟩ := readAs_joined hcode
  rw [Expr.ofText_textBy printable hwritable, hnormal]

/-- The text of a template's code is read as the code. -/
theorem Template.ofText_code {t : Template} (hsound : t.Sound) :
    Expr.ofText (Token.textOf (joined (t.code contextName [])).written) =
      .ok (joined (t.code (normalName contextName) [])) := by
  rw [← Token.textBy_isPrintable]
  exact ofText_codeBy hn isPrintable hsound

end Template

end HtmlTemplate
