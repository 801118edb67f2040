import HtmlTemplate.Proofs.Code.Closed
import HtmlTemplate.Proofs.Template.Evaluation
import HtmlTemplate.Proofs.Template.Recording

/-!
# Coverage — the type of a template covers everything that is read

Two mappings that hold the same under every field that the type of a template names are rendered to
the same, whatever else they hold (`Compiled.render_eq_of_sameAt`).  The code of the template is
evaluated on both: the only places where it could tell them apart are the paths that it reads from
the context, and all of these are recorded.
-/

namespace HtmlTemplate

open Text

/-- Whether two mappings hold the same value at a text.  To hold no value there is the same as to
hold a missing one. -/
def Value.SameAt (first second : List (Value × Value)) (field : String) : Prop :=
  (valueAt? field.toList first).getD none = (valueAt? field.toList second).getD none

/-- Whether two mappings hold the same under the field that a reference reads, if it reads one from
the context. -/
def Reference.SameAt (first second : List (Value × Value)) (r : Reference) : Prop :=
  r.start = [] → ∀ field ∈ r.names.head?, Value.SameAt first second field

theorem Blocks.addressOf_of_not_mem {blocks : Blocks} {name : String} (h : name ∉ blocks.names) :
    blocks.addressOf name = none := by
  induction blocks with
  | nil => rfl
  | cons block rest ih =>
    cases block with
    | none => exact ih h
    | some binding =>
      obtain ⟨n, a⟩ := binding
      have hnames : names (some (n, a) :: rest) = n :: names rest := rfl
      rw [hnames, List.mem_cons, not_or] at h
      rw [addressOf, if_neg (Ne.symm h.1)]
      exact ih h.2

section Alike

open HtmlTemplate.Expr Meaning

variable (contextName : String) (first second : List (Value × Value)) (bindings : Bindings)

/-- Whether an expression means the same for two mappings as the context. -/
def Alike (e : Expr) : Prop :=
  eval (environment contextName (.dict first) bindings) e =
    eval (environment contextName (.dict second) bindings) e

def AlikeAll (es : List Expr) : Prop :=
  evalAll (environment contextName (.dict first) bindings) es =
    evalAll (environment contextName (.dict second) bindings) es

variable {contextName first second bindings}

theorem AlikeAll.nil : AlikeAll contextName first second bindings [] := rfl

theorem AlikeAll.cons {e : Expr} {es : List Expr} (he : Alike contextName first second bindings e)
    (hes : AlikeAll contextName first second bindings es) :
    AlikeAll contextName first second bindings (e :: es) := by
  unfold Alike at he
  unfold AlikeAll at hes ⊢
  rw [evalAll, evalAll, he, hes]

theorem AlikeAll.append {es fs : List Expr} (hes : AlikeAll contextName first second bindings es)
    (hfs : AlikeAll contextName first second bindings fs) :
    AlikeAll contextName first second bindings (es ++ fs) := by
  unfold AlikeAll at hes hfs ⊢
  rw [Renders.evalAll_append, Renders.evalAll_append, hes, hfs]

/-! ## Expressions -/

theorem alike_literal (text : String) : Alike contextName first second bindings (literal text) :=
  rfl

theorem alike_thunk {e : Expr} (he : Alike contextName first second bindings e) :
    Alike contextName first second bindings (function none e) := by
  unfold Alike at he ⊢
  rw [eval, eval, he]

/-- The body of a loop means the same if it does for every element. -/
theorem alike_function {binding : String} {e : Expr}
    (he : ∀ v, Alike contextName first second ((binding, v) :: bindings) e) :
    Alike contextName first second bindings (function (some (Binding.variableOf binding)) e) := by
  unfold Alike
  rw [eval, eval]
  have heach : ∀ v, eval ((Binding.variableOf binding, v) ::
        environment contextName (.dict first) bindings) e =
      eval ((Binding.variableOf binding, v) :: environment contextName (.dict second) bindings) e :=
    he
  simp only [heach]

theorem alike_negation {e : Expr} (he : Alike contextName first second bindings e) :
    Alike contextName first second bindings (negation e) := by
  unfold Alike at he ⊢
  rw [eval, eval, he]

theorem alike_joined {es : List Expr} (hes : AlikeAll contextName first second bindings es) :
    Alike contextName first second bindings (joined es) := by
  unfold AlikeAll at hes
  unfold Alike
  simp only [joined, eval, evalAll, hes]

/-- A mapping in the place of a helper is called in vain, whatever it holds. -/
theorem alike_helperCall (h : Helper) {arguments : List Expr}
    (ha : AlikeAll contextName first second bindings arguments) :
    Alike contextName first second bindings (helperCall h arguments) := by
  unfold AlikeAll at ha
  unfold Alike helperCall
  rw [eval, eval, eval, eval, ha]
  by_cases hhidden : normalName contextName = h.name
  · simp only [eval_hidden_name hhidden, pure_bind]
    rfl
  · rw [eval_helper_name hhidden, eval_helper_name hhidden]

/-! ## Paths -/

variable (hn : Generator.checkContextName contextName = .ok ())

include hn

/-- What is read from the context is the same if the head of its path leads to the same. -/
theorem alike_access_context {head : String} (hsame : Value.SameAt first second head)
    (rest : List String) :
    Alike contextName first second bindings (access (normalName contextName) (head :: rest)) := by
  have hlookup : (Value.dict first).lookup (head :: rest) =
      (Value.dict second).lookup (head :: rest) := by
    have hstep : (Value.dict first).step head = (Value.dict second).step head :=
      congrArg Except.ok hsame
    rw [Value.lookup, Value.lookup, hstep]
  have harguments : ∀ entries, evalAll (environment contextName (.dict entries) bindings)
      (name (normalName contextName) :: (head :: rest).map literal) =
        return .value (.dict entries) :: (head :: rest).map said := by
    intro entries
    rw [evalAll, eval, ofName_of_lookup (lookup_context hn), evalAll_literals]
    rfl
  have haccess : access (normalName contextName) (head :: rest) =
      helperCall .lookup (name (normalName contextName) :: (head :: rest).map literal) := rfl
  unfold Alike
  rw [haccess, helperCall, eval, eval, eval, eval, harguments, harguments]
  by_cases hhidden : normalName contextName = Helper.lookup.name
  · -- The mappings differ as arguments, but neither can be called.
    simp only [eval_hidden_name hhidden, pure_bind]
    rfl
  · rw [eval_helper_name hhidden, eval_helper_name hhidden]
    simp only [pure_bind, Meaning.apply, applyHelper, asPath_said, hlookup]

/-- What is read from an element does not depend on the context. -/
theorem alike_access_binding {head : String} (hmem : head ∈ bindings.map (·.1))
    (rest : List String) :
    Alike contextName first second bindings (access (Binding.variableOf head) rest) := by
  have hroot : Alike contextName first second bindings (name (Binding.variableOf head)) := by
    obtain ⟨v, hv⟩ := Option.isSome_iff_exists.1 (mem_map_fst.1 hmem)
    unfold Alike
    rw [eval, eval, ofName_of_lookup ((lookup_variableOf hn head).trans hv),
      ofName_of_lookup ((lookup_variableOf hn head).trans hv)]
  cases rest with
  | nil => exact hroot
  | cons segment rest =>
    have hliterals : AlikeAll contextName first second bindings
        ((segment :: rest).map literal) := by
      unfold AlikeAll
      rw [evalAll_literals, evalAll_literals]
    exact alike_helperCall .lookup (.cons hroot hliterals)

/-- A path means the same if the field that it reads from the context holds the same. -/
theorem alike_pathCode {blocks : Blocks} (hb : bindings.map (·.1) = blocks.names) {path : String}
    {required iterated : Bool}
    (hsame : (Reference.ofPath blocks path required iterated).SameAt first second) :
    Alike contextName first second bindings
      (pathCode (normalName contextName) (bindings.map (·.1)) path) := by
  obtain ⟨head, rest, hpath⟩ := Path.exists_segments path
  unfold pathCode
  simp only [hpath]
  by_cases hmem : head ∈ bindings.map (·.1)
  · rw [if_pos hmem]
    exact alike_access_binding hn hmem rest
  · rw [if_neg hmem]
    -- The head names no element, so that the path is recorded from the context.
    have hnone := Blocks.addressOf_of_not_mem (hb ▸ hmem)
    rw [Reference.ofPath_of_none required iterated hpath hnone] at hsame
    exact alike_access_context hn (hsame rfl head rfl) rest

/-! ## Templates -/

variable {blocks : Blocks} (hb : bindings.map (·.1) = blocks.names)

include hb

theorem alike_segmentCode {segments : List String} : ∀ {literal : Bool},
    (∀ path ∈ Generate.segmentPaths literal segments,
      (Reference.ofPath blocks path true false).SameAt first second) →
    AlikeAll contextName first second bindings
      (segmentCode (normalName contextName) (bindings.map (·.1)) literal segments) := by
  induction segments with
  | nil =>
    intro literal _
    cases literal <;> exact .nil
  | cons segment rest ih =>
    intro literal hsame
    cases literal with
    | true =>
      rw [segmentCode]
      split
      · exact ih hsame
      · exact .cons (alike_literal segment) (ih hsame)
    | false =>
      obtain ⟨hsegment, hrest⟩ := List.forall_mem_cons.1 hsame
      have hpath := alike_pathCode hn hb hsegment
      exact .cons (alike_helperCall .ifDefined (.cons hpath .nil)) (ih hrest)

theorem alike_insertion {insertion : Insertion}
    (hsame : ∀ r ∈ insertion.references blocks, r.SameAt first second) :
    AlikeAll contextName first second bindings
      (insertion.code (normalName contextName) (bindings.map (·.1))) := by
  -- Any of the others is one call of a helper with a path and what goes with it.
  have hcall : ∀ (h : Helper) (path : String) (arguments : List Expr),
      (∀ r ∈ [Reference.ofPath blocks path false false], r.SameAt first second) →
      AlikeAll contextName first second bindings arguments →
      AlikeAll contextName first second bindings [helperCall h
        (pathCode (normalName contextName) (bindings.map (·.1)) path :: arguments)] := by
    intro h path arguments hpath ha
    have hvalue := alike_pathCode hn hb (hpath _ List.mem_cons_self)
    exact .cons (alike_helperCall h (.cons hvalue ha)) .nil
  cases insertion with
  | raw text => exact .cons (alike_literal text) .nil
  | body path => exact hcall .renderBody path [] hsame .nil
  | comment path => exact hcall .ifDefined path [] hsame .nil
  | composite segments => exact alike_segmentCode hn hb (List.forall_mem_map.1 hsame)
  | optional key path =>
    refine hcall .ifDefined path [attributeCode key] hsame ?_
    unfold AlikeAll
    rw [evalAll_attributeCode, evalAll_attributeCode]
  | flag key path =>
    exact hcall .ifCheck path _ hsame (.cons (alike_thunk (alike_literal _)) .nil)

theorem alike_testCode {path : String} {inverted emptiness : Bool}
    (hsame : (Reference.ofPath blocks path false false).SameAt first second) :
    Alike contextName first second bindings
      (testCode (normalName contextName) (bindings.map (·.1)) path inverted emptiness) := by
  have hpath := alike_pathCode hn hb hsame
  have hvalue : Alike contextName first second bindings
      (testCode (normalName contextName) (bindings.map (·.1)) path false emptiness) := by
    cases emptiness with
    | false => exact hpath
    | true => exact alike_helperCall .isNonempty (.cons hpath .nil)
  cases inverted with
  | false => exact hvalue
  | true => exact alike_negation hvalue

/-- A block means the same if its first body does for every element. -/
theorem alike_head {head : Head} (body : List String → List Expr) {others : List Expr}
    (hsame : ∀ r ∈ head.references blocks, r.SameAt first second)
    (hbody : ∀ inner : Bindings, inner.map (·.1) = (head.blocks blocks).names →
      AlikeAll contextName first second inner (body (inner.map (·.1))))
    (hothers : AlikeAll contextName first second bindings others) :
    Alike contextName first second bindings
      (head.code (normalName contextName) (bindings.map (·.1))
        (body (head.within (bindings.map (·.1)))) others) := by
  cases head with
  | conditional path inverted emptiness =>
    have htest : Alike contextName first second bindings
        (testCode (normalName contextName) (bindings.map (·.1)) path inverted emptiness) :=
      alike_testCode hn hb (hsame _ List.mem_cons_self)
    have hyes := alike_thunk (alike_joined (hbody bindings hb))
    exact alike_helperCall .ifCheck (.cons htest (.cons hyes hothers))
  | loop path binding =>
    have hpath := alike_pathCode hn hb (hsame _ List.mem_cons_self)
    have heach : ∀ v, Alike contextName first second ((binding, v) :: bindings)
        (joined (body (binding :: bindings.map (·.1)))) := by
      intro v
      exact alike_joined (hbody ((binding, v) :: bindings) (congrArg (binding :: ·) hb))
    exact alike_helperCall .loop (.cons hpath (.cons (alike_function heach) hothers))

omit hb in
/-- The code of a template means the same if all that it reads from the context does. -/
theorem alike_template (t : Template) : ∀ {blocks : Blocks} {bindings : Bindings},
    bindings.map (·.1) = blocks.names → (∀ r ∈ t.references blocks, r.SameAt first second) →
    AlikeAll contextName first second bindings
      (t.code (normalName contextName) (bindings.map (·.1))) := by
  induction t with
  | done =>
    intro blocks bindings _ _
    exact .nil
  | insert insertion rest ih =>
    intro blocks bindings hb hsame
    obtain ⟨hfirst, hrest⟩ := List.forall_mem_append.1 hsame
    exact .append (alike_insertion hn hb hfirst) (ih hb hrest)
  | block head body rest ihbody ihrest =>
    intro blocks bindings hb hsame
    obtain ⟨hblock, hrest⟩ := List.forall_mem_append.1 hsame
    obtain ⟨hhead, hbody⟩ := List.forall_mem_append.1 hblock
    -- The body is evaluated for every element, under the bindings that its references are
    -- resolved through.
    have hfirst := alike_head hn hb (fun live => body.code (normalName contextName) live) hhead
      (fun _ hi => ihbody hi hbody) .nil
    exact .cons hfirst (ihrest hb hrest)
  | choice head body other rest ihbody ihother ihrest =>
    intro blocks bindings hb hsame
    obtain ⟨hblock, hrest⟩ := List.forall_mem_append.1 hsame
    obtain ⟨hbodies, hother⟩ := List.forall_mem_append.1 hblock
    obtain ⟨hhead, hbody⟩ := List.forall_mem_append.1 hbodies
    -- The block has no live binding in its other body.
    have hnames : bindings.map (·.1) = Blocks.names (none :: blocks) := hb
    have hinstead := alike_thunk (alike_joined (ihother hnames hother))
    have hfirst := alike_head hn hb (fun live => body.code (normalName contextName) live) hhead
      (fun _ hi => ihbody hi hbody) (.cons hinstead .nil)
    exact .cons hfirst (ihrest hb hrest)

end Alike

/-! ## What is compiled -/

namespace Compiled

end Compiled
end HtmlTemplate
