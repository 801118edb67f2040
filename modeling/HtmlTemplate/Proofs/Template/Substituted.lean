import HtmlTemplate.Proofs.Template.Evaluation
import HtmlTemplate.Proofs.Template.Substitution

/-!
# Substituted — the code of a template with other paths

Code is evaluated under two lists of bindings, whose names need not be the same.  If every path
reads, substituted, under the second list what it reads under the first, then all the code of a
template does (`Template.sameAll_substitute`), as long as no loop in it binds a name that the
substitution brings in (`Fresh`).
-/

namespace HtmlTemplate

open Text

section Same

open HtmlTemplate.Expr Meaning

variable (contextName : String) (context : Value)

/-- Whether an expression means under some bindings what another one means under others. -/
def Same (first second : Bindings) (e f : Expr) : Prop :=
  eval (environment contextName context first) e = eval (environment contextName context second) f

def SameAll (first second : Bindings) (es fs : List Expr) : Prop :=
  evalAll (environment contextName context first) es =
    evalAll (environment contextName context second) fs

variable {contextName context} {first second : Bindings} {e f : Expr} {es fs es' fs' : List Expr}

theorem SameAll.nil : SameAll contextName context first second [] [] := rfl

theorem SameAll.cons (he : Same contextName context first second e f)
    (hes : SameAll contextName context first second es fs) :
    SameAll contextName context first second (e :: es) (f :: fs) := by
  unfold Same at he
  unfold SameAll at hes ⊢
  rw [evalAll, evalAll, he, hes]

theorem SameAll.append (hes : SameAll contextName context first second es fs)
    (hes' : SameAll contextName context first second es' fs') :
    SameAll contextName context first second (es ++ es') (fs ++ fs') := by
  unfold SameAll at hes hes' ⊢
  rw [Renders.evalAll_append, Renders.evalAll_append, hes, hes']

/-! ## Expressions -/

theorem same_literal (text : String) :
    Same contextName context first second (literal text) (literal text) := rfl

theorem sameAll_literals (path : List String) :
    SameAll contextName context first second (path.map literal) (path.map literal) := by
  unfold SameAll
  rw [evalAll_literals, evalAll_literals]

theorem same_thunk (he : Same contextName context first second e f) :
    Same contextName context first second (function none e) (function none f) := by
  unfold Same at he ⊢
  rw [eval, eval, he]

/-- The body of a loop means the same if it does for every element, whatever name it has. -/
theorem same_function {b b' : String}
    (he : ∀ v, Same contextName context ((b, v) :: first) ((b', v) :: second) e f) :
    Same contextName context first second (function (some (Binding.variableOf b)) e)
      (function (some (Binding.variableOf b')) f) := by
  unfold Same
  rw [eval, eval]
  have heach : ∀ v, eval ((Binding.variableOf b, v) :: environment contextName context first) e =
      eval ((Binding.variableOf b', v) :: environment contextName context second) f := he
  simp only [heach]

theorem same_negation (he : Same contextName context first second e f) :
    Same contextName context first second (negation e) (negation f) := by
  unfold Same at he ⊢
  rw [eval, eval, he]

theorem same_joined (hes : SameAll contextName context first second es fs) :
    Same contextName context first second (joined es) (joined fs) := by
  unfold SameAll at hes
  unfold Same
  simp only [joined, eval, evalAll, hes]

/-- What a helper's name means does not depend on the bindings. -/
theorem same_helperCall (h : Helper) (hes : SameAll contextName context first second es fs) :
    Same contextName context first second (helperCall h es) (helperCall h fs) := by
  unfold SameAll at hes
  unfold Same helperCall
  rw [eval, eval, eval, eval, hes]
  by_cases hhidden : normalName contextName = h.name
  · rw [eval_hidden_name hhidden, eval_hidden_name hhidden]
  · rw [eval_helper_name hhidden, eval_helper_name hhidden]

/-! ## Blocks -/

section Blocks

variable {live live' : List String} {path path' : String} {others others' : List Expr}

theorem same_conditional {inverted emptiness : Bool}
    (hpath : Same contextName context first second (pathCode (normalName contextName) live path)
      (pathCode (normalName contextName) live' path'))
    (hbody : SameAll contextName context first second es fs)
    (hothers : SameAll contextName context first second others others') :
    Same contextName context first second
      ((Head.conditional path inverted emptiness).code (normalName contextName) live es others)
      ((Head.conditional path' inverted emptiness).code (normalName contextName) live' fs
        others') := by
  have hvalue : Same contextName context first second
      (testCode (normalName contextName) live path false emptiness)
      (testCode (normalName contextName) live' path' false emptiness) := by
    cases emptiness with
    | false => exact hpath
    | true => exact same_helperCall .isNonempty (.cons hpath .nil)
  have htest : Same contextName context first second
      (testCode (normalName contextName) live path inverted emptiness)
      (testCode (normalName contextName) live' path' inverted emptiness) := by
    cases inverted with
    | false => exact hvalue
    | true => exact same_negation hvalue
  exact same_helperCall .ifCheck (.cons htest (.cons (same_thunk (same_joined hbody)) hothers))

theorem same_loop {b b' : String}
    (hpath : Same contextName context first second (pathCode (normalName contextName) live path)
      (pathCode (normalName contextName) live' path'))
    (hbody : ∀ v, SameAll contextName context ((b, v) :: first) ((b', v) :: second) es fs)
    (hothers : SameAll contextName context first second others others') :
    Same contextName context first second
      ((Head.loop path b).code (normalName contextName) live es others)
      ((Head.loop path' b').code (normalName contextName) live' fs others') := by
  have heach := same_function fun v => same_joined (hbody v)
  exact same_helperCall .loop (.cons hpath (.cons heach hothers))

end Blocks

/-! ## Paths -/

theorem same_access {root root' : String} {v : Value}
    (hroot : (environment contextName context first).lookup root = some v)
    (hroot' : (environment contextName context second).lookup root' = some v) (rest : List String) :
    Same contextName context first second (access root rest) (access root' rest) := by
  have hname : Same contextName context first second (name root) (name root') := by
    unfold Same
    rw [eval, eval, ofName_of_lookup hroot, ofName_of_lookup hroot']
  unfold access
  split
  · exact hname
  · exact same_helperCall .lookup (.cons hname (sameAll_literals rest))

variable (hn : Generator.checkContextName contextName = .ok ())

include hn

/-- Two paths read the same from the same element. -/
theorem same_pathCode_of_binding {b b' path path' : String} {rest : List String} {v : Value}
    (hpath : Path.segments path = b :: rest) (hpath' : Path.segments path' = b' :: rest)
    (hb : first.lookup b = some v) (hb' : second.lookup b' = some v) :
    Same contextName context first second
      (pathCode (normalName contextName) (first.map (·.1)) path)
      (pathCode (normalName contextName) (second.map (·.1)) path') := by
  have hmem : b ∈ first.map (·.1) := mem_map_fst.2 (by rw [hb]; rfl)
  have hmem' : b' ∈ second.map (·.1) := mem_map_fst.2 (by rw [hb']; rfl)
  unfold pathCode
  simp only [hpath, hpath', if_pos hmem, if_pos hmem']
  exact same_access ((lookup_variableOf hn b).trans hb) ((lookup_variableOf hn b').trans hb') rest

/-- A path reads the same from the context wherever its head is not bound. -/
theorem same_pathCode_of_context {b path path' : String} {rest : List String}
    (hpath : Path.segments path = b :: rest) (hpath' : Path.segments path' = b :: rest)
    (hb : first.lookup b = none) (hb' : second.lookup b = none) :
    Same contextName context first second
      (pathCode (normalName contextName) (first.map (·.1)) path)
      (pathCode (normalName contextName) (second.map (·.1)) path') := by
  have hmem : b ∉ first.map (·.1) := fun h => by simpa [hb] using mem_map_fst.1 h
  have hmem' : b ∉ second.map (·.1) := fun h => by simpa [hb'] using mem_map_fst.1 h
  unfold pathCode
  simp only [hpath, hpath', if_neg hmem, if_neg hmem']
  exact same_access (lookup_context hn) (lookup_context hn) _

/-- A path does not see a binding of another name. -/
theorem same_pathCode_cons {b path : String} (hb : Path.head path ≠ b) (v : Value) :
    Same contextName context ((b, v) :: first) first
      (pathCode (normalName contextName) (((b, v) :: first).map (·.1)) path)
      (pathCode (normalName contextName) (first.map (·.1)) path) := by
  have hskip : ((b, v) :: first).lookup (Path.head path) = first.lookup (Path.head path) := by
    rw [List.lookup_cons, beq_false_of_ne hb]
  cases hl : first.lookup (Path.head path) with
  | none =>
    exact same_pathCode_of_context hn (Path.segments_eq path) (Path.segments_eq path)
      (hskip.trans hl) hl
  | some w =>
    exact same_pathCode_of_binding hn (Path.segments_eq path) (Path.segments_eq path)
      (hskip.trans hl) hl

end Same

/-! ## Substitution -/

/-- Whether every path with a head from `heads` reads, substituted, under other bindings what it
reads under these. -/
def Transfers (contextName : String) (context : Value) (heads : String → Prop)
    (σ : String → String) (first second : Bindings) : Prop :=
  ∀ path, heads (Path.head path) → Same contextName context first second
    (pathCode (normalName contextName) (first.map (·.1)) path)
    (pathCode (normalName contextName) (second.map (·.1)) (Path.substitute σ path))

/-- Whether a binding takes no name from the substitutes of others. -/
def Fresh (heads : String → Prop) (σ : String → String) (binding : String) : Prop :=
  ∀ name, heads name → name ≠ binding → Path.head (σ name) ≠ binding

variable {heads : String → Prop} {σ : String → String} {binding : String}

/-- A binding is fresh among the substitutes under another loop too: what that one binds stands for
itself. -/
theorem Fresh.update (h : Fresh heads σ binding) {inner : String} (hinner : Path.Segment inner) :
    Fresh heads (Function.update σ inner inner) binding := by
  intro name hname hne
  by_cases he : name = inner
  · subst he
    rwa [Function.update_self, Path.head_of_segment hinner]
  · rw [Function.update_of_ne he]
    exact h name hname hne

/-- A template whose paths have their heads among `heads`, and whose loops bind nothing that
substitution brings in. -/
structure Template.Substitutable (heads : String → Prop) (σ : String → String) (t : Template) :
    Prop where
  paths : ∀ p ∈ t.parts, ∀ path ∈ p.paths, heads (Path.head path)
  bindings : ∀ binding, t.Binds binding → Fresh heads σ binding

namespace Template.Substitutable

variable {insertion : Insertion} {head : Head} {body other rest : Template}

theorem of_insert (h : (insert insertion rest).Substitutable heads σ) :
    (∀ path ∈ insertion.part.paths, heads (Path.head path)) ∧ rest.Substitutable heads σ := by
  obtain ⟨hfirst, hrest⟩ := List.forall_mem_cons.1 h.paths
  exact ⟨hfirst, hrest, fun binding hb => h.bindings binding (binds_insert.2 hb)⟩

theorem shadow {t : Template} (h : t.Substitutable heads σ) (hhead : head.Sound) :
    t.Substitutable heads (head.shadow σ) := by
  cases head with
  | conditional _ _ _ => exact h
  | loop path binding =>
    obtain ⟨hsegment, -⟩ := Binding.isName_iff.1 hhead.1
    exact ⟨h.paths, fun b hb => (h.bindings b hb).update hsegment⟩

theorem of_block (h : (block head body rest).Substitutable heads σ) (hhead : head.Sound) :
    (∀ path ∈ head.part.paths, heads (Path.head path)) ∧
      body.Substitutable heads (head.shadow σ) ∧ rest.Substitutable heads σ := by
  have hbody : body.Substitutable heads σ :=
    ⟨fun p hp => h.paths p (mem_parts_block.2 (.inr (.inl hp))),
      fun b hb => h.bindings b (binds_block.2 (.inr (.inl hb)))⟩
  have hrest : rest.Substitutable heads σ :=
    ⟨fun p hp => h.paths p (mem_parts_block.2 (.inr (.inr (.inr hp)))),
      fun b hb => h.bindings b (binds_block.2 (.inr (.inr hb)))⟩
  exact ⟨h.paths _ (mem_parts_block.2 (.inl rfl)), hbody.shadow hhead, hrest⟩

theorem of_choice (h : (choice head body other rest).Substitutable heads σ) (hhead : head.Sound) :
    (∀ path ∈ head.part.paths, heads (Path.head path)) ∧
      body.Substitutable heads (head.shadow σ) ∧ other.Substitutable heads σ ∧
        rest.Substitutable heads σ := by
  have hbody : body.Substitutable heads σ :=
    ⟨fun p hp => h.paths p (mem_parts_choice.2 (.inr (.inl hp))),
      fun b hb => h.bindings b (binds_choice.2 (.inr (.inl hb)))⟩
  have hother : other.Substitutable heads σ :=
    ⟨fun p hp => h.paths p (mem_parts_choice.2 (.inr (.inr (.inr (.inl hp))))),
      fun b hb => h.bindings b (binds_choice.2 (.inr (.inr (.inl hb))))⟩
  have hrest : rest.Substitutable heads σ :=
    ⟨fun p hp => h.paths p (mem_parts_choice.2 (.inr (.inr (.inr (.inr (.inr hp)))))),
      fun b hb => h.bindings b (binds_choice.2 (.inr (.inr (.inr hb))))⟩
  exact ⟨h.paths _ (mem_parts_choice.2 (.inl rfl)), hbody.shadow hhead, hother, hrest⟩

end Template.Substitutable

theorem closeQuote_substituteSegments : ∀ segments : List String, segments.length % 2 = 1 →
    closeQuote (substituteSegments σ true segments) =
      substituteSegments σ true (closeQuote segments)
  | [], h => absurd h (by simp)
  | [_], _ => rfl
  | [_, _], h => absurd h (by simp)
  | first :: path :: next :: rest, h => by
    have hodd : (next :: rest).length % 2 = 1 := by
      simp only [List.length_cons] at h ⊢
      omega
    have hrest := closeQuote_substituteSegments (next :: rest) hodd
    rw [closeQuote_cons_cons, closeQuote_cons_cons]
    exact (closeQuote_cons_cons first _ _).trans (congrArg (first :: ·)
      ((closeQuote_cons_cons _ next _).trans (congrArg (Path.substitute σ path :: ·) hrest)))

/-- Quotes stand around text, and no path changes them. -/
theorem quoteSegments_substituteSegments {segments : List String} (h : segments.length % 2 = 1) :
    Generate.quoteSegments (substituteSegments σ true segments) =
      substituteSegments σ true (Generate.quoteSegments segments) := by
  cases segments with
  | nil => cases h
  | cons first rest => exact closeQuote_substituteSegments (("\"" ++ first) :: rest) h

section Code

open HtmlTemplate.Expr Meaning

variable {contextName : String} {context : Value} {first second : Bindings}
  (hn : Generator.checkContextName contextName = .ok ())

include hn

/-- Under a fresh binding of the same name on both sides, paths read as before. -/
theorem Transfers.bind (h : Transfers contextName context heads σ first second)
    (hfresh : Fresh heads σ binding) (v : Value) :
    Transfers contextName context heads (Function.update σ binding binding)
      ((binding, v) :: first) ((binding, v) :: second) := by
  intro path hpath
  by_cases he : Path.head path = binding
  · -- The path leads into the new element, and is left alone.
    have hself : Function.update σ binding binding (Path.head path) = Path.head path := by
      rw [he, Function.update_self]
    rw [Path.substitute_of_eq hself]
    have hsegments := Path.segments_eq path
    rw [he] at hsegments
    exact same_pathCode_of_binding hn hsegments hsegments List.lookup_cons_self
      List.lookup_cons_self
  · -- The new binding is fresh: it catches neither the path nor what the path becomes.
    have hother : Path.substitute (Function.update σ binding binding) path =
        Path.substitute σ path := by
      unfold Path.substitute
      rw [Function.update_of_ne he]
    have hhead : Path.head (Path.substitute σ path) ≠ binding := by
      rw [Path.head_substitute]
      exact hfresh _ hpath he
    rw [hother]
    calc
      eval (environment contextName context ((binding, v) :: first)) _
      _ = eval (environment contextName context first) _ := same_pathCode_cons hn he v
      _ = eval (environment contextName context second) _ := h path hpath
      _ = _ := (same_pathCode_cons hn hhead v).symm

omit hn in
theorem sameAll_segmentCode (h : Transfers contextName context heads σ first second)
    {segments : List String} : ∀ {literal : Bool},
    (∀ path ∈ Generate.segmentPaths literal segments, heads (Path.head path)) →
    SameAll contextName context first second
      (segmentCode (normalName contextName) (first.map (·.1)) literal segments)
      (segmentCode (normalName contextName) (second.map (·.1)) literal
        (substituteSegments σ literal segments)) := by
  induction segments with
  | nil =>
    intro literal _
    cases literal <;> exact .nil
  | cons segment rest ih =>
    intro literal hheads
    cases literal with
    | true =>
      rw [substituteSegments, segmentCode, segmentCode]
      split
      · exact ih hheads
      · exact .cons (same_literal segment) (ih hheads)
    | false =>
      obtain ⟨hsegment, hrest⟩ := List.forall_mem_cons.1 hheads
      exact .cons (same_helperCall .ifDefined (.cons (h segment hsegment) .nil)) (ih hrest)

omit hn in
theorem sameAll_insertion (h : Transfers contextName context heads σ first second)
    {insertion : Insertion} (hsound : insertion.Sound)
    (hheads : ∀ path ∈ insertion.part.paths, heads (Path.head path)) :
    SameAll contextName context first second
      (insertion.code (normalName contextName) (first.map (·.1)))
      ((insertion.substitute σ).code (normalName contextName) (second.map (·.1))) := by
  -- Any of the others is one call of a helper with a path and what goes with it.
  have hcall : ∀ (helper : Helper) (path : String) {arguments : List Expr},
      (∀ q ∈ [path], heads (Path.head q)) →
      SameAll contextName context first second arguments arguments →
      SameAll contextName context first second
        [helperCall helper
          (pathCode (normalName contextName) (first.map (·.1)) path :: arguments)]
        [helperCall helper (pathCode (normalName contextName) (second.map (·.1))
          (Path.substitute σ path) :: arguments)] := by
    intro helper path arguments hpath ha
    exact .cons (same_helperCall helper (.cons (h path (hpath path List.mem_cons_self)) ha)) .nil
  cases insertion with
  | raw text => exact .cons (same_literal text) .nil
  | body path => exact hcall .renderBody path hheads .nil
  | comment path => exact hcall .ifDefined path hheads .nil
  | composite segments =>
    -- Quotes are literals, and bring no path with them.
    have hpaths : ∀ path ∈ Generate.segmentPaths true (Generate.quoteSegments segments),
        heads (Path.head path) := by
      rwa [Generate.segmentPaths_quoteSegments hsound]
    rw [Insertion.substitute, Insertion.code, Insertion.code,
      quoteSegments_substituteSegments hsound]
    exact sameAll_segmentCode h hpaths
  | optional key path =>
    refine hcall .ifDefined path hheads ?_
    unfold SameAll
    rw [evalAll_attributeCode, evalAll_attributeCode]
  | flag key path =>
    exact hcall .ifCheck path hheads (.cons (same_thunk (same_literal _)) .nil)

/-- A block means the same if its first body does wherever paths read the same. -/
theorem same_head (h : Transfers contextName context heads σ first second) {head : Head}
    (hheads : ∀ path ∈ head.part.paths, heads (Path.head path))
    (hfresh : ∀ binding, head.Binds binding → Fresh heads σ binding)
    (body body' : List String → List Expr) {others others' : List Expr}
    (hbody : ∀ inner inner' : Bindings,
      Transfers contextName context heads (head.shadow σ) inner inner' →
      SameAll contextName context inner inner' (body (inner.map (·.1))) (body' (inner'.map (·.1))))
    (hothers : SameAll contextName context first second others others') :
    Same contextName context first second
      (head.code (normalName contextName) (first.map (·.1)) (body (head.within (first.map (·.1))))
        others)
      ((head.substitute σ).code (normalName contextName) (second.map (·.1))
        (body' ((head.substitute σ).within (second.map (·.1)))) others') := by
  cases head with
  | conditional path inverted emptiness =>
    exact same_conditional (h path (hheads path List.mem_cons_self)) (hbody first second h) hothers
  | loop path binding =>
    refine same_loop (h path (hheads path List.mem_cons_self)) (fun v => ?_) hothers
    exact hbody ((binding, v) :: first) ((binding, v) :: second)
      (h.bind hn (hfresh binding ⟨path, rfl⟩) v)

/-- A template means, substituted, under other bindings what it means under these, if its paths
do. -/
theorem Template.sameAll_substitute (t : Template) :
    t.Sound → ∀ {σ : String → String} {first second : Bindings}, t.Substitutable heads σ →
      Transfers contextName context heads σ first second →
      SameAll contextName context first second
        (t.code (normalName contextName) (first.map (·.1)))
        ((t.substitute σ).code (normalName contextName) (second.map (·.1))) := by
  -- Below a loop the substitution leaves the loop's own binding alone, and the bindings grow by it.
  induction t with
  | done =>
    intro _ σ first second _ _
    exact .nil
  | insert insertion rest ih =>
    rintro ⟨hfirst, hrest⟩ σ first second ht h
    obtain ⟨hpaths, ht⟩ := ht.of_insert
    exact .append (sameAll_insertion h hfirst hpaths) (ih hrest ht h)
  | block head body rest ihbody ihrest =>
    rintro ⟨hhead, hbody, hrest⟩ σ first second ht h
    have hfresh := fun b (hb : head.Binds b) => ht.bindings b (binds_block.2 (.inl hb))
    obtain ⟨hpaths, htbody, htrest⟩ := ht.of_block hhead
    have hblock := same_head hn h hpaths hfresh
      (fun live => body.code (normalName contextName) live)
      (fun live => (body.substitute (head.shadow σ)).code (normalName contextName) live)
      (fun _ _ hi => ihbody hbody htbody hi) .nil
    exact .cons hblock (ihrest hrest htrest h)
  | choice head body other rest ihbody ihother ihrest =>
    rintro ⟨hhead, hbody, hother, hrest⟩ σ first second ht h
    have hfresh := fun b (hb : head.Binds b) => ht.bindings b (binds_choice.2 (.inl hb))
    obtain ⟨hpaths, htbody, htother, htrest⟩ := ht.of_choice hhead
    -- The other body has no element of the block's own.
    have hinstead := same_thunk (same_joined (ihother hother htother h))
    have hblock := same_head hn h hpaths hfresh
      (fun live => body.code (normalName contextName) live)
      (fun live => (body.substitute (head.shadow σ)).code (normalName contextName) live)
      (fun _ _ hi => ihbody hbody htbody hi) (.cons hinstead .nil)
    exact .cons hblock (ihrest hrest htrest h)

end Code

/-! ## References -/

namespace Reference

variable {blocks : Blocks} {path name : String} (a : Address) (required iterated : Bool)

/-- A path that starts with the innermost binding goes on from what that stands for. -/
theorem ofPath_cons_self (h : Path.head path = name) :
    ofPath (some (name, a) :: blocks) path required iterated =
      ⟨a, (Path.segments path).tail, required, iterated⟩ := by
  refine ofPath_of_some required iterated (Path.segments_eq path) ?_
  rw [Blocks.addressOf, if_pos h.symm]

/-- Any other path does not see it. -/
theorem ofPath_cons_of_ne (h : Path.head path ≠ name) :
    ofPath (some (name, a) :: blocks) path required iterated =
      ofPath blocks path required iterated := by
  have haddress : Blocks.addressOf ((Path.segments path).headD "") (some (name, a) :: blocks) =
      Blocks.addressOf ((Path.segments path).headD "") blocks := if_neg (Ne.symm h)
  unfold ofPath
  simp only [haddress]

end Reference

/-- Whether every path with a head from `heads` refers, substituted, in other blocks to what it
refers to in these. -/
def Resolves (heads : String → Prop) (σ : String → String) (first second : Blocks) : Prop :=
  ∀ path, heads (Path.head path) → ∀ required iterated,
    Reference.ofPath second (Path.substitute σ path) required iterated =
      Reference.ofPath first path required iterated

section References

variable {first second : Blocks}

theorem Resolves.bind (h : Resolves heads σ first second) (hfresh : Fresh heads σ binding)
    (a : Address) : Resolves heads (Function.update σ binding binding)
      (some (binding, a) :: first) (some (binding, a) :: second) := by
  intro path hpath required iterated
  by_cases he : Path.head path = binding
  · have hself : Function.update σ binding binding (Path.head path) = Path.head path := by
      rw [he, Function.update_self]
    rw [Path.substitute_of_eq hself, Reference.ofPath_cons_self a required iterated he,
      Reference.ofPath_cons_self a required iterated he]
  · have hother : Path.substitute (Function.update σ binding binding) path =
        Path.substitute σ path := by
      unfold Path.substitute
      rw [Function.update_of_ne he]
    have hhead : Path.head (Path.substitute σ path) ≠ binding := by
      rw [Path.head_substitute]
      exact hfresh _ hpath he
    rw [hother, Reference.ofPath_cons_of_ne a required iterated hhead, h path hpath,
      Reference.ofPath_cons_of_ne a required iterated he]

theorem Resolves.insertion (h : Resolves heads σ first second) {insertion : Insertion}
    (hsound : insertion.Sound) (hheads : ∀ path ∈ insertion.part.paths, heads (Path.head path)) :
    (insertion.substitute σ).references second = insertion.references first := by
  have hone : ∀ {path : String}, (∀ q ∈ [path], heads (Path.head q)) →
      [Reference.ofPath second (Path.substitute σ path) false false] =
        [Reference.ofPath first path false false] := by
    intro path hpath
    rw [h path (hpath path List.mem_cons_self)]
  cases insertion with
  | raw text => rfl
  | body path => exact hone hheads
  | comment path => exact hone hheads
  | composite segments =>
    have hpaths : ∀ path ∈ Generate.segmentPaths true (Generate.quoteSegments segments),
        heads (Path.head path) := by
      rwa [Generate.segmentPaths_quoteSegments hsound]
    rw [Insertion.substitute, Insertion.references, Insertion.references,
      quoteSegments_substituteSegments hsound, segmentPaths_substituteSegments, List.map_map]
    exact List.map_congr_left fun path hp => h path (hpaths path hp) true false
  | optional key path => exact hone hheads
  | flag key path => exact hone hheads

theorem Resolves.head (h : Resolves heads σ first second) {head : Head}
    (hheads : ∀ path ∈ head.part.paths, heads (Path.head path)) :
    (head.substitute σ).references second = head.references first := by
  cases head with
  | conditional path _ _ =>
    have hpath := h path (hheads path List.mem_cons_self)
    simp only [Head.substitute, Head.references, hpath]
  | loop path _ =>
    have hpath := h path (hheads path List.mem_cons_self)
    simp only [Head.substitute, Head.references, hpath]

/-- In the first body of a block, paths refer to the same too. -/
theorem Resolves.blocks (h : Resolves heads σ first second) {head : Head}
    (hheads : ∀ path ∈ head.part.paths, heads (Path.head path))
    (hfresh : ∀ binding, head.Binds binding → Fresh heads σ binding) :
    Resolves heads (head.shadow σ) (head.blocks first) ((head.substitute σ).blocks second) := by
  cases head with
  | conditional _ _ _ => exact h
  | loop path binding =>
    have hpath := h path (hheads path List.mem_cons_self) false true
    rw [Head.substitute, Head.blocks, Head.blocks, hpath]
    exact h.bind (hfresh binding ⟨path, rfl⟩) _

/-- A template reads, substituted, in other blocks what it reads in these, if its paths do. -/
theorem Template.references_substitute (t : Template) :
    t.Sound → ∀ {σ : String → String} {first second : Blocks}, t.Substitutable heads σ →
      Resolves heads σ first second → (t.substitute σ).references second = t.references first := by
  induction t with
  | done =>
    intro _ σ first second _ _
    rfl
  | insert insertion rest ih =>
    rintro ⟨hfirst, hrest⟩ σ first second ht h
    obtain ⟨hpaths, ht⟩ := ht.of_insert
    rw [substitute, references, references, h.insertion hfirst hpaths, ih hrest ht h]
  | block head body rest ihbody ihrest =>
    rintro ⟨hhead, hbody, hrest⟩ σ first second ht h
    have hfresh := fun b (hb : head.Binds b) => ht.bindings b (binds_block.2 (.inl hb))
    obtain ⟨hpaths, htbody, htrest⟩ := ht.of_block hhead
    rw [substitute, references, references, h.head hpaths,
      ihbody hbody htbody (h.blocks hpaths hfresh), ihrest hrest htrest h]
  | choice head body other rest ihbody ihother ihrest =>
    rintro ⟨hhead, hbody, hother, hrest⟩ σ first second ht h
    have hfresh := fun b (hb : head.Binds b) => ht.bindings b (binds_choice.2 (.inl hb))
    obtain ⟨hpaths, htbody, htother, htrest⟩ := ht.of_choice hhead
    -- An else is a block that binds nothing, so no path sees it.
    have hinstead : Resolves heads σ (none :: first) (none :: second) := h
    rw [substitute, references, references, h.head hpaths,
      ihbody hbody htbody (h.blocks hpaths hfresh), ihother hother htother hinstead,
      ihrest hrest htrest h]

end References

end HtmlTemplate
