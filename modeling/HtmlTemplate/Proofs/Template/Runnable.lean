import HtmlTemplate.Proofs.Code.Closed
import HtmlTemplate.Proofs.Template.Compiled

/-!
# Runnable — the expression of a template can be run

The code of a template reads the context, the variables of the loops around it, helpers, and nothing
else (`Template.closedAll_code`).  Its functions bind the variables of loops, and a name of their
own in the frame of an attribute (`Template.mem_parameters_code`).  One binding has a variable that
no function may bind, and it is accepted like any other, so that what is compiled can be run exactly
if no loop has this binding (`Compiled.runs_iff`).
-/

namespace HtmlTemplate

open Text

/-! ## Parameters -/

/-- The names that the code of a part binds: the frame of an attribute has a parameter for the text
in it, and a loop has one for its element. -/
def Part.parameters : Part → List String
  | .optional _ _ => ["v"]
  | .loop _ binding => [Binding.variableOf binding]
  | _ => []

section Parameters

open HtmlTemplate.Expr

variable (contextName : String) (live : List String)

theorem parameters_helperCall (h : Helper) (arguments : List Expr) :
    (helperCall h arguments).parameters = parametersOfAll arguments := rfl

theorem parameters_joined (items : List Expr) :
    (joined items).parameters = parametersOfAll items := by
  simp [joined, parameters, parametersOfAll]

theorem parameters_access (root : String) (path : List String) :
    (access root path).parameters = [] := by
  have hliterals : parametersOfAll (path.map literal) = [] := by
    induction path with
    | nil => rfl
    | cons segment path ih => simpa [parametersOfAll, parameters] using ih
  unfold access
  split
  · rfl
  · simp [parameters_helperCall, parametersOfAll, parameters, hliterals]

theorem parameters_pathCode (path : String) :
    (pathCode contextName live path).parameters = [] := by
  unfold pathCode
  split
  · rfl
  · split <;> exact parameters_access _ _

theorem parameters_segmentCode (segments : List String) : ∀ literal : Bool,
    parametersOfAll (segmentCode contextName live literal segments) = [] := by
  induction segments with
  | nil =>
    intro literal
    cases literal <;> rfl
  | cons segment rest ih =>
    intro literal
    cases literal with
    | true =>
      rw [segmentCode]
      split
      · exact ih false
      · simpa [parametersOfAll, parameters] using ih false
    | false =>
      simpa [segmentCode, parametersOfAll, parameters_helperCall, parameters_pathCode] using ih true

theorem parameters_insertion (insertion : Insertion) :
    parametersOfAll (insertion.code contextName live) = insertion.part.parameters := by
  cases insertion with
  | composite segments => exact parameters_segmentCode contextName live _ true
  | _ =>
    simp [Insertion.code, Insertion.part, Part.parameters, parametersOfAll, parameters,
      parameters_helperCall, parameters_pathCode, attributeCode]

theorem parameters_testCode (path : String) (inverted emptiness : Bool) :
    (testCode contextName live path inverted emptiness).parameters = [] := by
  cases inverted <;> cases emptiness <;>
    simp [testCode, parameters, parameters_helperCall, parametersOfAll, parameters_pathCode]

theorem parameters_head (head : Head) (body others : List Expr) :
    (head.code contextName live body others).parameters =
      head.part.parameters ++ parametersOfAll body ++ parametersOfAll others := by
  cases head <;>
    simp [Head.code, Head.part, Part.parameters, parameters_helperCall, parametersOfAll, parameters,
      parameters_joined, parameters_testCode, parameters_pathCode]

/-- The code of a template binds what its parts bind, in their order. -/
theorem Template.parameters_code (t : Template) : ∀ live : List String,
    parametersOfAll (t.code contextName live) = t.parts.flatMap Part.parameters := by
  induction t with
  | done =>
    intro live
    rfl
  | insert insertion rest ih =>
    intro live
    simp [Template.code, Template.parts, parametersOfAll_append, parameters_insertion, ih]
  | block head body rest ihbody ihrest =>
    intro live
    have hclose : Part.parameters .close = [] := rfl
    simp [Template.code, Template.parts, parametersOfAll, parameters_head, ihbody, ihrest, hclose]
  | choice head body other rest ihbody ihother ihrest =>
    intro live
    have hclose : Part.parameters .close = [] := rfl
    have helse : Part.parameters .otherwise = [] := rfl
    simp [Template.code, Template.parts, parametersOfAll, parameters, parameters_head,
      parameters_joined, ihbody, ihother, ihrest, hclose, helse]

end Parameters

/-! ## Names that are read -/

section Names

open HtmlTemplate.Expr

/-- Whether the context and the variables of the live bindings are bound. -/
def Binds (contextName : String) (live bound : List String) : Prop :=
  contextName ∈ bound ∧ ∀ b ∈ live, Binding.variableOf b ∈ bound

variable {contextName : String} {live bound : List String}

/-- The first body of a block runs where the block's own binding is bound too. -/
theorem Binds.within (h : Binds contextName live bound) (path binding : String) :
    Binds contextName ((Head.loop path binding).within live)
      (Binding.variableOf binding :: bound) := by
  refine ⟨List.mem_cons_of_mem _ h.1, ?_⟩
  intro b hb
  rcases List.mem_cons.1 hb with rfl | hb
  · exact List.mem_cons_self
  · exact List.mem_cons_of_mem _ (h.2 b hb)

theorem closed_helperCall (h : Helper) {arguments : List Expr} (ha : ClosedAll bound arguments) :
    (helperCall h arguments).Closed bound := ⟨closed_helper bound h, ha⟩

theorem closed_joined {items : List Expr} (hi : ClosedAll bound items) :
    (joined items).Closed bound := ⟨trivial, hi, trivial⟩

theorem closed_access {root : String} (hroot : root ∈ bound) (path : List String) :
    (access root path).Closed bound := by
  have hliterals : ClosedAll bound (path.map literal) := by
    induction path with
    | nil => trivial
    | cons segment path ih => exact ⟨trivial, ih⟩
  unfold access
  split
  · exact Or.inl hroot
  · exact closed_helperCall .lookup ⟨Or.inl hroot, hliterals⟩

theorem closed_pathCode (h : Binds contextName live bound) (path : String) :
    (pathCode contextName live path).Closed bound := by
  unfold pathCode
  split
  · exact Or.inl h.1
  · rename_i head rest _
    split
    · rename_i hmem
      exact closed_access (h.2 head hmem) rest
    · exact closed_access h.1 (head :: rest)

theorem closedAll_segmentCode (h : Binds contextName live bound) (segments : List String) :
    ∀ literal : Bool, ClosedAll bound (segmentCode contextName live literal segments) := by
  induction segments with
  | nil =>
    intro literal
    cases literal <;> trivial
  | cons segment rest ih =>
    intro literal
    cases literal with
    | true =>
      rw [segmentCode]
      split
      · exact ih false
      · exact ⟨trivial, ih false⟩
    | false => exact ⟨closed_helperCall .ifDefined ⟨closed_pathCode h segment, trivial⟩, ih true⟩

theorem closedAll_insertion (h : Binds contextName live bound) (insertion : Insertion) :
    ClosedAll bound (insertion.code contextName live) := by
  have hcall : ∀ (helper : Helper) (path : String) {arguments : List Expr},
      ClosedAll bound arguments →
      ClosedAll bound [helperCall helper (pathCode contextName live path :: arguments)] :=
    fun helper path _ ha => ⟨closed_helperCall helper ⟨closed_pathCode h path, ha⟩, trivial⟩
  cases insertion with
  | raw text => exact ⟨trivial, trivial⟩
  | body path => exact hcall .renderBody path trivial
  | comment path => exact hcall .ifDefined path trivial
  | composite segments => exact closedAll_segmentCode h _ true
  | optional key path =>
    -- The frame reads its own parameter, between two literals.
    have hframe : (attributeCode key).Closed bound :=
      ⟨⟨trivial, Or.inl List.mem_cons_self⟩, trivial⟩
    exact hcall .ifDefined path ⟨hframe, trivial⟩
  | flag key path =>
    have hkey : (function none (literal (" " ++ key))).Closed bound := trivial
    exact hcall .ifCheck path ⟨hkey, trivial⟩

theorem closed_testCode (h : Binds contextName live bound) (path : String)
    (inverted emptiness : Bool) :
    (testCode contextName live path inverted emptiness).Closed bound := by
  have hpath := closed_pathCode h path
  have hone : ClosedAll bound [pathCode contextName live path] := ⟨hpath, trivial⟩
  have hcall := closed_helperCall .isNonempty hone
  cases inverted <;> cases emptiness <;> assumption

theorem closed_head (h : Binds contextName live bound) (head : Head) {body others : List Expr}
    (hbody : ∀ inner, Binds contextName (head.within live) inner → ClosedAll inner body)
    (hothers : ClosedAll bound others) :
    (head.code contextName live body others).Closed bound := by
  cases head with
  | conditional path inverted emptiness =>
    have harguments : ClosedAll bound (testCode contextName live path inverted emptiness ::
        function none (joined body) :: others) :=
      ⟨closed_testCode h path inverted emptiness, closed_joined (hbody bound h), hothers⟩
    exact closed_helperCall .ifCheck harguments
  | loop path binding =>
    have harguments : ClosedAll bound (pathCode contextName live path ::
        function (some (Binding.variableOf binding)) (joined body) :: others) :=
      ⟨closed_pathCode h path, closed_joined (hbody _ (h.within path binding)), hothers⟩
    exact closed_helperCall .loop harguments

/-- The code of a template reads nothing but the context, the variables around it, and helpers. -/
theorem Template.closedAll_code (t : Template) : ∀ {live bound : List String},
    Binds contextName live bound → ClosedAll bound (t.code contextName live) := by
  induction t with
  | done =>
    intro live bound _
    trivial
  | insert insertion rest ih =>
    intro live bound h
    exact (closedAll_insertion h insertion).append (ih h)
  | block head body rest ihbody ihrest =>
    intro live bound h
    have hnone : ClosedAll bound [] := trivial
    exact ⟨closed_head h head (fun _ hi => ihbody hi) hnone, ihrest h⟩
  | choice head body other rest ihbody ihother ihrest =>
    intro live bound h
    -- The other body runs where the block's binding is not bound.
    have hother : ClosedAll bound [function none (joined (other.code contextName live))] :=
      ⟨closed_joined (ihother h), trivial⟩
    exact ⟨closed_head h head (fun _ hi => ihbody hi) hother, ihrest h⟩

end Names

/-! ## The binding that cannot be bound -/

/-- The binding whose variable is the reserved name. -/
def Binding.unbindable : String := "$ebug_"

theorem Binding.variableOf_unbindable : variableOf unbindable = Expr.reservedName := by decide

/-- A part binds the reserved name exactly if it is a loop with that binding. -/
theorem Part.mem_parameters_reserved {p : Part} :
    Expr.reservedName ∈ p.parameters ↔ ∃ path, p = .loop path Binding.unbindable := by
  cases p with
  | loop path binding =>
    rw [Part.parameters, List.mem_singleton, ← Binding.variableOf_unbindable, Binding.variableOf_inj]
    constructor
    · rintro rfl
      exact ⟨path, rfl⟩
    · rintro ⟨other, h⟩
      cases h
      rfl
  | optional key path =>
    have hne : Expr.reservedName ≠ "v" := by decide
    simp [Part.parameters, hne]
  | _ => simp [Part.parameters]

/-- The code of a template binds the reserved name exactly if one of its loops does. -/
theorem Template.mem_parameters_reserved (contextName : String) (t : Template) :
    Expr.reservedName ∈ (Expr.joined (t.code contextName [])).parameters ↔
      ∃ path, Part.loop path Binding.unbindable ∈ t.parts := by
  rw [parameters_joined, t.parameters_code, List.mem_flatMap]
  constructor
  · rintro ⟨p, hp, hmem⟩
    obtain ⟨path, rfl⟩ := Part.mem_parameters_reserved.1 hmem
    exact ⟨path, hp⟩
  · rintro ⟨path, hp⟩
    exact ⟨_, hp, Part.mem_parameters_reserved.2 ⟨path, rfl⟩⟩

/-! ## What is compiled -/

namespace Compiled

/-- What is compiled cannot be run if a loop has the binding whose variable is reserved. -/
theorem code_unbindable {name path : String} {ps : List Part} {c : Compiled}
    (hc : ofParts name ps = .ok c) (hmem : Part.loop path Binding.unbindable ∈ ps) :
    c.code = .error (.reservedParameter Expr.reservedName) := by
  obtain ⟨t, ht, -⟩ := exists_template hc
  obtain rfl : t.parts = ps := Template.ofParts?_eq_some_iff.1 ht
  rw [code_parts hc, Expr.bindable_eq, if_pos]
  exact (t.mem_parameters_reserved _).2 ⟨path, hmem⟩

/-- Any other template runs as its code. -/
theorem code_bindable {name : String} {t : Template} {c : Compiled}
    (hc : ofParts name t.parts = .ok c) (hno : ∀ path, Part.loop path Binding.unbindable ∉ t.parts) :
    c.code = .ok (Expr.joined (t.code (normalName name) [])) := by
  rw [code_parts hc, Expr.bindable_eq, if_neg]
  intro hmem
  obtain ⟨path, hpath⟩ := (t.mem_parameters_reserved _).1 hmem
  exact hno path hpath

/-- Whatever is compiled for a context of an ASCII name is one expression, which reads the context,
the variables of the loops around and helpers, and has parameters that may be used.  It can be run
exactly if no loop has the binding whose variable is reserved. -/
theorem runs_iff {config : Config} {source : String} {c : Compiled}
    (hascii : config.contextName.toList.all (·.toNat < 0x80) = true)
    (hc : ofSource config source = .ok c) :
    ∃ ps e, templateOf config source = .ok ps ∧ c.contextName = config.contextName ∧
      Expr.ofText c.expression = .ok e ∧ e.Closed [c.contextName] ∧
      (∀ p ∈ c.contextName :: e.parameters, Expr.Usable p) ∧ c.contextName ≠ Expr.reservedName ∧
      (c.code = .ok e ↔ ∀ path, Part.loop path Binding.unbindable ∉ ps) ∧
      (∀ path, Part.loop path Binding.unbindable ∈ ps →
        c.code = .error (.reservedParameter Expr.reservedName)) := by
  obtain ⟨ps, hps, hparts⟩ := ofSource_ok hc
  obtain ⟨hn, hname, -⟩ := ofParts_ok hparts
  obtain ⟨t, ht, hsound, htext⟩ := exists_template hparts
  obtain rfl : t.parts = ps := Template.ofParts?_eq_some_iff.1 ht
  obtain ⟨husable, hvariable, -⟩ := Generator.checkContextName_ok hn
  have hbound : Binds config.contextName [] [config.contextName] :=
    ⟨List.mem_singleton_self _, fun _ hb => absurd hb List.not_mem_nil⟩
  have hnamed : Named [] := fun _ hb => absurd hb List.not_mem_nil
  obtain ⟨hwritable, -⟩ := Expr.readAs_joined (readAsAll_code husable t hsound [] hnamed)
  have hruns : c.code = .ok (Expr.joined (t.code (normalName config.contextName) [])) ↔
      ∀ path, Part.loop path Binding.unbindable ∉ t.parts := by
    constructor
    · intro h path hmem
      rw [code_unbindable hparts hmem] at h
      cases h
    · intro hno
      exact code_bindable hparts hno
  rw [normalName_ascii hascii] at htext hruns
  rw [hname]
  refine ⟨t.parts, _, hps, rfl, htext, closed_joined (t.closedAll_code hbound), ?_, ?_, hruns, ?_⟩
  · exact List.forall_mem_cons.2 ⟨husable, Expr.usable_parameters _ hwritable⟩
  · -- The reserved name starts like a variable, and the name of a context does not.
    rintro he
    rw [he] at hvariable
    exact hvariable rfl
  · intro path hmem
    exact code_unbindable hparts hmem

/-- A loop, and what its element is read from. -/
theorem runs_loop :
    ∃ c e, ofSource {} (inBraces ">xs x" ++ inBraces "x" ++ inBraces "<") = .ok c ∧
      c.code = .ok e ∧ e.Closed ["context"] := by
  have hps : templateOf {} (inBraces ">xs x" ++ inBraces "x" ++ inBraces "<") =
      .ok [.loop "xs" "x", .body "x", .close] := by with_unfolding_all rfl
  obtain ⟨c, hc⟩ : ∃ c, ofParts "context" [.loop "xs" "x", .body "x", .close] = .ok c := ⟨_, rfl⟩
  have hsource := ofSource_of_parts hps hc
  obtain ⟨ps, e, hqs, hname, -, hclosed, -, -, hruns, -⟩ := runs_iff (by decide) hsource
  obtain rfl := Except.ok.inj (hps.symm.trans hqs)
  have hcode : c.code = .ok e := hruns.2 fun path => by simp [Binding.unbindable]
  rw [hname] at hclosed
  exact ⟨c, e, hsource, hcode, hclosed⟩

/-- A loop may be compiled and still not run. -/
theorem not_runs_unbindable : ∃ c, ofSource {} (inBraces ">a $ebug_" ++ inBraces "<") = .ok c ∧
    c.code = .error (.reservedParameter "__debug__") := by
  have hps : templateOf {} (inBraces ">a $ebug_" ++ inBraces "<") =
      .ok [.loop "a" "$ebug_", .close] := by with_unfolding_all rfl
  obtain ⟨c, hc⟩ : ∃ c, ofParts "context" [.loop "a" "$ebug_", .close] = .ok c := ⟨_, rfl⟩
  have hsource := ofSource_of_parts hps hc
  exact ⟨c, hsource, code_unbindable hc List.mem_cons_self⟩

end Compiled

end HtmlTemplate
