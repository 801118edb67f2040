import HtmlTemplate.Code.Eval
import HtmlTemplate.Proofs.Code.Names
import HtmlTemplate.Proofs.Render.Agree
import HtmlTemplate.Proofs.Template.Meaning

/-!
# Code — the expression of a template, and what it evaluates to

`Template.code` is the code of a template as expressions, the live bindings being those of the loops
around it.  Evaluated where every binding's variable holds its element, it comes to the texts of
the pieces that the template means (`Template.renders_code`), provided that the context's name hides
no helper.
-/

namespace HtmlTemplate

open Text

/-! ## Code -/

namespace Expr

def helperCall (h : Helper) (arguments : List Expr) : Expr := call (name h.name) arguments

/-- Texts that are joined. -/
def joined (items : List Expr) : Expr := call (member (literal "") "join") [tuple items]

/-- What reads a path from a variable. -/
def access (root : String) (path : List String) : Expr :=
  if path.isEmpty then name root else helperCall .lookup (name root :: path.map literal)

end Expr

/-- The bindings that are live in the first body of a block. -/
def Head.within (live : List String) : Head → List String
  | .conditional _ _ _ => live
  | .loop _ binding => binding :: live

section Code

variable (contextName : String) (live : List String)

/-- What reads a path. -/
def pathCode (path : String) : Expr :=
  match Path.segments path with
  | [] => .name contextName
  | head :: rest =>
    if head ∈ live then Expr.access (Binding.variableOf head) rest
    else Expr.access contextName (head :: rest)

/-- The segments of a composite value. -/
def segmentCode : Bool → List String → List Expr
  | _, [] => []
  | true, text :: rest =>
    if text.isEmpty then segmentCode false rest else .literal text :: segmentCode false rest
  | false, path :: rest =>
    Expr.helperCall .ifDefined [pathCode contextName live path] :: segmentCode true rest

/-- Segments with a quote behind the last one. -/
def closeQuote (segments : List String) : List String :=
  segments.dropLast ++ [segments.getLastD "" ++ "\""]

/-- A value between what stands before it in an attribute and the closing quote. -/
def attributeCode (key : String) : Expr :=
  .function (some "v") (.plus (.plus (.literal (" " ++ key ++ "=\"")) (.name "v")) (.literal "\""))

def Insertion.code : Insertion → List Expr
  | .raw text => [.literal text]
  | .body path => [Expr.helperCall .renderBody [pathCode contextName live path]]
  | .comment path => [Expr.helperCall .ifDefined [pathCode contextName live path]]
  | .composite segments => segmentCode contextName live true (Generate.quoteSegments segments)
  | .optional key path =>
    [Expr.helperCall .ifDefined [pathCode contextName live path, attributeCode key]]
  | .flag key path =>
    [Expr.helperCall .ifCheck
      [pathCode contextName live path, .function none (.literal (" " ++ key))]]

/-- The value that a conditional tests. -/
def testCode (path : String) (inverted emptiness : Bool) : Expr :=
  let value := pathCode contextName live path
  let value := if emptiness then Expr.helperCall .isNonempty [value] else value
  if inverted then .negation value else value

/-- The call of a block, `others` being the function of its other body. -/
def Head.code (head : Head) (body : List Expr) (others : List Expr) : Expr :=
  match head with
  | .conditional path inverted emptiness =>
    Expr.helperCall .ifCheck (testCode contextName live path inverted emptiness ::
      .function none (Expr.joined body) :: others)
  | .loop path binding =>
    Expr.helperCall .loop (pathCode contextName live path ::
      .function (some (Binding.variableOf binding)) (Expr.joined body) :: others)

end Code

/-- The code of a template, one expression for each piece of a body. -/
def Template.code (contextName : String) : List String → Template → List Expr
  | _, .done => []
  | live, .insert insertion rest => insertion.code contextName live ++ rest.code contextName live
  | live, .block head body rest =>
    head.code contextName live (body.code contextName (head.within live)) [] ::
      rest.code contextName live
  | live, .choice head body other rest =>
    head.code contextName live (body.code contextName (head.within live))
        [.function none (Expr.joined (other.code contextName live))] ::
      rest.code contextName live

/-! ## What is accepted -/

/-- A composite value starts and ends with text. -/
def Insertion.Sound : Insertion → Prop
  | .composite segments => segments.length % 2 = 1
  | _ => True

/-- A binding is a name whose variable may be used. -/
def Head.Sound : Head → Prop
  | .conditional _ _ _ => True
  | .loop _ binding =>
    Path.isName binding.toList = true ∧ isIdentifier (Binding.variableOf binding) = true

/-- Whether a template has code that can be written and read. -/
def Template.Sound : Template → Prop
  | .done => True
  | .insert insertion rest => insertion.Sound ∧ rest.Sound
  | .block head body rest => head.Sound ∧ body.Sound ∧ rest.Sound
  | .choice head body other rest => head.Sound ∧ body.Sound ∧ other.Sound ∧ rest.Sound

/-! ## Quotes -/

theorem quoteSegments_cons (first : String) (rest : List String) :
    Generate.quoteSegments (first :: rest) = closeQuote (("\"" ++ first) :: rest) := rfl

theorem closeQuote_cons_cons (first second : String) (rest : List String) :
    closeQuote (first :: second :: rest) = first :: closeQuote (second :: rest) := by
  unfold closeQuote
  rw [List.dropLast_cons_of_ne_nil (List.cons_ne_nil _ _), List.getLastD_cons, List.getLastD_cons,
    List.getLastD_cons, List.cons_append]

theorem closeQuote_singleton (text : String) : closeQuote [text] = [text ++ "\""] := rfl

/-! ## Evaluating -/

/-- The meaning of a text. -/
def Meaning.said (s : String) : Meaning := .value (.str s)

/-- What the variables of the code hold, under the bindings of a template. -/
def environment (contextName : String) (context : Value) (bindings : Bindings) : Env :=
  bindings.map (fun (b, v) => (Binding.variableOf b, v)) ++ [(normalName contextName, context)]

/-- What is rendered is told by what the expression means for the context. -/
theorem Expr.render_congr {e f : Expr} {contextName : String} {first second : Value}
    (h : e.eval (environment contextName first []) = f.eval (environment contextName second [])) :
    e.render contextName first = f.render contextName second :=
  congrArg (fun x : Render Meaning => (·.1) <$> (do (← x).asValue).run []) h

/-- Whether a helper can be called: the name of the context does not hide it, or it is excused that
calling the context fails. -/
def Reachable (excused : Prop) (contextName : String) (context : Value) (h : Helper) : Prop :=
  normalName contextName ≠ h.name ∨ excused ∧ context.isFunction = false

section Evaluating

open HtmlTemplate.Expr Meaning

variable {excused : Prop} {contextName : String} {context : Value} {bindings : Bindings}

theorem lookup_variableOf (hn : Generator.checkContextName contextName = .ok ()) (b : String) :
    (environment contextName context bindings).lookup (Binding.variableOf b) = bindings.lookup b := by
  unfold environment
  induction bindings with
  | nil =>
    have hne : (Binding.variableOf b == normalName contextName) = false :=
      beq_false_of_ne (Generator.normalName_ne_variableOf hn b).symm
    simp [List.lookup_cons, hne]
  | cons binding bindings ih =>
    obtain ⟨name, v⟩ := binding
    rw [List.map_cons, List.cons_append]
    -- Different bindings have different variables, so both lookups stop at the same place.
    by_cases h : b = name
    · subst h
      simp
    · have hb : (b == name) = false := beq_false_of_ne h
      have hv : (Binding.variableOf b == Binding.variableOf name) = false :=
        beq_false_of_ne fun he => h (Binding.variableOf_inj.1 he)
      rw [List.lookup_cons, List.lookup_cons, hb, hv]
      exact ih

/-- A name that is no variable means what it means at the end of the environment. -/
theorem lookup_of_not_variable {name : String} (h : ∀ b, name ≠ Binding.variableOf b) :
    (environment contextName context bindings).lookup name =
      [(normalName contextName, context)].lookup name := by
  unfold environment
  induction bindings with
  | nil => rfl
  | cons binding bindings ih =>
    have hb : (name == Binding.variableOf binding.1) = false := beq_false_of_ne (h binding.1)
    rw [List.map_cons, List.cons_append, List.lookup_cons, hb]
    exact ih

theorem lookup_context (hn : Generator.checkContextName contextName = .ok ()) :
    (environment contextName context bindings).lookup (normalName contextName) = some context := by
  rw [lookup_of_not_variable (Generator.normalName_ne_variableOf hn)]
  exact List.lookup_cons_self

theorem helper_ne_variableOf (h : Helper) (b : String) : h.name ≠ Binding.variableOf b :=
  fun he => h.name_not_startsLikeVariable (he ▸ Binding.startsLikeVariable_variableOf b)

theorem eval_helper_name {h : Helper} (hne : normalName contextName ≠ h.name) :
    ofName (environment contextName context bindings) h.name = return .helper h := by
  have hb : (h.name == normalName contextName) = false := beq_false_of_ne hne.symm
  unfold ofName
  rw [lookup_of_not_variable (helper_ne_variableOf h)]
  simp [List.lookup_cons, hb, h.ofName?_name]

theorem eval_hidden_name {h : Helper} (he : normalName contextName = h.name) :
    ofName (environment contextName context bindings) h.name = return .value context := by
  unfold ofName
  rw [lookup_of_not_variable (helper_ne_variableOf h)]
  simp [he]

/-- A value that is no function cannot be called. -/
theorem apply_value {v : Value} (hv : v.isFunction = false) (arguments : List Meaning) :
    (Meaning.value v).apply arguments = throw (.notCallable v.kind) := by
  cases v with
  | function result => cases hv
  | _ => rfl

/-- A call of a reachable helper does what the helper does. -/
theorem eval_helperCall {h : Helper} (hh : Reachable excused contextName context h)
    (arguments : List Expr) :
    Render.Agrees excused (eval (environment contextName context bindings) (helperCall h arguments))
      (do
        let meanings ← evalAll (environment contextName context bindings) arguments
        return .value (← applyHelper h meanings)) := by
  unfold helperCall
  rw [eval, eval]
  by_cases hne : normalName contextName = h.name
  · rcases hh with hh | ⟨he, hf⟩
    · exact absurd hne hh
    · rw [eval_hidden_name hne, pure_bind]
      intro p
      -- Arguments are evaluated before the call fails, and may stop it first.
      refine Or.inr ⟨he, ?_⟩
      simp only [apply_value hf]
      rw [StateT.run_bind]
      cases (evalAll (environment contextName context bindings) arguments).run p with
      | error fault => exact ⟨fault, rfl⟩
      | ok result => exact ⟨_, rfl⟩
  · rw [eval_helper_name hne, pure_bind]
    exact Render.Agrees.refl _

/-- In a hidden helper's place a context gives its text if it is a function, and nothing if not. -/
theorem ensures_hidden {h : Helper} (he : normalName contextName = h.name)
    (arguments : List Expr) :
    Render.Ensures (fun m => ∃ result, context = .function result ∧ m = .value (.str result))
      (eval (environment contextName context bindings) (helperCall h arguments)) := by
  rw [helperCall, eval, eval, eval_hidden_name he, pure_bind]
  refine (Render.Ensures.any _).bind fun meanings _ => ?_
  cases context with
  | function result => exact .pure ⟨result, rfl, rfl⟩
  | _ =>
    intro p m q hrun
    cases hrun

/-! ## Bodies -/

/-- Whether expressions come to texts that are, one after another, what `y` comes to. -/
def Renders (excused : Prop) (env : Env) (es : List Expr) (y : Render String) : Prop :=
  ∃ texts : Render (List String),
    Render.Agrees excused (evalAll env es) (List.map said <$> texts) ∧ String.join <$> texts = y

namespace Renders

variable {env : Env} {es fs : List Expr} {y z : Render String}

theorem nil : Renders excused env [] (return "") :=
  ⟨return [], .of_eq (by simp [evalAll]), by simp⟩

theorem single {e : Expr} (h : Render.Agrees excused (eval env e) (said <$> y)) :
    Renders excused env [e] y := by
  refine ⟨(fun s => [s]) <$> y, ?_, ?_⟩
  · have hbind := h.bind fun m => Render.Agrees.refl (return [m] : Render (List Meaning))
    refine Render.Agrees.trans (.of_eq ?_) (hbind.trans (.of_eq ?_))
    · simp [evalAll]
    · simp
  · simp

theorem congr (h : Renders excused env es y) (hyz : y = z) : Renders excused env es z := hyz ▸ h

theorem evalAll_append (env : Env) (es fs : List Expr) :
    evalAll env (es ++ fs) = do
      let first ← evalAll env es
      return first ++ (← evalAll env fs) := by
  induction es with
  | nil => simp [evalAll]
  | cons e es ih => simp [evalAll, ih]

theorem append (hes : Renders excused env es y) (hfs : Renders excused env fs z) :
    Renders excused env (es ++ fs) (do return (← y) ++ (← z)) := by
  obtain ⟨a, ha, rfl⟩ := hes
  obtain ⟨b, hb, rfl⟩ := hfs
  refine ⟨do return (← a) ++ (← b), ?_, ?_⟩
  · have hbind := ha.bind fun first =>
      hb.bind fun rest => Render.Agrees.refl (return first ++ rest : Render (List Meaning))
    refine Render.Agrees.trans (.of_eq (evalAll_append env es fs)) (hbind.trans (.of_eq ?_))
    simp
  · simp

theorem asValues_said (texts : List String) :
    asValues (texts.map said) = return texts.map Value.str := by
  induction texts with
  | nil => rfl
  | cons s texts ih => simp [asValues, asValue, said, ih]

theorem intercalate_empty (texts : List String) : "".intercalate texts = String.join texts := by
  induction texts with
  | nil => rfl
  | cons first rest ih =>
    cases rest with
    | nil => simp
    | cons second rest =>
      rw [String.intercalate_cons_cons, ih, String.append_empty]
      exact String.join_cons.symm

theorem joined_str (texts : List String) :
    Render.joined "" (texts.map Value.str) = return .str (String.join texts) := by
  have hmap : (texts.map Value.str).mapM Render.asText = (return texts : Render (List String)) := by
    induction texts with
    | nil => rfl
    | cons s texts ih => rw [List.map_cons, List.mapM_cons, ih]; simp [Render.asText, Value.chars?]
  unfold Render.joined
  rw [hmap, pure_bind, intercalate_empty]

/-- The texts of a body, joined. -/
theorem joined (h : Renders excused env es y) :
    Render.Agrees excused (eval env (Expr.joined es)) (said <$> y) := by
  obtain ⟨texts, htexts, rfl⟩ := h
  have hbind := htexts.bind fun meanings =>
    Render.Agrees.refl (do
      let v : Value := .tuple (← asValues meanings)
      (Meaning.joining "").apply [.value v])
  refine Render.Agrees.trans (.of_eq ?_) (hbind.trans (.of_eq ?_))
  · simp [Expr.joined, eval, evalAll, Meaning.member]
  · simp [asValues_said, Meaning.apply, joined_str, said]

end Renders

/-! ## Paths -/

theorem evalAll_literals (env : Env) (path : List String) :
    evalAll env (path.map literal) = return path.map said := by
  induction path with
  | nil => rfl
  | cons segment path ih => simp [evalAll, eval, ih, said]

theorem asPath_said (path : List String) : asPath (path.map said) = return path := by
  induction path with
  | nil => rfl
  | cons segment path ih => simp [asPath, asValue, said, Render.asText, Value.chars?, ih]

theorem ofName_of_lookup {env : Env} {root : String} {v : Value} (h : env.lookup root = some v) :
    ofName env root = return .value v := by
  unfold ofName
  rw [h]

/-- What reads a path from a variable follows it into the variable's value. -/
theorem eval_access (hh : Reachable excused contextName context .lookup) {root : String} {v : Value}
    (hl : (environment contextName context bindings).lookup root = some v) (path : List String) :
    Render.Agrees excused (eval (environment contextName context bindings) (access root path))
      (Meaning.value <$> Render.ofExcept (v.lookup path)) := by
  unfold access
  cases path with
  | nil =>
    refine Render.Agrees.of_eq ?_
    rw [List.isEmpty_nil, if_pos rfl, eval, ofName_of_lookup hl]
    rfl
  | cons segment path =>
    have hpath := asPath_said (segment :: path)
    rw [List.map_cons] at hpath
    refine (eval_helperCall hh _).trans (.of_eq ?_)
    rw [evalAll, eval, ofName_of_lookup hl, evalAll_literals]
    simp [applyHelper, hpath]

theorem mem_map_fst {head : String} : head ∈ bindings.map (·.1) ↔ (bindings.lookup head).isSome := by
  induction bindings with
  | nil => simp
  | cons binding bindings ih =>
    rw [List.map_cons, List.mem_cons, ih, List.lookup_cons]
    by_cases h : head = binding.1
    · simp [h]
    · simp [h, beq_false_of_ne h]

/-- What reads a path reads it as the template does. -/
theorem eval_pathCode (hn : Generator.checkContextName contextName = .ok ())
    (hh : Reachable excused contextName context .lookup) (bindings : Bindings) (path : String) :
    Render.Agrees excused
      (eval (environment contextName context bindings)
        (pathCode (normalName contextName) (bindings.map (·.1)) path))
      (Meaning.value <$> readPath context bindings path) := by
  unfold pathCode readPath
  cases Path.segments path with
  | nil =>
    refine Render.Agrees.of_eq ?_
    simp [eval, ofName_of_lookup (lookup_context hn)]
  | cons head rest =>
    cases hb : bindings.lookup head with
    | some element =>
      have hmem : head ∈ bindings.map (·.1) := mem_map_fst.2 (by simp [hb])
      simp only [if_pos hmem, hb]
      exact eval_access hh ((lookup_variableOf hn head).trans hb) rest
    | none =>
      have hmem : head ∉ bindings.map (·.1) := fun h => by simpa [hb] using mem_map_fst.1 h
      simp only [if_neg hmem, hb]
      exact eval_access hh (lookup_context hn) (head :: rest)

/-- A helper is called with a value first. -/
theorem eval_helperCall_value {h : Helper} (hh : Reachable excused contextName context h)
    {e : Expr} {x : Render Value}
    (he : Render.Agrees excused (eval (environment contextName context bindings) e)
      (Meaning.value <$> x))
    {arguments : List Expr} {meanings : List Meaning}
    (ha : evalAll (environment contextName context bindings) arguments = return meanings) :
    Render.Agrees excused
      (eval (environment contextName context bindings) (helperCall h (e :: arguments)))
      (do
        let v ← x
        return .value (← applyHelper h (.value v :: meanings))) := by
  refine (eval_helperCall hh _).trans ?_
  have hbind := he.bind fun m =>
    Render.Agrees.refl (do return Meaning.value (← applyHelper h (m :: meanings)))
  refine Render.Agrees.trans (.of_eq ?_) (hbind.trans (.of_eq ?_))
  · simp [evalAll, ha]
  · simp

end Evaluating

end HtmlTemplate
