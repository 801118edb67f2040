import HtmlTemplate.Compile
import HtmlTemplate.Proofs.Render.Ensures
import HtmlTemplate.Proofs.Template.Runnable
import HtmlTemplate.Proofs.Value.Resemblance

/-!
# Privacy — hidden members make no difference

Contexts that differ in hidden members alone are rendered to the same
(`Compiled.render_eq_of_resembles`).
Nothing depends on the code's coming from a template: whatever an expression means, it means the
like where its names hold values that resemble each other (`Expr.eval_resembles`), because every
helper gives the like for arguments that resemble each other (`Meaning.applyHelper_resembles`).
-/

namespace HtmlTemplate

open Text

/-! ## Values as markup -/

namespace Render

variable {v w : Value}

theorem escaped_eq (h : v.Resembles w) : escaped v = escaped w := by
  unfold escaped
  rw [h.text_eq]

theorem asText_eq (h : v.Resembles w) : asText v = asText w := by
  unfold asText
  rw [h.chars?_eq]

/-- What is no iterator can be asked as often as one likes. -/
theorem isNonempty_of_not_iterator (hv : ∀ id items, v ≠ .iterator id items) :
    isNonempty v =
      if v.isIterable then
        match v.size? with
        | some size => do return 0 < (← ofExcept size)
        | none =>
          if v.items?.any (!·.isEmpty) then return true
          else do
            ended v.breaksOff
            return false
      else return false := by
  cases v with
  | iterator id items => exact absurd rfl (hv id items)
  | _ => rfl

theorem eachOf_of_not_iterator {α : Type} (hv : ∀ id items, v ≠ .iterator id items)
    (each : Value → Render α) :
    eachOf v each =
      match v.items? with
      | some items => do
        let results ← eachItem each items
        ended v.breaksOff
        return results
      | none => return [] := by
  cases v with
  | iterator id items => exact absurd rfl (hv id items)
  | _ => rfl

mutual

theorem body_eq : ∀ (v : Value) {w : Value}, v.Resembles w → body v = body w
  | .list items, _, h => by
    cases h with
    | refl => rfl
    | list h => rw [body, body, bodyAfter_eq items h false]
  | .tuple items, _, h => by
    cases h with
    | refl => rfl
    | tuple h => rw [body, body, bodyAfter_eq items h false]
  | .dict entries, _, h => by
    cases h with
    | refl => rfl
    | dict hkeys _ => rw [body, body, bodyKeys_eq entries hkeys]
  | .iterator _ items, _, h => by
    cases h with
    | refl => rfl
    | iterator _ h => simp only [body, h.length_eq, bodyAfter_eq items h]
  | .object traits _ (some items), _, h => by
    cases h with
    | refl => rfl
    | object _ _ _ h =>
      cases h with
      | some h =>
        rw [body, body, bodyAfter_eq items h]
        rfl
    | mapping _ _ h =>
      cases h with
      | some h => rw [body, body, bodyAfter_eq items h]
  | .object traits _ none, _, h => by
    have hescaped := escaped_eq h
    cases h with
    | refl => rfl
    | object _ _ _ h =>
      cases h
      exact hescaped
    | mapping _ _ h =>
      cases h
      exact hescaped
  | .none, _, h => by cases h; rfl
  | .bool _, _, h => by cases h; rfl
  | .int _, _, h => by cases h; rfl
  | .float _, _, h => by cases h; rfl
  | .str _, _, h => by cases h; rfl
  | .markup _, _, h => by cases h; rfl
  | .bytes _, _, h => by cases h; rfl
  | .range _ _ _, _, h => by cases h; rfl
  | .function _, _, h => by cases h; rfl

theorem bodyAfter_eq : ∀ (vs : List Value) {ws : List Value}, Value.ResembleAll vs ws →
    ∀ breaksOff n, bodyAfter breaksOff n vs = bodyAfter breaksOff n ws
  | [], _, h, breaksOff, n => by
    cases h
    rfl
  | v :: vs, _, h, breaksOff, 0 => by
    cases h with
    | cons hv hvs => rw [bodyAfter, bodyAfter, body_eq v hv, bodyAfter_eq vs hvs breaksOff 0]
  | v :: vs, _, h, breaksOff, n + 1 => by
    cases h with
    | cons hv hvs => rw [bodyAfter, bodyAfter, bodyAfter_eq vs hvs breaksOff n]

theorem bodyKeys_eq : ∀ (entries : List (Value × Value)) {entries' : List (Value × Value)},
    Value.ResembleAll (entries.map (·.1)) (entries'.map (·.1)) →
    bodyKeys entries = bodyKeys entries'
  | [], [], _ => rfl
  | [], _ :: _, h => by cases h
  | _ :: _, [], h => by cases h
  | (k, v) :: rest, (k', v') :: rest', h => by
    cases h with
    | cons hk hkeys => rw [bodyKeys, bodyKeys, body_eq k hk, bodyKeys_eq rest hkeys]

end

theorem isNonempty_eq (h : v.Resembles w) : isNonempty v = isNonempty w := by
  have hany : (v.items?.any fun items => !items.isEmpty) =
      w.items?.any fun items => !items.isEmpty := by
    have hitems := h.items?
    generalize v.items? = vs? at hitems ⊢
    generalize w.items? = ws? at hitems ⊢
    cases hitems with
    | none => rfl
    | some hitems => cases hitems <;> rfl
  by_cases hv : ∃ id items, v = .iterator id items
  · obtain ⟨id, items, rfl⟩ := hv
    obtain ⟨items', rfl, hitems⟩ := h.of_iterator
    simp only [isNonempty, hitems.length_eq]
  · have hv' : ∀ id items, v ≠ .iterator id items := fun id items hi => hv ⟨id, items, hi⟩
    rw [isNonempty_of_not_iterator hv', isNonempty_of_not_iterator (h.not_iterator hv'),
      h.isIterable_eq, h.size?_eq, hany, h.breaksOff_eq]

theorem joined_eq (separator : String) {vs ws : List Value} (h : Value.ResembleAll vs ws) :
    joined separator vs = joined separator ws := by
  have hmap : vs.mapM asText = ws.mapM asText := by
    induction h with
    | nil => rfl
    | cons hv _ ih => rw [List.mapM_cons, List.mapM_cons, asText_eq hv, ih]
  unfold joined
  rw [hmap]

/-- What a value gives when it is gone through resembles what the other gives. -/
theorem relates_eachOf {α β : Type} {R : α → β → Prop} {f : Value → Render α}
    {g : Value → Render β} (h : v.Resembles w)
    (hfg : ∀ a b, a.Resembles b → Relates R (f a) (g b)) :
    Relates (List.Forall₂ R) (eachOf v f) (eachOf w g) := by
  by_cases hv : ∃ id items, v = .iterator id items
  · obtain ⟨id, items, rfl⟩ := hv
    obtain ⟨items', rfl, hitems⟩ := h.of_iterator
    rw [eachOf, eachOf, hitems.length_eq]
    exact .eachLeft hfg id hitems _
  · have hv' : ∀ id items, v ≠ .iterator id items := fun id items hi => hv ⟨id, items, hi⟩
    have hitems := h.items?
    rw [eachOf_of_not_iterator hv', eachOf_of_not_iterator (h.not_iterator hv'), h.breaksOff_eq]
    generalize v.items? = vs? at hitems ⊢
    generalize w.items? = ws? at hitems ⊢
    cases hitems with
    | none => exact .pure .nil
    | some hitems =>
      refine (Relates.eachItem hfg hitems).bind fun results results' hresults => ?_
      exact .bind_same _ fun _ => .pure hresults

/-! ## Helpers -/

/-- Computations whose results resemble each other. -/
abbrev Resemble : Render Value → Render Value → Prop := Relates Value.Resembles

theorem Resemble.of_eq {x y : Render Value} (h : x = y) : Resemble x y := by
  subst h
  exact (Relates.refl x).mono fun a b hab => hab ▸ .refl a

theorem resemble_defined (h : v.Resembles w) {f g : String → Render Value}
    (hfg : ∀ s, Resemble (f s) (g s)) : Resemble (defined v f) (defined w g) := by
  have hof : ∀ {v : Value} (f : String → Render Value), v ≠ .none →
      defined v f = escaped v >>= f := by
    intro v f hv
    cases v with
    | none => exact absurd rfl hv
    | _ => rfl
  by_cases hv : v = .none
  · obtain rfl := hv
    obtain rfl := h.eq_none_iff.1 rfl
    exact .pure (.refl _)
  · rw [hof f hv, hof g (mt h.eq_none_iff.2 hv), escaped_eq h]
    exact .bind_same _ hfg

theorem resemble_orEmpty (h : v.Resembles w) : Resemble (orEmpty v) (orEmpty w) := by
  unfold orEmpty
  rw [h.truth_eq]
  refine .bind_same _ fun truth => ?_
  cases truth with
  | false => exact .pure (.refl _)
  | true => exact .pure h

theorem resemble_choose (h : v.Resembles w) {yes yes' : Render Value}
    {no? no'? : Option (Render Value)} (hyes : Resemble yes yes')
    (hno : Option.Rel Resemble no? no'?) : Resemble (choose v yes no?) (choose w yes' no'?) := by
  unfold choose
  rw [h.check_eq]
  refine .bind_same _ fun truth => ?_
  cases truth with
  | true => exact hyes.bind fun a b hab => resemble_orEmpty hab
  | false =>
    cases hno with
    | none => exact .pure (.refl _)
    | some hno => exact hno.bind fun a b hab => resemble_orEmpty hab

theorem resemble_loop (h : v.Resembles w) {each each' : Value → Render Value}
    {empty? empty'? : Option (Render Value)}
    (heach : ∀ a b, a.Resembles b → Resemble (each a) (each' b))
    (hempty : Option.Rel Resemble empty? empty'?) :
    Resemble (loop v each empty?) (loop w each' empty'?) := by
  refine (relates_eachOf h heach).bind fun results results' hresults => ?_
  cases hresults with
  | nil =>
    cases hempty with
    | none => exact .pure (.refl _)
    | some hempty => exact hempty
  | cons hv hvs => exact Resemble.of_eq (joined_eq "" (.cons hv hvs))

end Render

/-! ## Meanings -/

namespace Meaning

/-- Whether two meanings are the same but for the values in them, which resemble each other: what
a function gives for arguments that resemble each other does so too. -/
inductive Resembles : Meaning → Meaning → Prop
  | value {v w : Value} : v.Resembles w → Resembles (.value v) (.value w)
  | helper (h : Helper) : Resembles (.helper h) (.helper h)
  | joining (separator : String) : Resembles (.joining separator) (.joining separator)
  | thunk {x y : Render Value} : Render.Resemble x y → Resembles (.thunk x) (.thunk y)
  | function {f g : Value → Render Value} :
      (∀ v w, v.Resembles w → Render.Resemble (f v) (g w)) → Resembles (.function f) (.function g)

abbrev ResembleAll : List Meaning → List Meaning → Prop := List.Forall₂ Resembles

variable {m n : Meaning} {ms ns : List Meaning}

theorem resemble_asValue (h : m.Resembles n) : Render.Resemble m.asValue n.asValue := by
  cases h with
  | value h => exact .pure h
  | _ => exact .throw _

theorem relates_asValues (h : ResembleAll ms ns) :
    Render.Relates Value.ResembleAll (asValues ms) (asValues ns) := by
  induction h with
  | nil => exact .pure .nil
  | cons hm _ ih =>
    refine (resemble_asValue hm).bind fun v w hv => ?_
    exact ih.bind fun vs ws hvs => .pure (.cons hv hvs)

theorem relates_asPath (h : ResembleAll ms ns) : Render.Relates Eq (asPath ms) (asPath ns) := by
  induction h with
  | nil => exact .pure rfl
  | cons hm _ ih =>
    refine (resemble_asValue hm).bind fun v w hv => ?_
    rw [Render.asText_eq hv]
    refine .bind_same _ fun segment => ?_
    refine ih.bind ?_
    rintro path _ rfl
    exact .pure rfl

theorem asMarkup_eq {v w : Value} (h : v.Resembles w) : v.asMarkup = w.asMarkup := by
  have htext := h.text_eq
  cases h with
  | refl => rfl
  | _ => exact congrArg (Except.map Value.markup) htext

/-- A helper gives the like for arguments that resemble each other.  It is called in vain with any
others than those that it takes, whatever these hold. -/
theorem applyHelper_resembles (h : Helper) (hms : ResembleAll ms ns) :
    Render.Resemble (applyHelper h ms) (applyHelper h ns) := by
  -- For every helper, the arguments that it takes come first.
  cases h with
  | renderBody =>
    rcases hms with _ | ⟨⟨hv⟩ | _, _ | _⟩
    case cons.value.nil =>
      exact Render.Resemble.of_eq (congrArg (Value.str <$> ·) (Render.body_eq _ hv))
    all_goals exact .throw _
  | isNonempty =>
    rcases hms with _ | ⟨⟨hv⟩ | _, _ | _⟩
    case cons.value.nil =>
      exact Render.Resemble.of_eq (congrArg (Value.bool <$> ·) (Render.isNonempty_eq hv))
    all_goals exact .throw _
  | markSafe =>
    rcases hms with _ | ⟨⟨hv⟩ | _, _ | _⟩
    case cons.value.nil =>
      exact Render.Resemble.of_eq (congrArg Render.ofExcept (asMarkup_eq hv))
    all_goals exact .throw _
  | lookup =>
    rcases hms with _ | ⟨⟨hv⟩ | _, hpath⟩
    case cons.value =>
      refine (relates_asPath hpath).bind ?_
      rintro path _ rfl
      exact .ofExcept (hv.lookup path)
    all_goals exact .throw _
  | ifDefined =>
    rcases hms with _ | ⟨⟨hv⟩ | _, _ | ⟨_ | _ | _ | _ | ⟨hframe⟩, _ | _⟩⟩
    case cons.value.nil => exact Render.resemble_defined hv fun s => .pure (.refl _)
    case cons.value.cons.function.nil =>
      exact Render.resemble_defined hv fun s => hframe _ _ (.refl _)
    all_goals exact .throw _
  | ifCheck =>
    rcases hms with _ | ⟨⟨hv⟩ | _, _ | ⟨_ | _ | _ | ⟨hyes⟩ | _, hrest⟩⟩
    case ifCheck.cons.value.cons.thunk =>
      rcases hrest with _ | ⟨_ | _ | _ | ⟨hno⟩ | _, _ | _⟩
      case nil => exact Render.resemble_choose hv hyes .none
      case cons.thunk.nil => exact Render.resemble_choose hv hyes (.some hno)
      all_goals exact .throw _
    all_goals exact .throw _
  | loop =>
    rcases hms with _ | ⟨⟨hv⟩ | _, _ | ⟨_ | _ | _ | _ | ⟨heach⟩, hrest⟩⟩
    case loop.cons.value.cons.function =>
      rcases hrest with _ | ⟨_ | _ | _ | ⟨hempty⟩ | _, _ | _⟩
      case nil => exact Render.resemble_loop hv heach .none
      case cons.thunk.nil => exact Render.resemble_loop hv heach (.some hempty)
      all_goals exact .throw _
    all_goals exact .throw _

/-- A value that is called is a function on both sides, or is refused by its kind. -/
theorem relates_call {v w : Value} (h : v.Resembles w) (ms ns : List Meaning) :
    Render.Relates Resembles ((value v).apply ms) ((value w).apply ns) := by
  by_cases hv : v.isFunction = true
  · obtain ⟨result, rfl⟩ : ∃ result, v = .function result := by
      cases v with
      | function result => exact ⟨result, rfl⟩
      | _ => cases hv
    obtain rfl := h.eq_function
    exact .pure (.value (.refl _))
  · have hv' := Bool.eq_false_iff.2 hv
    rw [apply_value hv', apply_value (h.isFunction_eq ▸ hv'), h.kind_eq]
    exact .throw _

theorem apply_joining_cons_cons (separator : String) (m m' : Meaning) (ms : List Meaning) :
    (joining separator).apply (m :: m' :: ms) =
      throw (.misuse "a function of the code itself is called") := by
  cases m with
  | value v => cases v <;> rfl
  | _ => rfl

/-- Texts are joined from a tuple, and from nothing else. -/
theorem relates_joining (separator : String) (hms : ResembleAll ms ns) :
    Render.Relates Resembles ((joining separator).apply ms) ((joining separator).apply ns) := by
  have htuple : ∀ {vs ws : List Value}, Value.ResembleAll vs ws →
      Render.Relates Resembles ((joining separator).apply [value (.tuple vs)])
        ((joining separator).apply [value (.tuple ws)]) := by
    intro vs ws hvs
    rw [apply, apply, Render.joined_eq separator hvs]
    exact .bind_same _ fun a => .pure (.value (.refl a))
  rcases hms with _ | ⟨⟨hv⟩ | _, _ | _⟩
  case cons.value.nil =>
    cases hv with
    | refl =>
      rename_i v
      cases v with
      | tuple vs => exact htuple (Value.Resembles.all_refl vs)
      | _ => exact .throw _
    | tuple hvs => exact htuple hvs
    | _ => exact .throw _
  case cons.value.cons =>
    -- With more than one argument, it does not matter what the first is.
    rw [apply_joining_cons_cons, apply_joining_cons_cons]
    exact .throw _
  all_goals exact .throw _

theorem relates_apply (hm : m.Resembles n) (hms : ResembleAll ms ns) :
    Render.Relates Resembles (m.apply ms) (n.apply ns) := by
  cases hm with
  | value h => exact relates_call h ms ns
  | helper h => exact (applyHelper_resembles h hms).bind fun a b hab => .pure (.value hab)
  | joining separator => exact relates_joining separator hms
  | thunk _ => exact .throw _
  | function _ => exact .throw _

/-- Nothing but a text has a member. -/
theorem relates_member (hm : m.Resembles n) (name : String) :
    Render.Relates Resembles (m.member name) (n.member name) := by
  have hstr : ∀ s : String, Render.Relates Resembles ((value (.str s)).member name)
      ((value (.str s)).member name) := by
    intro s
    unfold member
    split
    · exact .pure (.joining _)
    · exact .throw _
  rcases hm with ⟨hv⟩ | _
  case value =>
    cases hv with
    | refl =>
      rename_i v
      cases v with
      | str s => exact hstr s
      | _ => exact .throw _
    | _ => exact .throw _
  all_goals exact .throw _

theorem resemble_plus {v v' w w' : Value} (hv : v.Resembles v') (hw : w.Resembles w') :
    Render.Resemble (plus v w) (plus v' w') := by
  refine Render.Resemble.of_eq ?_
  unfold plus
  rw [Render.asText_eq hv, Render.asText_eq hw]

end Meaning

/-! ## Expressions -/

/-- Whether names hold values that resemble each other in two environments. -/
def Env.Resembles (env env' : Env) : Prop :=
  ∀ name, Option.Rel Value.Resembles (env.lookup name) (env'.lookup name)

theorem Env.Resembles.cons {env env' : Env} (henv : env.Resembles env') (parameter : String)
    {v w : Value} (h : v.Resembles w) :
    Env.Resembles ((parameter, v) :: env) ((parameter, w) :: env') := by
  intro name
  rw [List.lookup_cons, List.lookup_cons]
  split
  · exact .some h
  · exact henv name

theorem Meaning.relates_ofName {env env' : Env} (henv : env.Resembles env') (name : String) :
    Render.Relates Resembles (ofName env name) (ofName env' name) := by
  have hname := henv name
  unfold ofName
  generalize env.lookup name = v? at hname ⊢
  generalize env'.lookup name = w? at hname ⊢
  cases hname with
  | some h => exact .pure (.value h)
  | none =>
    cases Helper.ofName? name with
    | none => exact .throw _
    | some h => exact .pure (.helper h)

namespace Expr

open Meaning

mutual

/-- An expression means the like where its names hold the like: whatever it does with a value, it
does through helpers, calls, members and sums. -/
theorem eval_resembles {env env' : Env} (henv : env.Resembles env') :
    ∀ e : Expr, Render.Relates Meaning.Resembles (eval env e) (eval env' e)
  | literal text => .pure (.value (.refl (.str text)))
  | name word => relates_ofName henv word
  | tuple items => by
    rw [eval, eval]
    refine (evalAll_resembles henv items).bind fun ms ns hms => ?_
    exact (relates_asValues hms).bind fun vs ws hvs => .pure (.value (.tuple hvs))
  | member target word => by
    rw [eval, eval]
    exact (eval_resembles henv target).bind fun m n hm => relates_member hm word
  | call target arguments => by
    rw [eval, eval]
    refine (eval_resembles henv target).bind fun m n hm => ?_
    exact (evalAll_resembles henv arguments).bind fun ms ns hms => relates_apply hm hms
  | function none body => by
    rw [eval, eval]
    exact .pure (.thunk ((eval_resembles henv body).bind fun m n hm => resemble_asValue hm))
  | function (some parameter) body => by
    rw [eval, eval]
    -- The body is evaluated under arguments that resemble each other.
    refine .pure (.function fun v w h => ?_)
    exact (eval_resembles (henv.cons parameter h) body).bind fun m n hm => resemble_asValue hm
  | negation operand => by
    rw [eval, eval]
    refine (eval_resembles henv operand).bind fun m n hm => ?_
    refine (resemble_asValue hm).bind fun v w h => ?_
    rw [h.truth_eq]
    exact .bind_same _ fun truth => .pure (.value (.refl _))
  | plus left right => by
    rw [eval, eval]
    refine (eval_resembles henv left).bind fun m n hm => ?_
    refine (resemble_asValue hm).bind fun v w h => ?_
    refine (eval_resembles henv right).bind fun m' n' hm' => ?_
    refine (resemble_asValue hm').bind fun v' w' h' => ?_
    exact (resemble_plus h h').bind fun a b hab => .pure (.value hab)

theorem evalAll_resembles {env env' : Env} (henv : env.Resembles env') :
    ∀ es : List Expr, Render.Relates Meaning.ResembleAll (evalAll env es) (evalAll env' es)
  | [] => .pure .nil
  | e :: es => by
    rw [evalAll, evalAll]
    refine (eval_resembles henv e).bind fun m n hm => ?_
    exact (evalAll_resembles henv es).bind fun ms ns hms => .pure (.cons hm hms)

end

theorem eval_joined (env : Env) (es : List Expr) :
    eval env (joined es) = do
      let vs ← asValues (← evalAll env es)
      return .value (← Render.joined "" vs) := by
  simp [joined, eval, evalAll, Meaning.member, Meaning.apply]

/-- Texts that are joined are one text, which resembles itself alone. -/
theorem eval_joined_eq {env env' : Env} (henv : env.Resembles env') (es : List Expr) :
    eval env (joined es) = eval env' (joined es) := by
  rw [eval_joined, eval_joined]
  refine Render.Relates.eq ?_
  refine (evalAll_resembles henv es).bind fun ms ns hms => ?_
  refine (relates_asValues hms).bind fun vs ws hvs => ?_
  rw [Render.joined_eq "" hvs]
  exact .refl _

end Expr

/-! ## What is compiled -/

theorem environment_resembles (contextName : String) {first second : Value}
    (h : first.Resembles second) :
    Env.Resembles (environment contextName first []) (environment contextName second []) :=
  Env.Resembles.cons (fun _ => .none) (normalName contextName) h

namespace Compiled

/-- Contexts that differ in hidden members alone are rendered to the same, fault or text. -/
theorem render_eq_of_resembles {config : Config} {source : String} {c : Compiled}
    (hc : ofSource config source = .ok c) {first second : Value} (h : first.Resembles second) :
    c.render first = c.render second := by
  obtain ⟨ps, -, hparts⟩ := ofSource_ok hc
  obtain ⟨t, -, -, -, hrender⟩ := exists_code hparts
  rw [hrender, hrender, Expr.bindable_eq]
  split
  · rfl
  · exact Expr.render_congr (Expr.eval_joined_eq (environment_resembles _ h) _)

/-- An object in a list has a private attribute that differs, and a public one that is a function or
cannot be read. -/
theorem render_eq_of_resembles_item :
    ∃ c, ofSource {} (inBraces ">xs x" ++ inBraces "x.a" ++ inBraces "<") = .ok c ∧
      c.render (.dict [(.str "xs", .list
        [.object { access := ["a"] } [("_b", .int 1)] none])]) =
      c.render (.dict [(.str "xs", .list
        [.object {} [("_b", .int 2), ("a", .function "f")] none])]) := by
  have hps : templateOf {} (inBraces ">xs x" ++ inBraces "x.a" ++ inBraces "<") =
      .ok [.loop "xs" "x", .body "x.a", .close] := by with_unfolding_all rfl
  obtain ⟨c, hc⟩ : ∃ c, ofParts "context" [.loop "xs" "x", .body "x.a", .close] = .ok c :=
    ⟨_, rfl⟩
  have hsource := ofSource_of_parts hps hc
  refine ⟨c, hsource, render_eq_of_resembles hsource ?_⟩
  -- Every public name is hidden on both sides.
  have hleft : ∀ name, Value.IsPublic name → Value.Hides ["a"] [("_b", .int 1)] name := by
    intro name hname
    refine Or.inr fun a ha => ?_
    have hb : (name == "_b") = false := beq_false_of_ne fun he => hname (he ▸ rfl)
    simp [List.lookup_cons, hb] at ha
  have hright : ∀ name, Value.IsPublic name →
      Value.Hides [] [("_b", .int 2), ("a", .function "f")] name := by
    intro name hname
    refine Or.inr fun a ha => Or.inr ?_
    have hb : (name == "_b") = false := beq_false_of_ne fun he => hname (he ▸ rfl)
    by_cases hn : name = "a"
    · subst hn
      obtain rfl := Option.some.inj ha
      rfl
    · simp [List.lookup_cons, hb, beq_false_of_ne hn] at ha
  refine .dict (.cons (.refl _) .nil) (.cons (.list (.cons (.object ?_ ?_ ?_ .none) .nil)) .nil)
  · exact ObjectKind.noConfusion
  · exact fun name hname => iff_of_true (hleft name hname) (hright name hname)
  · exact fun name a a' hname hshown _ _ => absurd (hleft name hname) hshown

end Compiled
end HtmlTemplate
