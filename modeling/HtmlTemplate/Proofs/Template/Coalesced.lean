import HtmlTemplate.Proofs.Render.Relates
import HtmlTemplate.Proofs.Template.Alike
import HtmlTemplate.Proofs.Template.Runnable

/-!
# Coalesced — joining literal texts does not change what is compiled

Joining neighbouring literal texts brings parts into a normal form, which is told by the other parts
and the text in the gaps between them.  It is folded with the same outcome, and its code means the
same: pieces of a body are joined, so that a text may be cut anywhere, in bodies within bodies as
well (`Template.merges_coalesceFrom`).  All of it is put together in `Compiled.coalesce_canonical`.
-/

namespace HtmlTemplate

open Text

/-! ## Templates -/

namespace Template

/-- A text in front of a template, if there is one. -/
def preceded (text : String) (t : Template) : Template :=
  if text.isEmpty then t else insert (.raw text) t

/-- Joins neighbouring literal texts, `pending` being the text before the template. -/
def coalesceFrom (pending : String) : Template → Template
  | done => preceded pending done
  | insert (.raw text) rest => rest.coalesceFrom (pending ++ text)
  | insert insertion rest => preceded pending (insert insertion (rest.coalesceFrom ""))
  | block head body rest =>
    preceded pending (block head (body.coalesceFrom "") (rest.coalesceFrom ""))
  | choice head body other rest =>
    preceded pending (choice head (body.coalesceFrom "") (other.coalesceFrom "")
      (rest.coalesceFrom ""))

theorem isRaw_head (head : Head) : head.part.isRaw = false := by
  cases head <;> rfl

/-- Texts in front of a part that is none are joined among themselves. -/
theorem coalesceFrom_preceded {pending : String} {p : Part} {ps qs : List Part} {t : Template}
    (hp : p.isRaw = false) (h : p :: Part.coalesceFrom "" ps = t.parts ++ qs) :
    Part.coalesceFrom pending (p :: ps) = (preceded pending t).parts ++ qs := by
  rw [Part.coalesceFrom_of_not_raw hp, preceded]
  split
  · exact h
  · exact congrArg (Part.raw pending :: ·) h

/-- Texts are joined within the bodies of a template, and the text behind it with what follows. -/
theorem coalesceFrom_parts (t : Template) : ∀ (pending : String) {ps qs : List Part},
    (∀ text, Part.coalesceFrom text ps = (preceded text done).parts ++ qs) →
    Part.coalesceFrom pending (t.parts ++ ps) = (t.coalesceFrom pending).parts ++ qs := by
  -- What ends a body is no literal text, and what stands behind it is joined for itself.
  have hend : ∀ {p : Part} {ps qs : List Part}, p.isRaw = false →
      Part.coalesceFrom "" ps = qs → ∀ text,
      Part.coalesceFrom text (p :: ps) = (preceded text done).parts ++ p :: qs := by
    rintro p ps qs hp rfl text
    exact coalesceFrom_preceded hp rfl
  induction t with
  | done => exact fun pending _ _ h => h pending
  | insert insertion rest ih =>
    intro pending ps qs h
    cases insertion with
    | raw text => exact ih (pending ++ text) h
    | _ => exact coalesceFrom_preceded rfl (congrArg (_ :: ·) (ih "" h))
  | block head body rest ihbody ihrest =>
    intro pending ps qs h
    have hbody := ihbody "" (hend (p := .close) rfl (ihrest "" h))
    have hparts : (block head body rest).parts ++ ps =
        head.part :: (body.parts ++ .close :: (rest.parts ++ ps)) := by simp [parts]
    rw [hparts]
    refine coalesceFrom_preceded (isRaw_head head) ?_
    rw [hbody]
    simp [parts]
  | choice head body other rest ihbody ihother ihrest =>
    intro pending ps qs h
    have hother := ihother "" (hend (p := .close) rfl (ihrest "" h))
    have hbody := ihbody "" (hend (p := .otherwise) rfl hother)
    have hparts : (choice head body other rest).parts ++ ps = head.part :: (body.parts ++
        .otherwise :: (other.parts ++ .close :: (rest.parts ++ ps))) := by simp [parts]
    rw [hparts]
    refine coalesceFrom_preceded (isRaw_head head) ?_
    rw [hbody]
    simp [parts]

/-- The parts of a template, joined, are those of the template whose texts are joined. -/
theorem coalesce_parts (t : Template) : Part.coalesce t.parts = (t.coalesceFrom "").parts := by
  have hend : ∀ text, Part.coalesceFrom text [] = (preceded text done).parts ++ [] := by
    intro text
    rw [Part.coalesceFrom, preceded]
    split <;> rfl
  have hparts := t.coalesceFrom_parts "" hend
  rwa [List.append_nil, List.append_nil] at hparts

end Template

/-! ## Pieces that are joined -/

namespace Meaning

open Render

/-- What meanings come to when they are joined. -/
def join (ms : List Meaning) : Render Meaning := do
  let vs ← asValues ms
  return value (← Render.joined "" vs)

/-- Whether meanings can be replaced by others, whatever is joined in front of them. -/
def Spliced (ms ns : List Meaning) : Prop := ∀ before, join (before ++ ms) = join (before ++ ns)

theorem asValues_append (ms ns : List Meaning) : asValues (ms ++ ns) = do
    let vs ← asValues ms
    return vs ++ (← asValues ns) := by
  induction ms with
  | nil => simp [asValues]
  | cons m ms ih => simp [asValues, ih]

theorem joined_append (vs ws : List Value) : Render.joined "" (vs ++ ws) = do
    let first ← vs.mapM asText
    let rest ← ws.mapM asText
    return .str (String.join first ++ String.join rest) := by
  simp [Render.joined, List.mapM_append, Renders.intercalate_empty]

/-- Meanings whose values are joined to the same text, whatever stands in front of them. -/
theorem spliced_of_joined (ms ns : List Meaning) {f g : List Value → List Value}
    (hms : ∀ rest, asValues (ms ++ rest) = f <$> asValues rest)
    (hns : ∀ rest, asValues (ns ++ rest) = g <$> asValues rest)
    (h : ∀ vs, (String.join <$> (f vs).mapM asText) = String.join <$> (g vs).mapM asText)
    (rest : List Meaning) : Spliced (ms ++ rest) (ns ++ rest) := by
  intro before
  have hjoined : ∀ vs ws, Render.joined "" (vs ++ f ws) = Render.joined "" (vs ++ g ws) := by
    intro vs ws
    have hjoin : ∀ us, Render.joined "" (vs ++ us) = do
        let first ← vs.mapM asText
        let last ← String.join <$> us.mapM asText
        return .str (String.join first ++ last) := fun us => by simp [joined_append]
    rw [hjoin, hjoin, h]
  simp only [join, asValues_append before, hms, hns, bind_assoc, pure_bind, bind_map_left, hjoined]

namespace Spliced

theorem refl (ms : List Meaning) : Spliced ms ms := fun _ => rfl

theorem symm {ms ns : List Meaning} (h : Spliced ms ns) : Spliced ns ms := fun before =>
  (h before).symm

theorem trans {ms ns os : List Meaning} (h : Spliced ms ns) (h' : Spliced ns os) :
    Spliced ms os := fun before => (h before).trans (h' before)

theorem append (before : List Meaning) {ms ns : List Meaning} (h : Spliced ms ns) :
    Spliced (before ++ ms) (before ++ ns) := fun first => by
  rw [← List.append_assoc, ← List.append_assoc]
  exact h (first ++ before)

/-- Two texts are one. -/
theorem texts (s t : String) (ms : List Meaning) :
    Spliced (said s :: said t :: ms) (said (s ++ t) :: ms) := by
  refine spliced_of_joined [said s, said t] [said (s ++ t)]
    (f := fun vs => .str s :: .str t :: vs) (g := fun vs => .str (s ++ t) :: vs) ?_ ?_ ?_ ms
  · simp [asValues, said, asValue]
  · simp [asValues, said, asValue]
  · simp [List.mapM_cons, asText, Value.chars?, String.append_assoc]

/-- A text that is empty is none. -/
theorem empty (ms : List Meaning) : Spliced (said "" :: ms) ms := by
  refine spliced_of_joined [said ""] [] (f := fun vs => .str "" :: vs) (g := id) ?_ ?_ ?_ ms
  · simp [asValues, said, asValue]
  · simp
  · simp [List.mapM_cons, asText, Value.chars?]

end Spliced

end Meaning

/-! ## Code -/

namespace Expr

open Meaning

/-- Whether expressions can be replaced by others among the items that are joined. -/
def Merges (env : Env) (es fs : List Expr) : Prop :=
  Render.Relates Spliced (evalAll env es) (evalAll env fs)

namespace Merges

variable {env : Env} {e f : Expr} {es fs gs : List Expr}

theorem refl (env : Env) (es : List Expr) : Merges env es es :=
  (Render.Relates.refl _).mono fun ms _ h => h ▸ Spliced.refl ms

theorem trans (h : Merges env es fs) (h' : Merges env fs gs) : Merges env es gs :=
  Render.Relates.trans h h' fun _ _ _ => Spliced.trans

theorem cons (he : eval env e = eval env f) (h : Merges env es fs) :
    Merges env (e :: es) (f :: fs) := by
  unfold Merges
  rw [evalAll, evalAll, he]
  exact .bind_same _ fun m => h.bind fun _ _ hms => .pure (hms.append [m])

theorem append (es : List Expr) (h : Merges env fs gs) : Merges env (es ++ fs) (es ++ gs) := by
  induction es with
  | nil => exact h
  | cons e es ih => exact cons rfl ih

theorem evalAll_literal (text : String) (es : List Expr) :
    evalAll env (literal text :: es) = do return said text :: (← evalAll env es) := by
  simp [evalAll, eval, said]

theorem texts (s t : String) (es : List Expr) :
    Merges env (literal s :: literal t :: es) (literal (s ++ t) :: es) := by
  unfold Merges
  simp only [evalAll_literal, bind_assoc, pure_bind]
  exact .bind_same _ fun ms => .pure (Spliced.texts s t ms)

theorem empty (es : List Expr) : Merges env (literal "" :: es) es := by
  have hpure : evalAll env es = evalAll env es >>= Pure.pure := (bind_pure _).symm
  unfold Merges
  rw [evalAll_literal, hpure, bind_assoc]
  exact .bind_same _ fun ms => .pure (Spliced.empty ms)

theorem of_empty (h : Merges env (literal "" :: es) fs) : Merges env es fs :=
  trans (Render.Relates.symm (empty es) fun _ _ => Spliced.symm) h

/-- What is joined comes to the same. -/
theorem joined (h : Merges env es fs) : eval env (joined es) = eval env (joined fs) := by
  have hjoined : ∀ items, eval env (Expr.joined items) = evalAll env items >>= Meaning.join := by
    intro items
    simp only [Expr.joined, eval, evalAll, Meaning.member, Meaning.apply, bind_assoc, pure_bind]
    rfl
  rw [hjoined, hjoined]
  exact (h.bind fun ms ns hms => hms [] ▸ Render.Relates.refl _).eq

end Merges

/-- A block means the same if its bodies do, wherever they are evaluated. -/
theorem eval_head_congr (contextName : String) (live : List String) (head : Head) {env : Env}
    {body body' others others' : List Expr}
    (hbody : ∀ env, eval env (joined body) = eval env (joined body'))
    (hothers : evalAll env others = evalAll env others') :
    eval env (head.code contextName live body others) =
      eval env (head.code contextName live body' others') := by
  cases head <;> simp only [Head.code, helperCall, eval, evalAll, hbody, hothers]

end Expr

namespace Template

open HtmlTemplate.Expr

variable (contextName : String)

theorem merges_preceded (env : Env) (live : List String) (text : String) (t : Template) :
    Merges env (.literal text :: t.code contextName live)
      ((preceded text t).code contextName live) := by
  unfold preceded
  split
  · rename_i hempty
    rw [String.isEmpty_iff.1 hempty]
    exact .empty _
  · exact .refl env _

/-- The code of a template means, behind a text, what its code with joined texts means. -/
theorem merges_coalesceFrom (t : Template) : ∀ (pending : String) (live : List String) (env : Env),
    Merges env (.literal pending :: t.code contextName live)
      ((t.coalesceFrom pending).code contextName live) := by
  -- In front of what is no text, the text before it ends, and the next one starts empty.
  have hpreceded : ∀ (pending : String) (live : List String) (env : Env) (t u : Template),
      Merges env (t.code contextName live) (u.code contextName live) →
      Merges env (.literal pending :: t.code contextName live)
        ((preceded pending u).code contextName live) := fun pending live env t u h =>
    (Merges.cons rfl h).trans (merges_preceded contextName env live pending u)
  induction t with
  | done => exact fun pending live env => hpreceded pending live env done done (.refl env [])
  | insert insertion rest ih =>
    intro pending live env
    have hinsert : Merges env ((insert insertion rest).code contextName live)
        ((insert insertion (rest.coalesceFrom "")).code contextName live) :=
      Merges.append _ (Merges.of_empty (ih "" live env))
    cases insertion with
    | raw text => exact (Merges.texts pending text _).trans (ih (pending ++ text) live env)
    | _ => exact hpreceded pending live env _ _ hinsert
  | block head body rest ihbody ihrest =>
    intro pending live env
    have hbody : ∀ env, eval env (joined (body.code contextName (head.within live))) =
        eval env (joined ((body.coalesceFrom "").code contextName (head.within live))) :=
      fun env => (Merges.of_empty (ihbody "" (head.within live) env)).joined
    refine hpreceded pending live env _ (block head _ _) ?_
    exact .cons (eval_head_congr contextName live head hbody rfl)
      (Merges.of_empty (ihrest "" live env))
  | choice head body other rest ihbody ihother ihrest =>
    intro pending live env
    have hbody : ∀ env, eval env (joined (body.code contextName (head.within live))) =
        eval env (joined ((body.coalesceFrom "").code contextName (head.within live))) :=
      fun env => (Merges.of_empty (ihbody "" (head.within live) env)).joined
    have hother : evalAll env [.function none (joined (other.code contextName live))] =
        evalAll env [.function none (joined ((other.coalesceFrom "").code contextName live))] := by
      simp only [evalAll, eval, (Merges.of_empty (ihother "" live env)).joined]
    refine hpreceded pending live env _ (choice head _ _ _) ?_
    exact .cons (eval_head_congr contextName live head hbody hother)
      (Merges.of_empty (ihrest "" live env))

/-- The expression of a template comes to the same with joined texts. -/
theorem render_coalesce (t : Template) (name : String) (context : Value) :
    (joined (t.code contextName [])).render name context =
      (joined ((t.coalesceFrom "").code contextName [])).render name context := by
  have heval : ∀ env, eval env (joined (t.code contextName [])) =
      eval env (joined ((t.coalesceFrom "").code contextName [])) := fun env =>
    (Merges.of_empty (t.merges_coalesceFrom contextName "" [] env)).joined
  unfold render run
  rw [heval]

end Template

/-! ## What is compiled -/

namespace Compiled

variable {name : String} {ps : List Part} {c d : Compiled}

/-- What is compiled from parts renders what is compiled from them with joined texts. -/
theorem render_coalesce (hc : ofParts name ps = .ok c)
    (hd : ofParts name (Part.coalesce ps) = .ok d) (context : Value) :
    c.render context = d.render context := by
  obtain ⟨t, ht, -, -, hcode⟩ := exists_code hc
  obtain ⟨u, hu, -, -, hcode'⟩ := exists_code hd
  obtain rfl := Template.ofParts?_eq_some_iff.1 ht
  rw [t.coalesce_parts] at hu
  obtain rfl := Template.eq_of_ofParts? hu
  -- The same loops bind the same names, so both can be bound or neither.
  have hloops : ∀ path binding, Part.loop path binding ∈ t.parts ↔
      Part.loop path binding ∈ (t.coalesceFrom "").parts := by
    intro path binding
    have hmem : ∀ ps, Part.loop path binding ∈ Part.others ps ↔ Part.loop path binding ∈ ps :=
      fun ps => List.mem_filter.trans (and_iff_left rfl)
    rw [← t.coalesce_parts, ← hmem, ← hmem (Part.coalesce _), Part.coalesce,
      Part.others_coalesceFrom]
  have hbinds : Expr.reservedName ∈ (Expr.joined (t.code (normalName name) [])).parameters ↔
      Expr.reservedName ∈
        (Expr.joined ((t.coalesceFrom "").code (normalName name) [])).parameters := by
    rw [Template.mem_parameters_reserved, Template.mem_parameters_reserved]
    exact exists_congr fun path => hloops path _
  rw [hcode, hcode', Expr.bindable_eq, Expr.bindable_eq]
  by_cases hreserved : Expr.reservedName ∈ (Expr.joined (t.code (normalName name) [])).parameters
  · rw [if_pos hreserved, if_pos (hbinds.1 hreserved)]
  · rw [if_neg hreserved, if_neg (mt hbinds.2 hreserved)]
    exact t.render_coalesce (normalName name) name context

/-- Joining texts changes nothing about whether parts are compiled, nor what is known of their
context. -/
theorem ofParts_coalesce (name : String) (ps : List Part) :
    (∃ fault, ofParts name ps = .error fault ∧ ofParts name (Part.coalesce ps) = .error fault) ∨
      ∃ c d, ofParts name ps = .ok c ∧ ofParts name (Part.coalesce ps) = .ok d ∧
        c.typeText = d.typeText ∧ c.anyRequired = d.anyRequired := by
  cases hg : Generator.ofContextName name with
  | error fault =>
    refine Or.inl ⟨fault, ?_, ?_⟩ <;>
      · unfold ofParts
        rw [hg]
        rfl
  | ok g =>
    obtain ⟨rfl, hn⟩ := Generator.ofContextName_ok hg
    obtain ⟨hresult, halike⟩ := (Generator.mk name .empty #[] none).fold_coalesce ps
    cases hfold : (Generator.mk name .empty #[] none).fold ps with
    | mk result k =>
      cases hfold' : (Generator.mk name .empty #[] none).fold (Part.coalesce ps) with
      | mk result' l =>
        rw [hfold, hfold'] at hresult halike
        obtain rfl : result' = result := hresult
        cases result' with
        | error fault =>
          refine Or.inl ⟨fault, ?_, ?_⟩ <;>
            · unfold ofParts
              rw [hg]
              simp only [bind, Except.bind, hfold, hfold']
              rfl
        | ok _ =>
          obtain ⟨_, -, -, htext⟩ := Generate.fold_ok hfold
          obtain ⟨_, -, -, htext'⟩ := Generate.fold_ok hfold'
          refine Or.inr ⟨_, _, ofParts_of_fold hn hfold htext, ofParts_of_fold hn hfold' htext', ?_⟩
          rw [show l.scope = k.scope from halike.scope]
          exact ⟨rfl, rfl⟩

/-- Joining neighbouring literal texts brings parts into a normal form that means the same.

Parts have the same normal form exactly if they have the same parts that are no literal text, in the
same order, and the same text in each gap between them.  In it no text is empty, and none stands
beside another one.  Whatever generator they are folded with, parts and their normal form have the
same outcome; and compiled, they render the same for every context, and have the same type. -/
theorem coalesce_canonical :
    (∀ ps qs : List Part, Part.coalesce ps = Part.coalesce qs ↔
      Part.others ps = Part.others qs ∧ Part.gaps ps = Part.gaps qs) ∧
    (∀ ps : List Part, (∀ text, Part.raw text ∈ Part.coalesce ps → text ≠ "") ∧
      (Part.coalesce ps).IsChain fun p q => ¬ (p.isRaw = true ∧ q.isRaw = true)) ∧
    (∀ (g : Generator) (ps : List Part), (g.fold (Part.coalesce ps)).1 = (g.fold ps).1 ∧
      (g.fold (Part.coalesce ps)).2.scope = (g.fold ps).2.scope) ∧
    ∀ (name : String) (ps : List Part),
      (∃ fault, ofParts name ps = .error fault ∧
        ofParts name (Part.coalesce ps) = .error fault) ∨
      ∃ c d, ofParts name ps = .ok c ∧ ofParts name (Part.coalesce ps) = .ok d ∧
        (∀ context, c.render context = d.render context) ∧
        c.typeText = d.typeText ∧ c.anyRequired = d.anyRequired := by
  refine ⟨Part.coalesce_eq_coalesce_iff, fun ps => ?_, fun g ps => ?_, fun name ps => ?_⟩
  · have hjoined := Part.joined_coalesceFrom "" ps
    exact ⟨hjoined.filled, hjoined.apart⟩
  · obtain ⟨hresult, halike⟩ := g.fold_coalesce ps
    exact ⟨hresult, halike.scope⟩
  · rcases ofParts_coalesce name ps with hfault | ⟨c, d, hc, hd, htype, hrequired⟩
    · exact Or.inl hfault
    · exact Or.inr ⟨c, d, hc, hd, render_coalesce hc hd, htype, hrequired⟩

end Compiled
end HtmlTemplate
