import HtmlTemplate.Proofs.Template.Substituted

/-!
# Place — templates that differ in one place

Two templates differ in one place, somewhere in their bodies, by a rule that may look at the
bindings that are live there.  What the rule keeps is kept by the whole templates: being spelled and
nested like a template, what is read, and what the code does.
-/

namespace HtmlTemplate

open Text

/-- Whether a template becomes another by a rule applied in one place, where `live` bindings are
live around the templates. -/
inductive Template.Rewrites (rule : List String → Template → Template → Prop) :
    List String → Template → Template → Prop
  | here {live : List String} {t u : Template} : rule live t u → Rewrites rule live t u
  | insert {live : List String} (insertion : Insertion) {t u : Template} :
      Rewrites rule live t u → Rewrites rule live (.insert insertion t) (.insert insertion u)
  | body {live : List String} {head : Head} {t u : Template} (rest : Template) :
      Rewrites rule (head.within live) t u →
        Rewrites rule live (.block head t rest) (.block head u rest)
  | behind {live : List String} (head : Head) (body : Template) {t u : Template} :
      Rewrites rule live t u → Rewrites rule live (.block head body t) (.block head body u)
  | first {live : List String} {head : Head} {t u : Template} (other rest : Template) :
      Rewrites rule (head.within live) t u →
        Rewrites rule live (.choice head t other rest) (.choice head u other rest)
  | second {live : List String} (head : Head) (body : Template) {t u : Template} (rest : Template) :
      Rewrites rule live t u →
        Rewrites rule live (.choice head body t rest) (.choice head body u rest)
  | behindChoice {live : List String} (head : Head) (body other : Template) {t u : Template} :
      Rewrites rule live t u →
        Rewrites rule live (.choice head body other t) (.choice head body other u)

namespace Template.Rewrites

variable {rule : List String → Template → Template → Prop} {live : List String} {t u : Template}

/-- In a template that has code, the rule is applied to one that has. -/
theorem and_sound (h : Rewrites rule live t u) :
    t.Sound → Rewrites (fun live t u => rule live t u ∧ t.Sound) live t u := by
  induction h with
  | here h =>
    intro hsound
    exact .here ⟨h, hsound⟩
  | insert insertion _ ih =>
    rintro ⟨-, hrest⟩
    exact .insert insertion (ih hrest)
  | body rest _ ih =>
    rintro ⟨-, hbody, -⟩
    exact .body rest (ih hbody)
  | behind head body _ ih =>
    rintro ⟨-, -, hrest⟩
    exact .behind head body (ih hrest)
  | first other rest _ ih =>
    rintro ⟨-, hbody, -, -⟩
    exact .first other rest (ih hbody)
  | second head body rest _ ih =>
    rintro ⟨-, -, hother, -⟩
    exact .second head body rest (ih hother)
  | behindChoice head body other _ ih =>
    rintro ⟨-, -, -, hrest⟩
    exact .behindChoice head body other (ih hrest)

theorem sound (hrule : ∀ live t u, rule live t u → t.Sound → u.Sound)
    (h : Rewrites rule live t u) : t.Sound → u.Sound := by
  induction h with
  | here h => exact hrule _ _ _ h
  | insert _ _ ih =>
    rintro ⟨hfirst, hrest⟩
    exact ⟨hfirst, ih hrest⟩
  | body _ _ ih =>
    rintro ⟨hhead, hbody, hrest⟩
    exact ⟨hhead, ih hbody, hrest⟩
  | behind _ _ _ ih =>
    rintro ⟨hhead, hbody, hrest⟩
    exact ⟨hhead, hbody, ih hrest⟩
  | first _ _ _ ih =>
    rintro ⟨hhead, hbody, hother, hrest⟩
    exact ⟨hhead, ih hbody, hother, hrest⟩
  | second _ _ _ _ ih =>
    rintro ⟨hhead, hbody, hother, hrest⟩
    exact ⟨hhead, hbody, ih hother, hrest⟩
  | behindChoice _ _ _ _ ih =>
    rintro ⟨hhead, hbody, hother, hrest⟩
    exact ⟨hhead, hbody, hother, ih hrest⟩

theorem admittedAt {contextName : String}
    (hrule : ∀ live t u, rule live t u →
      ∀ depth, t.AdmittedAt contextName depth → u.AdmittedAt contextName depth)
    (h : Rewrites rule live t u) :
    ∀ depth, t.AdmittedAt contextName depth → u.AdmittedAt contextName depth := by
  induction h with
  | here h => exact hrule _ _ _ h
  | insert _ _ ih =>
    rintro depth ⟨hfirst, hrest⟩
    exact ⟨hfirst, ih depth hrest⟩
  | body _ _ ih =>
    rintro depth ⟨hhead, hbody, hrest⟩
    exact ⟨hhead, ih (depth + 1) hbody, hrest⟩
  | behind _ _ _ ih =>
    rintro depth ⟨hhead, hbody, hrest⟩
    exact ⟨hhead, hbody, ih depth hrest⟩
  | first _ _ _ ih =>
    rintro depth ⟨hhead, hbody, hother, hrest⟩
    exact ⟨hhead, ih (depth + 1) hbody, hother, hrest⟩
  | second _ _ _ _ ih =>
    rintro depth ⟨hhead, hbody, hother, hrest⟩
    exact ⟨hhead, hbody, ih (depth + 1) hother, hrest⟩
  | behindChoice _ _ _ _ ih =>
    rintro depth ⟨hhead, hbody, hother, hrest⟩
    exact ⟨hhead, hbody, hother, ih depth hrest⟩

theorem binds_iff {binding : String}
    (hrule : ∀ live t u, rule live t u → (t.Binds binding ↔ u.Binds binding))
    (h : Rewrites rule live t u) : t.Binds binding ↔ u.Binds binding := by
  induction h with
  | here h => exact hrule _ _ _ h
  | insert _ _ ih => rw [binds_insert, binds_insert, ih]
  | body _ _ ih => rw [binds_block, binds_block, ih]
  | behind _ _ _ ih => rw [binds_block, binds_block, ih]
  | first _ _ _ ih => rw [binds_choice, binds_choice, ih]
  | second _ _ _ _ ih => rw [binds_choice, binds_choice, ih]
  | behindChoice _ _ _ _ ih => rw [binds_choice, binds_choice, ih]

theorem references_eq
    (hrule : ∀ live t u, rule live t u → ∀ blocks, t.references blocks = u.references blocks)
    (h : Rewrites rule live t u) : ∀ blocks, t.references blocks = u.references blocks := by
  induction h with
  | here h => exact hrule _ _ _ h
  | insert _ _ ih =>
    intro blocks
    rw [references, references, ih]
  | body _ _ ih =>
    intro blocks
    rw [references, references, ih]
  | behind _ _ _ ih =>
    intro blocks
    rw [references, references, ih]
  | first _ _ _ ih =>
    intro blocks
    rw [references, references, ih]
  | second _ _ _ _ ih =>
    intro blocks
    rw [references, references, ih]
  | behindChoice _ _ _ _ ih =>
    intro blocks
    rw [references, references, ih]

end Template.Rewrites

/-! ## Places among parts -/

section Places

/-- An element of a list stands on either side of another one. -/
theorem append_cons_cases {α : Type} {xs ys before after : List α} {x y : α} (hne : x ≠ y)
    (h : xs ++ y :: ys = before ++ x :: after) :
    (∃ between, xs = before ++ x :: between ∧ after = between ++ y :: ys) ∨
      ∃ between, before = xs ++ y :: between ∧ ys = between ++ x :: after := by
  rcases List.append_eq_append_iff.1 h with ⟨middle, hbefore, hy⟩ | ⟨middle, hxs, hx⟩
  · cases middle with
    | nil => exact absurd (List.cons.inj hy).1.symm hne
    | cons z between =>
      obtain ⟨rfl, hys⟩ := List.cons.inj hy
      exact Or.inr ⟨between, hbefore, hys⟩
  · cases middle with
    | nil => exact absurd (List.cons.inj hx).1 hne
    | cons z between =>
      obtain ⟨rfl, hafter⟩ := List.cons.inj hx
      exact Or.inl ⟨between, hxs, hafter⟩

/-- The binding of a loop. -/
def Head.binding? : Head → Option String
  | conditional _ _ _ => none
  | loop _ binding => some binding

theorem Head.filterMap_binding? (head : Head) (blocks : List (Option String)) :
    (head.binding? :: blocks).filterMap id = head.within (blocks.filterMap id) := by
  cases head <;> rfl

namespace Part

/-- The blocks that are open after a part, the innermost first, each with its live binding. -/
def opened : List (Option String) → Part → List (Option String)
  | blocks, .conditional _ _ _ => none :: blocks
  | blocks, .loop _ binding => some binding :: blocks
  | _ :: blocks, .otherwise => none :: blocks
  | _ :: blocks, .close => blocks
  | blocks, _ => blocks

/-- The bindings that are live behind parts, the innermost first. -/
def live (ps : List Part) : List String := (ps.foldl opened []).filterMap id

@[simp] theorem opened_insertion (blocks : List (Option String)) (insertion : Insertion) :
    opened blocks insertion.part = blocks := by
  cases insertion <;> cases blocks <;> rfl

@[simp] theorem opened_head (blocks : List (Option String)) (head : Head) :
    opened blocks head.part = head.binding? :: blocks := by
  cases head <;> cases blocks <;> rfl

@[simp] theorem opened_otherwise (block : Option String) (blocks : List (Option String)) :
    opened (block :: blocks) .otherwise = none :: blocks := rfl

@[simp] theorem opened_close (block : Option String) (blocks : List (Option String)) :
    opened (block :: blocks) .close = blocks := rfl

end Part

theorem Head.part_inj {head head' : Head} (h : head.part = head'.part) : head = head' := by
  cases head <;> cases head' <;> cases h <;> rfl

theorem Head.part_ne_insertion (head : Head) (insertion : Insertion) :
    insertion.part ≠ head.part := by
  cases insertion <;> cases head <;> exact Part.noConfusion

theorem Head.part_ne_close (head : Head) : head.part ≠ .close := by
  cases head <;> exact Part.noConfusion

theorem Head.part_ne_otherwise (head : Head) : head.part ≠ .otherwise := by
  cases head <;> exact Part.noConfusion

namespace Template

/-- A template leaves the blocks around it as they were. -/
@[simp] theorem foldl_opened_parts (t : Template) : ∀ blocks : List (Option String),
    t.parts.foldl Part.opened blocks = blocks := by
  induction t with
  | done =>
    intro blocks
    rfl
  | insert insertion rest ih =>
    intro blocks
    simp [parts, ih]
  | block head body rest ihbody ihrest =>
    intro blocks
    simp [parts, ihbody, ihrest]
  | choice head body other rest ihbody ihother ihrest =>
    intro blocks
    simp [parts, ihbody, ihother, ihrest]

theorem Continuation.parts_block (continuation : Continuation) (head : Head)
    (body : Template) :
    (continuation.block head body).parts = head.part :: (body.parts ++ continuation.parts) := by
  cases continuation <;> simp [block, Template.parts, parts]

/-- Whether a template may be rewritten in the place of a block that stands in it, whatever the rule.
`before` are the parts before the block's own, and `behind` those that follow. -/
def PlaceAt (blocks : List (Option String)) (t : Template) (before : List Part) (block : Template)
    (behind : List Part) : Prop :=
  ∀ (rule : List String → Template → Template → Prop) (v : Template),
    rule ((before.foldl Part.opened blocks).filterMap id) block v →
      ∃ u, Rewrites rule (blocks.filterMap id) t u ∧ u.parts = before ++ v.parts ++ behind

namespace PlaceAt

variable {blocks : List (Option String)} {before behind : List Part} {head : Head}
  {t block : Template}

theorem here (blocks : List (Option String)) (block : Template) : block.PlaceAt blocks [] block [] :=
  fun _ v h => ⟨v, .here h, by simp⟩

/-- What surrounds a template surrounds every place in it. -/
theorem within {inner : List (Option String)} (h : t.PlaceAt inner before block behind)
    (surround : Template → Template) {first last : List Part}
    (hblocks : first.foldl Part.opened blocks = before.foldl Part.opened inner)
    (hrewrites : ∀ rule u, Rewrites rule (inner.filterMap id) t u →
      Rewrites rule (blocks.filterMap id) (surround t) (surround u))
    (hparts : ∀ u v : Template, u.parts = before ++ v.parts ++ behind →
      (surround u).parts = first ++ v.parts ++ last) :
    (surround t).PlaceAt blocks first block last := by
  intro rule v hv
  rw [hblocks] at hv
  obtain ⟨u, hu, hv⟩ := h rule v hv
  exact ⟨surround u, hrewrites rule u hu, hparts u v hv⟩

theorem insert (h : t.PlaceAt blocks before block behind) (insertion : Insertion) :
    (insert insertion t).PlaceAt blocks (insertion.part :: before) block behind :=
  h.within (.insert insertion) (by simp)
    (fun _ _ => .insert insertion) fun u v hu => by simp [parts, hu]

theorem body (h : t.PlaceAt (head.binding? :: blocks) before block behind) (rest : Template) :
    (Template.block head t rest).PlaceAt blocks (head.part :: before) block
      (behind ++ .close :: rest.parts) := by
  refine h.within (Template.block head · rest) (by simp)
    (fun rule u hu => .body rest ?_) fun u v hu => by simp [parts, hu]
  rwa [head.filterMap_binding?] at hu

theorem behindBlock (h : t.PlaceAt blocks before block behind) (head : Head) (body : Template) :
    (Template.block head body t).PlaceAt blocks (head.part :: (body.parts ++ .close :: before)) block
      behind :=
  h.within (.block head body)
    (by simp)
    (fun _ _ => .behind head body) fun u v hu => by simp [parts, hu]

theorem first (h : t.PlaceAt (head.binding? :: blocks) before block behind)
    (other rest : Template) :
    (choice head t other rest).PlaceAt blocks (head.part :: before) block
      (behind ++ .otherwise :: (other.parts ++ .close :: rest.parts)) := by
  refine h.within (choice head · other rest) (by simp)
    (fun rule u hu => .first other rest ?_) fun u v hu => by simp [parts, hu]
  rwa [head.filterMap_binding?] at hu

theorem second (h : t.PlaceAt (none :: blocks) before block behind) (head : Head)
    (body rest : Template) :
    (choice head body t rest).PlaceAt blocks (head.part :: (body.parts ++ .otherwise :: before))
      block (behind ++ .close :: rest.parts) :=
  h.within (choice head body · rest)
    (by simp)
    (fun _ _ hu => .second head body rest hu) fun u v hu => by simp [parts, hu]

theorem behindChoice (h : t.PlaceAt blocks before block behind) (head : Head)
    (body other : Template) :
    (choice head body other t).PlaceAt blocks
      (head.part :: (body.parts ++ .otherwise :: (other.parts ++ .close :: before))) block
      behind :=
  h.within (choice head body other)
    (by simp)
    (fun _ _ => .behindChoice head body other) fun u v hu => by simp [parts, hu]

end PlaceAt

/-- Wherever a block starts among the parts of a template, the template may be rewritten. -/
theorem exists_placeAt (head : Head) (t : Template) : ∀ (blocks : List (Option String))
    {before after : List Part}, t.parts = before ++ head.part :: after →
    ∃ (body : Template) (continuation : Continuation) (behind : List Part),
      after = body.parts ++ continuation.parts ++ behind ∧
        t.PlaceAt blocks before (continuation.block head body) behind := by
  have hclose : head.part ≠ .close := head.part_ne_close
  have hotherwise : head.part ≠ .otherwise := head.part_ne_otherwise
  -- The head is no end of a block, so it stands on one side of every end.
  induction t with
  | done =>
    intro blocks before after h
    cases before <;> cases h
  | insert insertion rest ih =>
    intro blocks before after h
    cases before with
    | nil => exact absurd (List.cons.inj h).1 (head.part_ne_insertion insertion)
    | cons p before =>
      obtain ⟨rfl, hrest⟩ := List.cons.inj h
      obtain ⟨body, continuation, behind, rfl, hplace⟩ := ih _ hrest
      exact ⟨body, continuation, behind, rfl, hplace.insert insertion⟩
  | block outer inside rest ihinside ihrest =>
    intro blocks before after h
    rw [parts, List.cons_append] at h
    cases before with
    | nil =>
      obtain ⟨hhead, rfl⟩ := List.cons.inj h
      obtain rfl := Head.part_inj hhead
      exact ⟨inside, .closed rest, [], by simp [Continuation.parts], .here blocks _⟩
    | cons p before =>
      obtain ⟨rfl, hmore⟩ := List.cons.inj h
      -- In the body of the block around it, or behind its end.
      rcases append_cons_cases hclose hmore with ⟨between, hin, rfl⟩ | ⟨between, rfl, hin⟩
      · obtain ⟨body, continuation, behind, rfl, hplace⟩ := ihinside _ hin
        exact ⟨body, continuation, _, by simp, hplace.body rest⟩
      · obtain ⟨body, continuation, behind, rfl, hplace⟩ := ihrest _ hin
        exact ⟨body, continuation, behind, rfl, hplace.behindBlock outer inside⟩
  | choice outer inside other rest ihinside ihother ihrest =>
    intro blocks before after h
    have hparts : (choice outer inside other rest).parts = outer.part :: (inside.parts ++
        .otherwise :: (other.parts ++ .close :: rest.parts)) := by simp [parts]
    rw [hparts] at h
    cases before with
    | nil =>
      obtain ⟨hhead, rfl⟩ := List.cons.inj h
      obtain rfl := Head.part_inj hhead
      exact ⟨inside, .alternative other rest, [], by simp [Continuation.parts], .here blocks _⟩
    | cons p before =>
      obtain ⟨rfl, hmore⟩ := List.cons.inj h
      -- In the first body, in the other one, or behind the end.
      rcases append_cons_cases hotherwise hmore with ⟨between, hin, rfl⟩ | ⟨between, rfl, hlast⟩
      · obtain ⟨body, continuation, behind, rfl, hplace⟩ := ihinside _ hin
        exact ⟨body, continuation, _, by simp, hplace.first other rest⟩
      · rcases append_cons_cases hclose hlast with ⟨between, hin, rfl⟩ | ⟨between, rfl, hin⟩
        · obtain ⟨body, continuation, behind, rfl, hplace⟩ := ihother _ hin
          exact ⟨body, continuation, _, by simp, hplace.second outer inside rest⟩
        · obtain ⟨body, continuation, behind, rfl, hplace⟩ := ihrest _ hin
          exact ⟨body, continuation, behind, rfl, hplace.behindChoice outer inside other⟩

/-- A block that has no other body stands in its place. -/
theorem placeAt_of_parts (head : Head) {t body : Template} {before after : List Part}
    (h : t.parts = before ++ head.part :: (body.parts ++ .close :: after)) :
    ∃ (rest : Template) (behind : List Part), after = rest.parts ++ behind ∧
      t.PlaceAt [] before (.block head body rest) behind := by
  obtain ⟨body', continuation, behind, hafter, hplace⟩ := t.exists_placeAt head [] h
  have hread : Suffix.ofParts? t.parts = some ⟨t, []⟩ := by
    rw [← List.append_nil t.parts]
    exact Suffix.ofParts?_append t rfl
  rw [h, List.append_cons] at hread
  obtain ⟨s, hs⟩ := Suffix.exists_of_append _ hread
  have hbody : s.body = body := Suffix.body_of_append (Or.inl rfl) hs
  rw [hafter, List.append_assoc] at hs
  -- Either way of reading the parts comes to the same body.
  cases continuation with
  | closed rest =>
    obtain rfl : body' = body := (Suffix.body_of_append (Or.inl rfl) hs).symm.trans hbody
    rw [List.append_assoc, List.append_cancel_left_eq] at hafter
    exact ⟨rest, behind, (List.cons.inj hafter).2, hplace⟩
  | alternative other rest =>
    obtain rfl : body' = body := (Suffix.body_of_append (Or.inr rfl) hs).symm.trans hbody
    rw [List.append_assoc, List.append_cancel_left_eq] at hafter
    exact Part.noConfusion (List.cons.inj hafter).1

end Template

end Places

namespace Template.Rewrites

variable {rule : List String → Template → Template → Prop} {live : List String} {t u : Template}

/-! ## Code -/

section Code

variable {contextName : String} {context : Value}

/-- A block does the same with first bodies that do the same for every element. -/
theorem same_head_self (head : Head) {bindings : Bindings} {es fs others others' : List Expr}
    (hbody : ∀ inner : Bindings, inner.map (·.1) = head.within (bindings.map (·.1)) →
      SameAll contextName context inner inner es fs)
    (hothers : SameAll contextName context bindings bindings others others') :
    Same contextName context bindings bindings
      (head.code (normalName contextName) (bindings.map (·.1)) es others)
      (head.code (normalName contextName) (bindings.map (·.1)) fs others') := by
  cases head with
  | conditional path inverted emptiness => exact same_conditional rfl (hbody bindings rfl) hothers
  | loop path binding =>
    exact same_loop rfl (fun v => hbody ((binding, v) :: bindings) rfl) hothers

/-- If templates do the same where the rule applies, so do those around them. -/
theorem sameAll
    (hrule : ∀ live t u, rule live t u → ∀ bindings : Bindings, bindings.map (·.1) = live →
      SameAll contextName context bindings bindings (t.code (normalName contextName) live)
        (u.code (normalName contextName) live))
    (h : Rewrites rule live t u) : ∀ bindings : Bindings, bindings.map (·.1) = live →
      SameAll contextName context bindings bindings (t.code (normalName contextName) live)
        (u.code (normalName contextName) live) := by
  induction h with
  | here h => exact hrule _ _ _ h
  | insert _ _ ih =>
    rintro bindings rfl
    exact .append rfl (ih bindings rfl)
  | body _ _ ih =>
    rintro bindings rfl
    exact .cons (same_head_self _ ih .nil) rfl
  | behind _ _ _ ih =>
    rintro bindings rfl
    exact .cons rfl (ih bindings rfl)
  | first _ _ _ ih =>
    rintro bindings rfl
    exact .cons (same_head_self _ ih rfl) rfl
  | second _ _ _ _ ih =>
    rintro bindings rfl
    -- The other body is passed as a function that is called if need be.
    have hinstead := same_thunk (same_joined (ih bindings rfl))
    exact .cons (same_head_self _ (fun _ _ => rfl) (.cons hinstead .nil)) rfl
  | behindChoice _ _ _ _ ih =>
    rintro bindings rfl
    exact .cons rfl (ih bindings rfl)

end Code

end Template.Rewrites

/-! ## What is compiled -/

/-- A template is compiled if it comes from one that is, by a rule that keeps what has code and what
is admitted. -/
theorem Compiled.exists_of_rewrites {rule : List String → Template → Template → Prop}
    {name : String} {t u : Template} {c : Compiled} (hc : ofParts name t.parts = .ok c)
    (h : Template.Rewrites rule [] t u)
    (hsound : ∀ live t u, rule live t u → t.Sound → u.Sound)
    (hadmitted : ∀ live t u, rule live t u →
      ∀ depth, t.AdmittedAt name depth → u.AdmittedAt name depth) :
    Generator.checkContextName name = .ok () ∧ t.Sound ∧ u.Sound ∧
      ∃ d, ofParts name u.parts = .ok d := by
  obtain ⟨t', ht, hsoundness, -⟩ := exists_template hc
  obtain rfl : t = t' := Template.eq_of_ofParts? ht
  obtain ⟨hn, -, hadmission⟩ := (exists_iff t).1 ⟨c, hc⟩
  have husound := h.sound hsound hsoundness
  have huadmitted := h.admittedAt hadmitted 0 hadmission
  exact ⟨hn, hsoundness, husound,
    (exists_iff u).2 ⟨hn, Template.builtIn_of_sound husound, huadmitted⟩⟩

end HtmlTemplate
