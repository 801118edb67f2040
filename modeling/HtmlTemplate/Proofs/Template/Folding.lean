import HtmlTemplate.Proofs.Template.Generation

/-!
# Folding — what is accepted is the code of a template

A fold that succeeds was given parts whose blocks match up (`Generate.exists_template`), and its
expression is the text of the code of their template (`Generate.fold_ok`).  The other way round,
what matters of a template's names and segments was checked on the way.
-/

namespace HtmlTemplate

open Text

namespace Generate

variable {g h : Generator}

/-! ## Sequences of parts -/

theorem Yields.of_parts_cons {p : Part} {ps : List Part} (hy : Yields (parts (p :: ps)) g () h) :
    ∃ k, Yields (part p) g () k ∧ Yields (parts ps) k () h := by
  obtain ⟨_, k, hpart, hparts⟩ := hy.of_bind
  exact ⟨k, hpart, hparts⟩

theorem Yields.of_parts_append {ps qs : List Part} :
    ∀ {g : Generator}, Yields (parts (ps ++ qs)) g () h →
      ∃ k, Yields (parts ps) g () k ∧ Yields (parts qs) k () h := by
  induction ps with
  | nil =>
    intro g hy
    exact ⟨g, rfl, hy⟩
  | cons p ps ih =>
    intro g hy
    obtain ⟨k, hpart, hparts⟩ := hy.of_parts_cons
    obtain ⟨l, hps, hqs⟩ := ih hparts
    refine ⟨l, ?_, hqs⟩
    unfold Yields at hpart hps ⊢
    rw [parts, run_bind, hpart]
    exact hps

/-- The parts of a template write its code. -/
theorem emits_template (t : Template) : ∀ {g h : Generator}, g.scope.Consistent →
    Yields (parts t.parts) g () h →
    Emits g (t.code g.contextName (liveNames g.scope.frames)) h ∧ t.Sound := by
  induction t with
  | done =>
    intro g h hc hy
    obtain ⟨-, rfl⟩ := hy.of_pure
    exact ⟨Emits.refl hc, trivial⟩
  | insert insertion rest ih =>
    intro g h hc hy
    obtain ⟨k, hpart, hparts⟩ := hy.of_parts_cons
    obtain ⟨hfirst, hsound⟩ := hpart.of_insertion hc
    obtain ⟨hrest, hsounds⟩ := ih hfirst.consistent hparts
    rw [hfirst.contextName, hfirst.frames] at hrest
    exact ⟨hfirst.append hrest, hsound, hsounds⟩
  | block head body rest ihbody ihrest =>
    intro g h hc hy
    obtain ⟨k, hhead, hparts⟩ := hy.of_parts_cons
    obtain ⟨l, hbody, hparts⟩ := hparts.of_parts_append
    obtain ⟨m, hclose, hrest⟩ := hparts.of_parts_cons
    have hopen := hhead.of_head hc
    obtain ⟨frame, hframes, -, hlive⟩ := hopen.frame
    obtain ⟨hbody, hsoundBody⟩ := ihbody hopen.consistent hbody
    obtain ⟨top, around, hl, hm, hcm, hname, houtput⟩ := hclose.of_close hbody.consistent
    obtain ⟨hrest, hsoundRest⟩ := ihrest hcm hrest
    -- The body leaves frames as they were, so what is closed is the frame that the head pushed.
    have hkl : l.scope.frames = frame :: g.scope.frames := hbody.frames.trans hframes
    obtain ⟨rfl, rfl⟩ := List.cons.inj (hl.symm.trans hkl)
    have hgm : m.contextName = g.contextName :=
      hname.trans (hbody.contextName.trans hopen.contextName)
    rw [hopen.contextName, hframes, hlive] at hbody
    rw [hgm, hm] at hrest
    refine ⟨⟨?_, hrest.contextName.trans hgm, hrest.frames.trans hm, hrest.consistent⟩,
      hopen.sound, hsoundBody, hsoundRest⟩
    rw [hrest.output, houtput, hbody.output, hopen.output, Template.code, Expr.writtenItems,
      written_head]
    simp [Expr.writtenFurther]
  | choice head body other rest ihbody ihother ihrest =>
    intro g h hc hy
    have hassoc : (Template.choice head body other rest).parts = head.part :: (body.parts ++
        .otherwise :: (other.parts ++ .close :: rest.parts)) := by simp [Template.parts]
    rw [hassoc] at hy
    obtain ⟨k, hhead, hparts⟩ := hy.of_parts_cons
    obtain ⟨l, hbody, hparts⟩ := hparts.of_parts_append
    obtain ⟨m, helse, hparts⟩ := hparts.of_parts_cons
    obtain ⟨n, hother, hparts⟩ := hparts.of_parts_append
    obtain ⟨o, hclose, hrest⟩ := hparts.of_parts_cons
    have hopen := hhead.of_head hc
    obtain ⟨frame, hframes, -, hlive⟩ := hopen.frame
    obtain ⟨hbody, hsoundBody⟩ := ihbody hopen.consistent hbody
    obtain ⟨top, around, hl, -, hm, hcm, hnameElse, houtputElse⟩ :=
      helse.of_otherwise hbody.consistent
    obtain ⟨hother, hsoundOther⟩ := ihother hcm hother
    obtain ⟨top', around', hn, ho, hco, hname, houtput⟩ := hclose.of_close hother.consistent
    obtain ⟨hrest, hsoundRest⟩ := ihrest hco hrest
    -- So is the one that the other body takes over, and the one that this leaves to be closed.
    have hkl : l.scope.frames = frame :: g.scope.frames := hbody.frames.trans hframes
    obtain ⟨rfl, rfl⟩ := List.cons.inj (hl.symm.trans hkl)
    have hmn : n.scope.frames = .plain true :: g.scope.frames := hother.frames.trans hm
    obtain ⟨rfl, rfl⟩ := List.cons.inj (hn.symm.trans hmn)
    have hgm : m.contextName = g.contextName :=
      hnameElse.trans (hbody.contextName.trans hopen.contextName)
    have hgo : o.contextName = g.contextName := hname.trans (hother.contextName.trans hgm)
    -- The binding of a loop is not live in its other body.
    have hplain : liveNames (.plain true :: g.scope.frames) = liveNames g.scope.frames := rfl
    rw [hopen.contextName, hframes, hlive] at hbody
    rw [hgm, hm, hplain] at hother
    rw [hgo, ho] at hrest
    refine ⟨⟨?_, hrest.contextName.trans hgo, hrest.frames.trans ho, hrest.consistent⟩,
      hopen.sound, hsoundBody, hsoundOther, hsoundRest⟩
    rw [hrest.output, houtput, hother.output, houtputElse, hbody.output, hopen.output,
      Template.code, Expr.writtenItems, written_head]
    simp [Expr.writtenFurther, Expr.written, written_joined]

/-! ## Blocks that match up -/

/-- Whether what follows a body is what its open blocks need: a block in its other body can only be
closed. -/
def Fits : List Frame → List Template.Continuation → Prop
  | [], [] => True
  | frame :: frames, continuation :: around =>
    (frame = .plain true → ∃ rest, continuation = .closed rest) ∧ Fits frames around
  | _, _ => False

/-- Parts that are accepted and leave no block open fit the blocks that are open before them. -/
theorem exists_suffix (ps : List Part) : ∀ {g h : Generator}, g.scope.Consistent →
    Yields (parts ps) g () h → h.scope.frames = [] →
    ∃ s, Template.Suffix.ofParts? ps = some s ∧ Fits g.scope.frames s.around := by
  induction ps with
  | nil =>
    intro g h _ hy hh
    obtain ⟨-, rfl⟩ := hy.of_pure
    exact ⟨⟨.done, []⟩, rfl, by rw [hh]; trivial⟩
  | cons p ps ih =>
    intro g h hc hy hh
    obtain ⟨k, hpart, hparts⟩ := hy.of_parts_cons
    rcases p.kinds with ⟨insertion, rfl⟩ | ⟨head, rfl⟩ | rfl | rfl | ⟨kind, rfl⟩
    · obtain ⟨hfirst, -⟩ := hpart.of_insertion hc
      obtain ⟨s, hs, hfits⟩ := ih hfirst.consistent hparts hh
      refine ⟨s.insert insertion, ?_, hfirst.frames ▸ hfits⟩
      rw [Template.Suffix.ofParts?, hs]
      exact Template.Suffix.cons?_insertion insertion s
    · have hopen := hpart.of_head hc
      obtain ⟨frame, hframes, hne, -⟩ := hopen.frame
      -- The rest starts inside the block, and what follows the first body is there to be taken.
      obtain ⟨⟨body, around⟩, hs, hfits⟩ := ih hopen.consistent hparts hh
      rw [hframes] at hfits
      cases around with
      | nil => exact hfits.elim
      | cons continuation around =>
        refine ⟨⟨continuation.block head body, around⟩, ?_, hfits.2⟩
        rw [Template.Suffix.ofParts?, hs]
        exact Template.Suffix.cons?_head head _
    · obtain ⟨frame, rest, hg, hne, hk, hck, -⟩ := hpart.of_otherwise hc
      obtain ⟨⟨body, around⟩, hs, hfits⟩ := ih hck hparts hh
      rw [hk] at hfits
      cases around with
      | nil => exact hfits.elim
      | cons continuation around =>
        -- The frame of another body can only be closed, so that a block has two bodies at most.
        obtain ⟨after, rfl⟩ := hfits.1 rfl
        refine ⟨⟨.done, .alternative body after :: around⟩, ?_, ?_⟩
        · rw [Template.Suffix.ofParts?, hs]
          rfl
        · rw [hg]
          exact ⟨fun he => absurd he hne, hfits.2⟩
    · obtain ⟨frame, rest, hg, hk, hck, -⟩ := hpart.of_close hc
      obtain ⟨s, hs, hfits⟩ := ih hck hparts hh
      refine ⟨⟨.done, .closed s.body :: s.around⟩, ?_, ?_⟩
      · rw [Template.Suffix.ofParts?, hs]
        rfl
      · rw [hg]
        exact ⟨fun _ => ⟨s.body, rfl⟩, hk ▸ hfits⟩
    · exact hpart.of_throw.elim

/-- Parts that are accepted from the start to the end are those of a template. -/
theorem exists_template {ps : List Part} (hc : g.scope.Consistent) (hg : g.scope.frames = [])
    (hy : Yields (parts ps) g () h) (hh : h.scope.frames = []) :
    ∃ t, Template.ofParts? ps = some t := by
  obtain ⟨⟨t, around⟩, hs, hfits⟩ := exists_suffix ps hc hy hh
  rw [hg] at hfits
  cases around with
  | nil => exact ⟨t, by unfold Template.ofParts?; rw [hs]⟩
  | cons continuation around => exact hfits.elim

/-- A fold that succeeds has written a body around its parts, and no block is left open. -/
theorem Yields.of_fold {ps : List Part} (hy : Yields (fold ps) g () h) :
    ∃ k, Yields (parts ps) { g with output := g.output ++ bodyOpen } () k ∧ k.scope.frames = [] ∧
      h = { k with
        output := k.output ++ bodyClose
        expression? := some (Token.textOf (k.output ++ bodyClose).toList) } := by
  obtain ⟨_, _, hemit, hbody⟩ := hy.of_bind
  obtain rfl := hemit.of_emit
  obtain ⟨_, _, hparts, hfinish⟩ := hbody.of_bind
  obtain ⟨_, k, hget, hanswer⟩ := hfinish.of_bind
  obtain ⟨rfl, rfl⟩ := hget.of_get
  refine ⟨k, hparts, ?_⟩
  split at hanswer
  · exact hanswer.of_throw.elim
  · rename_i hclosed
    obtain ⟨_, _, hclose, htext⟩ := hanswer.of_bind
    obtain rfl := hclose.of_emit
    cases htext
    refine ⟨?_, rfl⟩
    -- A block that is left open would have been refused.
    unfold Scope.finish at hclosed
    split at hclosed
    · rename_i hempty
      exact List.isEmpty_iff.1 hempty
    · cases hclosed

/-- The output of a fold that succeeds is the code of a template. -/
theorem output_fold {name : String} {ps : List Part}
    (hy : Yields (fold ps) ⟨name, .empty, #[], none⟩ () h) :
    ∃ t, Template.ofParts? ps = some t ∧ t.Sound ∧
      h.output.toList = (Expr.joined (t.code name [])).written := by
  obtain ⟨k, hparts, hk, rfl⟩ := hy.of_fold
  obtain ⟨t, ht⟩ := exists_template Scope.consistent_empty rfl hparts hk
  obtain rfl := Template.ofParts?_eq_some_iff.1 ht
  obtain ⟨hemits, hsound⟩ := emits_template t Scope.consistent_empty hparts
  refine ⟨t, ht, hsound, ?_⟩
  calc (k.output ++ bodyClose).toList
      = k.output.toList ++ bodyClose := Array.toList_appendList
    _ = bodyOpen ++ Expr.writtenItems (t.code name []) ++ bodyClose := by
        rw [hemits.output]
        rfl
    _ = (Expr.joined (t.code name [])).written := (written_joined _).symm

/-- A fold that succeeds was given a template, and its expression is the text of the template's
code. -/
theorem fold_ok {name : String} {ps : List Part}
    (hfold : (Generator.mk name .empty #[] none).fold ps = (.ok (), h)) :
    ∃ t, Template.ofParts? ps = some t ∧ t.Sound ∧
      h.expression = .ok (Token.textOf (Expr.joined (t.code name [])).written) := by
  have hy : Yields (fold ps) ⟨name, .empty, #[], none⟩ () h := hfold
  obtain ⟨t, ht, hsound, houtput⟩ := output_fold hy
  refine ⟨t, ht, hsound, ?_⟩
  obtain ⟨k, -, -, rfl⟩ := hy.of_fold
  exact congrArg (fun tokens => Except.ok (Token.textOf tokens)) houtput

end Generate
end HtmlTemplate
