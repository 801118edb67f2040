import HtmlTemplate.Proofs.Template.Acceptance
import HtmlTemplate.Proofs.Template.Compiled

/-!
# Admission — which templates are compiled

The blocks of a template match up, so that nothing but the spelling of its parts and the depth of
its blocks can keep it from being compiled (`Compiled.exists_iff`).  Both are told from the tree
alone: a block adds one to the depth of what its bodies hold.
-/

namespace HtmlTemplate

theorem Head.builtIn (head : Head) : head.part.BuiltIn := by
  cases head <;> trivial

theorem Insertion.builtIn {insertion : Insertion} (h : insertion.Sound) :
    insertion.part.BuiltIn := by
  cases insertion with
  | composite segments => exact h
  | _ => trivial

namespace Template

/-- Whether the parts of a template are spelled like such, and its blocks are not nested too deep
below `depth` others. -/
def AdmittedAt (contextName : String) : Nat → Template → Prop
  | _, done => True
  | depth, insert insertion rest =>
    insertion.part.Spelled contextName ∧ rest.AdmittedAt contextName depth
  | depth, block head body rest =>
    (head.part.Spelled contextName ∧ depth < maxDepth) ∧
      body.AdmittedAt contextName (depth + 1) ∧ rest.AdmittedAt contextName depth
  | depth, choice head body other rest =>
    (head.part.Spelled contextName ∧ depth < maxDepth) ∧
      body.AdmittedAt contextName (depth + 1) ∧ other.AdmittedAt contextName (depth + 1) ∧
        rest.AdmittedAt contextName depth

variable {contextName : String} {blocks : Nesting} {ps : List Part}

/-! ## Single parts -/

theorem turn_head (blocks : Nesting) (head : Head) : Part.turn blocks head.part = false :: blocks := by
  cases head <;> cases blocks <;> rfl

theorem fitsIn_head (head : Head) : head.part.FitsIn blocks ↔ blocks.length < maxDepth := by
  cases head <;> rfl

theorem spelled_otherwise : Part.otherwise.Spelled contextName :=
  (Part.spelled_iff fun _ _ => Part.noConfusion).2 (by simp [Part.paths])

theorem spelled_close : Part.close.Spelled contextName :=
  (Part.spelled_iff fun _ _ => Part.noConfusion).2 (by simp [Part.paths])

theorem admittedIn_insertion (insertion : Insertion) :
    Part.AdmittedIn contextName blocks (insertion.part :: ps) ↔
      insertion.part.Spelled contextName ∧ Part.AdmittedIn contextName blocks ps := by
  rw [Part.AdmittedIn, Part.turn_insertion]
  exact and_congr_right fun _ => and_iff_right (Part.fitsIn_insertion blocks insertion)

theorem admittedIn_head (head : Head) :
    Part.AdmittedIn contextName blocks (head.part :: ps) ↔
      (head.part.Spelled contextName ∧ blocks.length < maxDepth) ∧
        Part.AdmittedIn contextName (false :: blocks) ps := by
  rw [Part.AdmittedIn, turn_head, fitsIn_head, and_assoc]

theorem admittedIn_otherwise :
    Part.AdmittedIn contextName (false :: blocks) (.otherwise :: ps) ↔
      Part.AdmittedIn contextName (true :: blocks) ps := by
  rw [Part.AdmittedIn, Part.turn]
  exact (and_iff_right spelled_otherwise).trans (and_iff_right rfl)

theorem admittedIn_close {hasElse : Bool} :
    Part.AdmittedIn contextName (hasElse :: blocks) (.close :: ps) ↔
      Part.AdmittedIn contextName blocks ps := by
  rw [Part.AdmittedIn, Part.turn]
  exact (and_iff_right spelled_close).trans (and_iff_right (List.cons_ne_nil _ _))

/-! ## Templates -/

/-- A template is admitted by its depth alone, and leaves the blocks around it as they were. -/
theorem admittedIn_append (t : Template) : ∀ {blocks : Nesting} {ps : List Part},
    Part.AdmittedIn contextName blocks (t.parts ++ ps) ↔
      t.AdmittedAt contextName blocks.length ∧ Part.AdmittedIn contextName blocks ps := by
  induction t with
  | done =>
    intro blocks ps
    exact (true_and _).symm.to_iff
  | insert insertion rest ih =>
    intro blocks ps
    rw [parts, List.cons_append, admittedIn_insertion, ih, AdmittedAt, and_assoc]
  | block head body rest ihbody ihrest =>
    intro blocks ps
    -- The body stands one block deeper, and its end brings the blocks around back.
    rw [parts, List.cons_append, List.cons_append, List.append_assoc, List.cons_append,
      admittedIn_head, ihbody, admittedIn_close, ihrest, AdmittedAt, List.length_cons]
    simp only [and_assoc]
  | choice head body other rest ihbody ihother ihrest =>
    intro blocks ps
    have hparts : (choice head body other rest).parts ++ ps = head.part :: (body.parts ++
        .otherwise :: (other.parts ++ .close :: (rest.parts ++ ps))) := by simp [parts]
    rw [hparts, admittedIn_head, ihbody, admittedIn_otherwise, ihother, admittedIn_close, ihrest,
      AdmittedAt, List.length_cons, List.length_cons]
    simp only [and_assoc]

theorem foldl_turn_parts (t : Template) : ∀ blocks : Nesting,
    t.parts.foldl Part.turn blocks = blocks := by
  induction t with
  | done =>
    intro blocks
    rfl
  | insert insertion rest ih =>
    intro blocks
    rw [parts, List.foldl_cons, Part.turn_insertion, ih]
  | block head body rest ihbody ihrest =>
    intro blocks
    rw [parts, List.cons_append, List.foldl_cons, List.foldl_append, turn_head, ihbody,
      List.foldl_cons, Part.turn, ihrest]
  | choice head body other rest ihbody ihother ihrest =>
    intro blocks
    have helse : Part.turn (false :: blocks) .otherwise = true :: blocks := rfl
    have hclose : Part.turn (true :: blocks) .close = blocks := rfl
    simp only [parts, List.cons_append, List.foldl_cons, List.foldl_append, turn_head, ihbody,
      helse, ihother, hclose, ihrest]

/-- A template that has code is made of parts that have code. -/
theorem builtIn_of_sound {t : Template} : t.Sound → ∀ p ∈ t.parts, p.BuiltIn := by
  induction t with
  | done =>
    intro _
    exact List.forall_mem_nil _
  | insert insertion rest ih =>
    rintro ⟨hfirst, hrest⟩
    exact List.forall_mem_cons.2 ⟨Insertion.builtIn hfirst, ih hrest⟩
  | block head body rest ihbody ihrest =>
    rintro ⟨-, hbody, hrest⟩
    have hend : ∀ p ∈ .close :: rest.parts, p.BuiltIn :=
      List.forall_mem_cons.2 ⟨trivial, ihrest hrest⟩
    rw [parts, List.cons_append]
    exact List.forall_mem_cons.2 ⟨Head.builtIn head, List.forall_mem_append.2 ⟨ihbody hbody, hend⟩⟩
  | choice head body other rest ihbody ihother ihrest =>
    rintro ⟨-, hbody, hother, hrest⟩
    have hend : ∀ p ∈ .close :: rest.parts, p.BuiltIn :=
      List.forall_mem_cons.2 ⟨trivial, ihrest hrest⟩
    have hsecond : ∀ p ∈ .otherwise :: other.parts, p.BuiltIn :=
      List.forall_mem_cons.2 ⟨trivial, ihother hother⟩
    have hfirst : ∀ p ∈ head.part :: body.parts, p.BuiltIn :=
      List.forall_mem_cons.2 ⟨Head.builtIn head, ihbody hbody⟩
    rw [parts]
    exact List.forall_mem_append.2 ⟨List.forall_mem_append.2 ⟨hfirst, hsecond⟩, hend⟩

/-- Whether a template may stand as a body of a block. -/
def MayStand (name : String) (t : Template) : Prop :=
  (∀ p ∈ t.parts, p.BuiltIn) ∧ t.AdmittedAt name 1

end Template

namespace Compiled

variable {name : String}

/-- A template is compiled exactly if its parts have code and are admitted. -/
theorem exists_iff (t : Template) : (∃ c, ofParts name t.parts = .ok c) ↔
    Generator.checkContextName name = .ok () ∧ (∀ p ∈ t.parts, p.BuiltIn) ∧
      t.AdmittedAt name 0 := by
  let start : Generator := ⟨name, .empty, #[], none⟩
  have hstart : Part.AdmittedIn start.started.contextName start.started.blocks t.parts ↔
      t.AdmittedAt name 0 := by
    have happend : Part.AdmittedIn name [] (t.parts ++ []) ↔
        t.AdmittedAt name 0 ∧ Part.AdmittedIn name [] [] := t.admittedIn_append
    rw [List.append_nil] at happend
    exact happend.trans (and_true _).to_iff
  constructor
  · rintro ⟨c, hc⟩
    obtain ⟨hn, -, k, hfold, -⟩ := ofParts_ok hc
    obtain ⟨u, hu, hsound, -⟩ := exists_template hc
    obtain rfl : t = u := Template.eq_of_ofParts? hu
    have hbuilt := Template.builtIn_of_sound hsound
    refine ⟨hn, hbuilt, ?_⟩
    by_contra hno
    obtain ⟨_, p, _, -, -, hrefused⟩ := Generate.parts_refused hbuilt (mt hstart.1 hno)
    -- Whichever way the part is refused, nothing is folded.
    rcases hrefused with ⟨-, fault, h, hrun⟩ | ⟨-, -, fault, h, hrun⟩
    · have hfault := Generator.fold_of_error hrun
      rw [hfold] at hfault
      cases hfault
    · have hfault := Generator.fold_of_error hrun
      rw [hfold] at hfault
      cases hfault
  · rintro ⟨hn, hbuilt, hadmitted⟩
    obtain ⟨h, hrun, hblocks⟩ := Generate.parts_admitted hbuilt (hstart.2 hadmitted)
    have hsettled : h.blocks = [] := hblocks.trans (t.foldl_turn_parts [])
    have hfold : start.fold t.parts = (.ok (), (start.fold t.parts).2) :=
      Prod.ext ((Generator.fold_of_ok hrun).1 hsettled) rfl
    obtain ⟨u, -, -, htext⟩ := Generate.fold_ok hfold
    exact ⟨_, ofParts_of_fold hn hfold htext⟩

/-- A block with two bodies is compiled exactly if its part is spelled like one and both bodies may
stand in a block. -/
theorem exists_choice_iff {head : Head} {first second : Template} :
    (∃ c, ofParts name (Template.choice head first second .done).parts = .ok c) ↔
      Generator.checkContextName name = .ok () ∧ head.part.Spelled name ∧
        first.MayStand name ∧ second.MayStand name := by
  have hbuilt : (∀ p ∈ (Template.choice head first second .done).parts, p.BuiltIn) ↔
      (∀ p ∈ first.parts, p.BuiltIn) ∧ ∀ p ∈ second.parts, p.BuiltIn := by
    have hhead := head.builtIn
    have hturn : Part.BuiltIn .otherwise := trivial
    have hclose : Part.BuiltIn .close := trivial
    simp [Template.parts, or_imp, forall_and, hhead, hturn, hclose]
  have hdepth : 0 < maxDepth := by decide
  rw [exists_iff, hbuilt, Template.AdmittedAt, Template.AdmittedAt]
  unfold Template.MayStand
  simp only [hdepth, and_true]
  tauto

end Compiled
end HtmlTemplate
