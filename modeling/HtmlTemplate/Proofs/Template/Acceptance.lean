import HtmlTemplate.Proofs.Template.Folding
import HtmlTemplate.Proofs.Template.Spelling
import Mathlib.Data.List.Induction

/-!
# Acceptance — which parts can be folded

Parts are well formed if their paths and bindings are spelled like such and their blocks match up
and are not nested too deep (`Part.WellFormed`).  Folding succeeds exactly on these.  Otherwise it
stops at the first part that is misspelled or misplaced, looking at the spelling first, or at the
end because of blocks that are left open (`Generator.fold_ok_iff_wellFormed`).
-/

namespace HtmlTemplate

open Text

/-- The open blocks at some place among parts, the innermost first: for each of them, whether its
else has come already. -/
abbrev Nesting := List Bool

namespace Part

/-! ## Well-formed parts -/

/-- A part of a kind that has code.  A composite value starts and ends with text. -/
def BuiltIn : Part → Prop
  | .composite segments => segments.length % 2 = 1
  | .foreign _ => False
  | _ => True

/-- The paths that a part reads. -/
def paths : Part → List String
  | .body path => [path]
  | .comment path => [path]
  | .composite segments => Generate.segmentPaths true segments
  | .optional _ path => [path]
  | .flag _ path => [path]
  | .conditional path _ _ => [path]
  | .loop path _ => [path]
  | _ => []

/-- Whether a part's paths and its binding are spelled like such. -/
structure Spelled (contextName : String) (p : Part) : Prop where
  paths : ∀ path ∈ p.paths, Path.WellSpelled path
  binding : ∀ path binding, p = .loop path binding → Binding.WellSpelled contextName binding

/-- The blocks that are open after a part. -/
def turn : Nesting → Part → Nesting
  | blocks, .conditional _ _ _ => false :: blocks
  | blocks, .loop _ _ => false :: blocks
  | _ :: blocks, .otherwise => true :: blocks
  | _ :: blocks, .close => blocks
  | blocks, _ => blocks

/-- Whether a part can stand where these blocks are open. -/
def FitsIn (blocks : Nesting) : Part → Prop
  | .conditional _ _ _ => blocks.length < maxDepth
  | .loop _ _ => blocks.length < maxDepth
  | .otherwise => blocks.head? = some false
  | .close => blocks ≠ []
  | _ => True

/-- The blocks that parts leave open. -/
def openBlocks (ps : List Part) : Nesting := ps.foldl turn []

/-- Parts whose blocks match up and are not nested too deep, and whose paths and bindings are
spelled like such. -/
structure WellFormed (contextName : String) (ps : List Part) : Prop where
  /-- Every else lies in an open block that has had none yet. -/
  elses : ∀ before after, ps = before ++ .otherwise :: after →
    (openBlocks before).head? = some false
  /-- Every close closes an open block. -/
  closes : ∀ before after, ps = before ++ .close :: after → openBlocks before ≠ []
  /-- No block is left open. -/
  settled : openBlocks ps = []
  /-- At no place are too many blocks open. -/
  depth : ∀ before, before <+: ps → (openBlocks before).length ≤ maxDepth
  spelled : ∀ p ∈ ps, p.Spelled contextName

/-- Whether each of the parts is spelled and fits where it stands. -/
def Admitted (contextName : String) (ps : List Part) : Prop :=
  ∀ before p after, ps = before ++ p :: after →
    p.Spelled contextName ∧ p.FitsIn (openBlocks before)

/-- Whether each of the parts is spelled and fits where it stands, given the blocks that are open
before them. -/
def AdmittedIn (contextName : String) : Nesting → List Part → Prop
  | _, [] => True
  | blocks, p :: ps =>
    p.Spelled contextName ∧ p.FitsIn blocks ∧ AdmittedIn contextName (turn blocks p) ps

variable {contextName : String} {blocks : Nesting} {ps : List Part}

@[simp] theorem turn_insertion (blocks : Nesting) (insertion : Insertion) :
    turn blocks insertion.part = blocks := by
  cases insertion <;> cases blocks <;> rfl

theorem fitsIn_insertion (blocks : Nesting) (insertion : Insertion) :
    insertion.part.FitsIn blocks := by
  cases insertion <;> trivial

/-- A part that is no loop only has paths to be spelled. -/
theorem spelled_iff {p : Part} (hp : ∀ path binding, p ≠ .loop path binding) :
    p.Spelled contextName ↔ ∀ path ∈ p.paths, Path.WellSpelled path := by
  constructor
  · intro h
    exact h.paths
  · intro h
    exact ⟨h, fun path binding he => absurd he (hp path binding)⟩

theorem admittedIn_iff : ∀ {blocks : Nesting}, AdmittedIn contextName blocks ps ↔
    ∀ before p after, ps = before ++ p :: after →
      p.Spelled contextName ∧ p.FitsIn (before.foldl turn blocks) := by
  induction ps with
  | nil =>
    intro blocks
    simp [AdmittedIn]
  | cons q qs ih =>
    intro blocks
    rw [AdmittedIn, ih]
    constructor
    · rintro ⟨hspelled, hfits, hrest⟩ before p after h
      cases before with
      | nil =>
        obtain ⟨rfl, -⟩ := List.cons.inj h
        exact ⟨hspelled, hfits⟩
      | cons r before =>
        obtain ⟨rfl, hqs⟩ := List.cons.inj h
        exact hrest before p after hqs
    · intro h
      obtain ⟨hspelled, hfits⟩ := h [] q qs rfl
      refine ⟨hspelled, hfits, ?_⟩
      intro before p after hqs
      exact h (q :: before) p after (congrArg (q :: ·) hqs)

theorem admitted_iff : Admitted contextName ps ↔ AdmittedIn contextName [] ps := admittedIn_iff.symm

theorem openBlocks_concat (ps : List Part) (p : Part) :
    openBlocks (ps ++ [p]) = turn (openBlocks ps) p := by
  unfold openBlocks
  rw [List.foldl_append]
  rfl

/-- A part that fits does not nest blocks too deep. -/
theorem FitsIn.length_turn {p : Part} (h : p.FitsIn blocks) (hd : blocks.length ≤ maxDepth) :
    (turn blocks p).length ≤ maxDepth := by
  cases p with
  | conditional path inverted emptiness => exact h
  | loop path binding => exact h
  | otherwise => cases blocks <;> exact hd
  | close =>
    cases blocks with
    | nil => exact hd
    | cons block blocks => exact Nat.le_of_succ_le hd
  | _ => cases blocks <;> exact hd

theorem Admitted.depth (h : Admitted contextName ps) : ∀ before, before <+: ps →
    (openBlocks before).length ≤ maxDepth := by
  intro before
  induction before using List.reverseRecOn with
  | nil =>
    intro _
    exact Nat.zero_le _
  | append_singleton before p ih =>
    rintro ⟨after, hps⟩
    have hsplit : ps = before ++ p :: after := by rw [← hps, List.append_assoc]; rfl
    rw [openBlocks_concat]
    exact (h before p after hsplit).2.length_turn (ih ⟨p :: after, hsplit.symm⟩)

/-- Parts are well formed if each is admitted and no block is left open. -/
theorem wellFormed_iff : WellFormed contextName ps ↔
    Admitted contextName ps ∧ openBlocks ps = [] := by
  constructor
  · intro h
    refine ⟨?_, h.settled⟩
    rintro before p after rfl
    have hopen : (openBlocks (before ++ [p])).length ≤ maxDepth :=
      h.depth _ ⟨after, by rw [List.append_assoc]; rfl⟩
    rw [openBlocks_concat] at hopen
    refine ⟨h.spelled p (List.mem_append_right _ List.mem_cons_self), ?_⟩
    cases p with
    | conditional path inverted emptiness => exact hopen
    | loop path binding => exact hopen
    | otherwise => exact h.elses before after rfl
    | close => exact h.closes before after rfl
    | _ => trivial
  · rintro ⟨hadmitted, hsettled⟩
    refine ⟨?_, ?_, hsettled, hadmitted.depth, ?_⟩
    · intro before after hps
      exact (hadmitted before _ after hps).2
    · intro before after hps
      exact (hadmitted before _ after hps).2
    · intro p hp
      obtain ⟨before, after, hps⟩ := List.append_of_mem hp
      exact (hadmitted before p after hps).1

end Part

/-! ## Steps -/

/-- Whether the else of a block has come already. -/
def Frame.hasElse : Frame → Bool
  | .plain hasElse => hasElse
  | .binding _ _ _ => false

/-- The open blocks of a generator. -/
def Generator.blocks (g : Generator) : Nesting := g.scope.frames.map Frame.hasElse

namespace Generate

variable {α β : Type} {g : Generator} {spelled spelled' fits : Prop} {blocks : Nesting}

/-- Whether a computation succeeds, with certain blocks left open, on input that is spelled and
fits, and refuses any other input, for its spelling first. -/
structure Obeys (m : Generate α) (g : Generator) (spelled fits : Prop) (blocks : Nesting) :
    Prop where
  misspelled : ¬ spelled → ∃ fault h, m.run g = (.error (.semantic fault), h)
  misplaced : spelled → ¬ fits → ∃ fault h, m.run g = (.error (.structural fault), h)
  accepted : spelled → fits → ∃ a h, m.run g = (.ok a, h) ∧ h.contextName = g.contextName ∧
    h.blocks = blocks

namespace Obeys

theorem of_ok {m : Generate α} {a : α} {h : Generator} (hm : m.run g = (.ok a, h))
    (hname : h.contextName = g.contextName) (hblocks : h.blocks = blocks) :
    Obeys m g True True blocks where
  misspelled := fun hno => absurd trivial hno
  misplaced := fun _ hno => absurd trivial hno
  accepted := fun _ _ => ⟨a, h, hm, hname, hblocks⟩

theorem congr {m : Generate α} (h : Obeys m g spelled fits blocks) (hiff : spelled' ↔ spelled) :
    Obeys m g spelled' fits blocks where
  misspelled := fun hno => h.misspelled fun hs => hno (hiff.2 hs)
  misplaced := fun hs => h.misplaced (hiff.1 hs)
  accepted := fun hs => h.accepted (hiff.1 hs)

/-- What comes after a check of the spelling may refuse more. -/
theorem bind {m : Generate α} {f : α → Generate β} (hm : Obeys m g spelled True g.blocks)
    (hf : ∀ a h, h.contextName = g.contextName → h.blocks = g.blocks →
      Obeys (f a) h spelled' fits blocks) :
    Obeys (m >>= f) g (spelled ∧ spelled') fits blocks := by
  have hrun : ∀ {a h}, m.run g = (.ok a, h) → (m >>= f).run g = (f a).run h := by
    intro a h hok
    rw [run_bind, hok]
  refine ⟨?_, ?_, ?_⟩
  · intro hno
    by_cases hs : spelled
    · obtain ⟨a, h, hok, hname, hblocks⟩ := hm.accepted hs trivial
      rw [hrun hok]
      exact (hf a h hname hblocks).misspelled fun hs' => hno ⟨hs, hs'⟩
    · obtain ⟨fault, h, herror⟩ := hm.misspelled hs
      rw [run_bind, herror]
      exact ⟨fault, h, rfl⟩
  · rintro ⟨hs, hs'⟩ hno
    obtain ⟨a, h, hok, hname, hblocks⟩ := hm.accepted hs trivial
    rw [hrun hok]
    exact (hf a h hname hblocks).misplaced hs' hno
  · rintro ⟨hs, hs'⟩ hfits
    obtain ⟨a, h, hok, hname, hblocks⟩ := hm.accepted hs trivial
    obtain ⟨b, k, hk, hname', hblocks'⟩ := (hf a h hname hblocks).accepted hs' hfits
    exact ⟨b, k, (hrun hok).trans hk, hname'.trans hname, hblocks'⟩

/-- Writing after a step changes nothing about what the step refuses. -/
theorem then_emit {m : Generate α} (hm : Obeys m g spelled fits blocks) (f : α → List Token) :
    Obeys (do let a ← m; emit (f a)) g spelled fits blocks := by
  refine ⟨?_, ?_, ?_⟩
  · intro hno
    obtain ⟨fault, h, herror⟩ := hm.misspelled hno
    rw [run_bind, herror]
    exact ⟨fault, h, rfl⟩
  · intro hs hno
    obtain ⟨fault, h, herror⟩ := hm.misplaced hs hno
    rw [run_bind, herror]
    exact ⟨fault, h, rfl⟩
  · intro hs hfits
    obtain ⟨a, h, hok, hname, hblocks⟩ := hm.accepted hs hfits
    rw [run_bind, hok]
    exact ⟨(), _, rfl, hname, hblocks⟩

theorem get {f : Generator → Generate β} (h : Obeys (f g) g spelled fits blocks) :
    Obeys (do f (← get)) g spelled fits blocks :=
  ⟨h.misspelled, h.misplaced, h.accepted⟩

end Obeys

/-! ## Paths -/

/-- Writing refuses nothing and leaves blocks as they are. -/
theorem obeys_emit (tokens : List Token) : Obeys (emit tokens) g True True g.blocks :=
  .of_ok rfl rfl rfl

/-- Reading a path refuses what is not spelled like one. -/
theorem obeys_reference (path : String) (required : Bool) :
    Obeys (reference path required) g (Path.WellSpelled path) True g.blocks := by
  unfold reference
  rw [← Path.check_eq_ok_iff]
  cases hp : Path.check path with
  | error fault =>
    refine ⟨fun _ => ⟨fault, g, rfl⟩, ?_, ?_⟩
    · intro h
      cases h
    · intro h
      cases h
  | ok _ =>
    have hframes : (g.scope.record path required).2.frames.map Frame.hasElse = g.blocks :=
      congrArg _ (Scope.frames_record path required)
    refine Obeys.congr ?_ (iff_of_true rfl trivial)
    exact .of_ok rfl rfl hframes

theorem obeys_path_piece (path : String) (required : Bool) (f : List Token → List Token) :
    Obeys (do piece (f (← reference path required))) g (Path.WellSpelled path) True g.blocks :=
  (obeys_reference path required).then_emit fun code => f code ++ separator

theorem obeys_composite {segments : List String} : ∀ {literal : Bool} {g : Generator},
    Obeys (composite literal segments) g
      (∀ path ∈ segmentPaths literal segments, Path.WellSpelled path) True g.blocks := by
  induction segments with
  | nil =>
    intro literal g
    have hdone : Obeys (pure () : Generate Unit) g True True g.blocks := .of_ok rfl rfl rfl
    cases literal <;> exact hdone.congr (by simp [segmentPaths])
  | cons segment rest ih =>
    intro literal g
    cases literal with
    | true =>
      rw [composite]
      split
      · exact ih
      · refine ((obeys_emit _).bind fun _ h _ hblocks => ?_).congr (true_and _).symm.to_iff
        exact hblocks ▸ ih
    | false =>
      rw [composite]
      refine ((obeys_reference segment true).bind fun code h _ hblocks => ?_).congr
        List.forall_mem_cons
      refine ((obeys_emit _).bind fun _ k _ hblocks' => ?_).congr (true_and _).symm.to_iff
      exact (hblocks'.trans hblocks) ▸ ih

/-! ## Nesting -/

/-- A step of the scope refuses what does not fit. -/
theorem obeys_onScope {step : Scope → Except StructureFault Scope}
    (hno : ¬ fits → ∃ fault, step g.scope = .error fault)
    (hyes : fits → ∃ s, step g.scope = .ok s ∧ s.frames.map Frame.hasElse = blocks) :
    Obeys (onScope step) g True fits blocks := by
  refine ⟨fun h => absurd trivial h, ?_, ?_⟩
  · intro _ hfits
    obtain ⟨fault, he⟩ := hno hfits
    refine ⟨fault, g, ?_⟩
    rw [onScope, run_get_bind, he]
    rfl
  · intro _ hfits
    obtain ⟨s, hs, hblocks⟩ := hyes hfits
    refine ⟨(), { g with scope := s }, ?_, rfl, hblocks⟩
    rw [onScope, run_get_bind, hs]
    rfl

theorem length_blocks (g : Generator) : g.blocks.length = g.scope.depth := List.length_map _

/-- A block is opened if there are not too many open. -/
theorem obeys_nestPlain : Obeys (onScope Scope.nestPlain) g True (g.blocks.length < maxDepth)
    (false :: g.blocks) := by
  rw [length_blocks]
  refine obeys_onScope ?_ ?_
  · intro hno
    exact ⟨.tooDeep, if_pos (Nat.le_of_not_lt hno)⟩
  · intro hfits
    exact ⟨_, if_neg (Nat.not_le_of_lt hfits), rfl⟩

/-- A block over elements opens like any other. -/
theorem frames_nestIterable_of_depth (s : Scope) (path : String) {binding : String}
    (hdot : '.' ∉ binding.toList) :
    (¬ s.depth < maxDepth → (s.nestIterable path binding).1 = .error (.structural .tooDeep)) ∧
      (s.depth < maxDepth → ∃ a, (s.nestIterable path binding).1 = .ok a ∧
        (s.nestIterable path binding).2.frames.map Frame.hasElse =
          false :: s.frames.map Frame.hasElse) := by
  have hframes : (s.recordIterated path).2.frames = s.frames := rfl
  unfold Scope.nestIterable Scope.depth
  constructor
  · intro hdeep
    have hd : maxDepth ≤ s.frames.length := Nat.le_of_not_lt hdeep
    cases hb : binding.isEmpty <;>
      simp [hdot, Scope.push, Scope.bindName, Scope.depth, hframes, hd, bind, Except.bind]
  · intro hlow
    have hd : ¬ maxDepth ≤ s.frames.length := Nat.not_le_of_lt hlow
    cases hb : binding.isEmpty <;>
      simp [hdot, Scope.push, Scope.bindName, Scope.depth, hframes, hd, bind, Except.bind, pure,
        Except.pure, Frame.hasElse]

theorem obeys_nestIterable (path : String) {binding : String} (hdot : '.' ∉ binding.toList) :
    Obeys (nestIterable path binding) g True (g.blocks.length < maxDepth) (false :: g.blocks) := by
  obtain ⟨hdeep, hlow⟩ := frames_nestIterable_of_depth g.scope path hdot
  rw [length_blocks]
  cases hnest : g.scope.nestIterable path binding with
  | mk result scope =>
    rw [hnest] at hdeep hlow
    refine ⟨fun h => absurd trivial h, ?_, ?_⟩
    · intro _ hno
      obtain rfl : result = .error (.structural .tooDeep) := hdeep hno
      refine ⟨.tooDeep, { g with scope }, ?_⟩
      rw [nestIterable, run_get_bind, hnest]
      rfl
    · intro _ hfits
      obtain ⟨a, rfl, hblocks⟩ : ∃ a, result = .ok a ∧ _ := hlow hfits
      refine ⟨(), { g with scope }, ?_, rfl, hblocks⟩
      rw [nestIterable, run_get_bind, hnest]
      rfl

/-- An else needs an open block that has had none. -/
theorem obeys_enterElse : Obeys (onScope Scope.enterElse) g True (g.blocks.head? = some false)
    (Part.turn g.blocks .otherwise) := by
  unfold Generator.blocks
  refine obeys_onScope ?_ ?_
  · intro hno
    unfold Scope.enterElse
    split
    · exact ⟨_, rfl⟩
    · exact ⟨_, rfl⟩
    · rename_i frame rest hne hframes
      rw [hframes] at hno
      cases frame with
      | plain hasElse =>
        cases hasElse with
        | false => exact absurd rfl hno
        | true => exact absurd rfl hne
      | binding name address previous => exact absurd rfl hno
  · intro hfits
    unfold Scope.enterElse
    cases hframes : g.scope.frames with
    | nil =>
      rw [hframes] at hfits
      cases hfits
    | cons frame rest =>
      rw [hframes] at hfits
      cases frame with
      | plain hasElse =>
        cases hasElse with
        | false => exact ⟨_, rfl, rfl⟩
        | true => cases hfits
      | binding name address previous => exact ⟨_, rfl, rfl⟩

/-- A close needs an open block. -/
theorem obeys_pop : Obeys (onScope Scope.pop) g True (g.blocks ≠ [])
    (Part.turn g.blocks .close) := by
  unfold Generator.blocks
  refine obeys_onScope ?_ ?_
  · intro hno
    have hframes : g.scope.frames = [] := by simpa using hno
    unfold Scope.pop
    rw [hframes]
    exact ⟨_, rfl⟩
  · intro hfits
    unfold Scope.pop
    cases hframes : g.scope.frames with
    | nil => simp [hframes] at hfits
    | cons frame rest =>
      refine ⟨_, rfl, ?_⟩
      rw [frames_release]
      rfl

/-! ## Parts -/

/-- A quote behind the last text changes no path. -/
theorem segmentPaths_closeQuote : ∀ segments : List String, segments.length % 2 = 1 →
    segmentPaths true (closeQuote segments) = segmentPaths true segments
  | [], h => absurd h (by simp)
  | [_], _ => rfl
  | [_, _], h => absurd h (by simp)
  | first :: path :: next :: rest, h => by
    have hodd : (next :: rest).length % 2 = 1 := by
      simp only [List.length_cons] at h ⊢
      omega
    rw [closeQuote_cons_cons, closeQuote_cons_cons]
    exact congrArg (path :: ·) (segmentPaths_closeQuote (next :: rest) hodd)

theorem segmentPaths_quoteSegments {segments : List String} (h : segments.length % 2 = 1) :
    segmentPaths true (quoteSegments segments) = segmentPaths true segments := by
  cases segments with
  | nil => cases h
  | cons first rest => exact segmentPaths_closeQuote (("\"" ++ first) :: rest) h

/-- An insertion only reads paths. -/
theorem obeys_insertion {insertion : Insertion} (hi : insertion.part.BuiltIn) :
    Obeys (part insertion.part) g (∀ path ∈ insertion.part.paths, Path.WellSpelled path) True
      g.blocks := by
  have hone : ∀ {path : String}, (∀ q ∈ [path], Path.WellSpelled q) ↔ Path.WellSpelled path :=
    List.forall_mem_singleton
  cases insertion with
  | raw text => exact (obeys_emit _).congr (by simp [Insertion.part, Part.paths])
  | body path => exact (obeys_path_piece path false _).congr hone
  | comment path => exact (obeys_path_piece path false _).congr hone
  | composite segments =>
    have hne : ¬ segments.isEmpty = true := by
      rintro he
      rw [List.isEmpty_iff.1 he] at hi
      cases hi
    have hpart : part (.composite segments) = composite true (quoteSegments segments) := by
      rw [part, if_neg hne]
    rw [Insertion.part, hpart, Part.paths, ← segmentPaths_quoteSegments hi]
    exact obeys_composite
  | optional key path => exact (obeys_path_piece path false (optionalCode key)).congr hone
  | flag key path => exact (obeys_path_piece path false _).congr hone

theorem obeys_conditional (path : String) (inverted emptiness : Bool) :
    Obeys (conditional path inverted emptiness) g (Path.WellSpelled path)
      (g.blocks.length < maxDepth) (false :: g.blocks) := by
  refine ((obeys_reference path false).bind fun code h _ hblocks => ?_).congr (and_true _).symm.to_iff
  rw [← hblocks]
  cases emptiness with
  | false => exact obeys_nestPlain.then_emit _
  | true => exact (obeys_nestIterable path List.not_mem_nil).then_emit _

theorem obeys_loop (path binding : String) :
    Obeys (loop path binding) g ((Part.loop path binding).Spelled g.contextName)
      (g.blocks.length < maxDepth) (false :: g.blocks) := by
  have hspelled : (Part.loop path binding).Spelled g.contextName ↔
      Path.WellSpelled path ∧ Binding.WellSpelled g.contextName binding := by
    constructor
    · intro h
      exact ⟨h.paths path List.mem_cons_self, h.binding path binding rfl⟩
    · rintro ⟨hpath, hbinding⟩
      refine ⟨List.forall_mem_singleton.2 hpath, ?_⟩
      intro other name he
      cases he
      exact hbinding
  refine ((obeys_reference path false).bind fun code h hname hblocks => ?_).congr hspelled
  rw [← hblocks, ← hname, ← Binding.isOk_check_iff]
  refine Obeys.get ?_
  cases hcheck : Binding.check h.contextName binding with
  | error fault =>
    refine ⟨fun _ => ⟨fault, h, rfl⟩, ?_, ?_⟩
    · intro hok
      cases hok
    · intro hok
      cases hok
  | ok name =>
    have hdot : '.' ∉ binding.toList := by
      intro hmem
      have hsegment := (Binding.isOk_check_iff.1 (congrArg Except.isOk hcheck)).segment
      exact absurd (Path.isNameChar_iff.2 (hsegment.2 '.' hmem)) (by decide)
    refine Obeys.congr ?_ (iff_of_true rfl trivial)
    exact (obeys_nestIterable path hdot).then_emit _

/-- A part is refused if it is misspelled or does not fit where it stands. -/
theorem obeys_part {p : Part} (hp : p.BuiltIn) :
    Obeys (part p) g (p.Spelled g.contextName) (p.FitsIn g.blocks) (p.turn g.blocks) := by
  rcases p.kinds with ⟨insertion, rfl⟩ | ⟨head, rfl⟩ | rfl | rfl | ⟨kind, rfl⟩
  · have hfits : insertion.part.FitsIn g.blocks = True :=
      eq_true (Part.fitsIn_insertion g.blocks insertion)
    rw [Part.turn_insertion, hfits]
    refine (obeys_insertion hp).congr (Part.spelled_iff ?_)
    intro path binding
    cases insertion <;> exact Part.noConfusion
  · cases head with
    | conditional path inverted emptiness =>
      refine (obeys_conditional path inverted emptiness).congr ?_
      exact (Part.spelled_iff fun _ _ => Part.noConfusion).trans List.forall_mem_singleton
    | loop path binding => exact obeys_loop path binding
  · refine (obeys_enterElse.then_emit _).congr ?_
    exact (Part.spelled_iff fun _ _ => Part.noConfusion).trans (by simp [Part.paths])
  · refine (obeys_pop.then_emit _).congr ?_
    exact (Part.spelled_iff fun _ _ => Part.noConfusion).trans (by simp [Part.paths])
  · exact hp.elim

/-! ## Runs -/

/-- Parts that are admitted are folded, and leave their blocks open. -/
theorem parts_admitted {ps : List Part} : ∀ {g : Generator}, (∀ p ∈ ps, p.BuiltIn) →
    Part.AdmittedIn g.contextName g.blocks ps →
    ∃ h, (parts ps).run g = (.ok (), h) ∧ h.blocks = ps.foldl Part.turn g.blocks := by
  induction ps with
  | nil =>
    intro g _ _
    exact ⟨g, rfl, rfl⟩
  | cons p ps ih =>
    rintro g hbuilt ⟨hspelled, hfits, hrest⟩
    rw [List.forall_mem_cons] at hbuilt
    obtain ⟨_, h, hp, hname, hblocks⟩ := (obeys_part hbuilt.1).accepted hspelled hfits
    rw [← hname, ← hblocks] at hrest
    obtain ⟨k, hps, hk⟩ := ih hbuilt.2 hrest
    refine ⟨k, ?_, ?_⟩
    · rw [parts, run_bind, hp]
      exact hps
    · rw [hk, hblocks]
      rfl

/-- Parts that are not admitted are refused at the first one that is misspelled or misplaced. -/
theorem parts_refused {ps : List Part} : ∀ {g : Generator}, (∀ p ∈ ps, p.BuiltIn) →
    ¬ Part.AdmittedIn g.contextName g.blocks ps →
    ∃ before p after, ps = before ++ p :: after ∧
      Part.AdmittedIn g.contextName g.blocks before ∧
      ((¬ p.Spelled g.contextName ∧
          ∃ fault h, (parts ps).run g = (.error (.semantic fault), h)) ∨
        (p.Spelled g.contextName ∧ ¬ p.FitsIn (before.foldl Part.turn g.blocks) ∧
          ∃ fault h, (parts ps).run g = (.error (.structural fault), h))) := by
  induction ps with
  | nil =>
    intro g _ hno
    exact absurd trivial hno
  | cons p ps ih =>
    intro g hbuilt hno
    rw [List.forall_mem_cons] at hbuilt
    have hobeys := obeys_part (g := g) hbuilt.1
    by_cases hspelled : p.Spelled g.contextName
    · by_cases hfits : p.FitsIn g.blocks
      · -- The first part is folded, so that the fault lies behind it.
        obtain ⟨_, h, hp, hname, hblocks⟩ := hobeys.accepted hspelled hfits
        have hrest : ¬ Part.AdmittedIn h.contextName h.blocks ps := by
          rw [hname, hblocks]
          exact fun hrest => hno ⟨hspelled, hfits, hrest⟩
        have hrun : (parts (p :: ps)).run g = (parts ps).run h := by rw [parts, run_bind, hp]
        obtain ⟨before, q, after, rfl, hbefore, hq⟩ := ih hbuilt.2 hrest
        rw [hname, hblocks] at hbefore hq
        rw [hrun]
        exact ⟨p :: before, q, after, rfl, ⟨hspelled, hfits, hbefore⟩, hq⟩
      · obtain ⟨fault, h, herror⟩ := hobeys.misplaced hspelled hfits
        refine ⟨[], p, ps, rfl, trivial, Or.inr ⟨hspelled, hfits, fault, h, ?_⟩⟩
        rw [parts, run_bind, herror]
    · obtain ⟨fault, h, herror⟩ := hobeys.misspelled hspelled
      refine ⟨[], p, ps, rfl, trivial, Or.inl ⟨hspelled, fault, h, ?_⟩⟩
      rw [parts, run_bind, herror]

end Generate

/-! ## Folding -/

namespace Generator

variable {name : String} {g : Generator} {ps : List Part}

/-- A generator whose output has the start of a body behind it. -/
def started (g : Generator) : Generator := { g with output := g.output ++ Generate.bodyOpen }

/-- A fold stops at the part where its parts stop. -/
theorem fold_of_error {fault : Error} {h : Generator}
    (hrun : (Generate.parts ps).run g.started = (.error fault, h)) :
    (g.fold ps).1 = .error fault := by
  unfold fold Generate.fold
  rw [Generate.run_bind]
  change ((Generate.parts ps >>= _).run g.started).1 = _
  rw [Generate.run_bind, hrun]

/-- At the end a fold looks whether a block is left open. -/
theorem fold_of_ok {h : Generator} (hrun : (Generate.parts ps).run g.started = (.ok (), h)) :
    (h.blocks = [] → (g.fold ps).1 = .ok ()) ∧
      (h.blocks ≠ [] → ∃ fault, (g.fold ps).1 = .error (.structural fault)) := by
  have hfold : (g.fold ps).1 = (h.scope.finish.mapError Error.structural) := by
    unfold fold Generate.fold
    rw [Generate.run_bind]
    change ((Generate.parts ps >>= _).run g.started).1 = _
    rw [Generate.run_bind, hrun]
    dsimp only
    rw [Generate.run_get_bind]
    cases h.scope.finish <;> rfl
  rw [hfold]
  unfold blocks Scope.finish
  rw [ne_eq, List.map_eq_nil_iff, ← List.isEmpty_iff]
  constructor
  · intro hnone
    rw [if_pos hnone]
    rfl
  · intro hopen
    rw [if_neg hopen]
    exact ⟨_, rfl⟩

/-- Folding succeeds exactly on well-formed parts.  Otherwise it refuses the first part that is
misspelled, or spelled and misplaced, or at the end the blocks that are left open. -/
theorem fold_ok_iff_wellFormed (hg : ofContextName name = .ok g) (hps : ∀ p ∈ ps, p.BuiltIn) :
    ((g.fold ps).1 = .ok () ↔ Part.WellFormed name ps) ∧
    (¬ Part.WellFormed name ps →
      (∃ before p after fault, ps = before ++ p :: after ∧ Part.Admitted name before ∧
        ¬ p.Spelled name ∧ (g.fold ps).1 = .error (.semantic fault)) ∨
      (∃ before p after fault, ps = before ++ p :: after ∧ Part.Admitted name before ∧
        p.Spelled name ∧ ¬ p.FitsIn (Part.openBlocks before) ∧
        (g.fold ps).1 = .error (.structural fault)) ∨
      (∃ fault, Part.Admitted name ps ∧ Part.openBlocks ps ≠ [] ∧
        (g.fold ps).1 = .error (.structural fault))) := by
  obtain ⟨rfl, -⟩ := ofContextName_ok hg
  rw [Part.wellFormed_iff]
  let start : Generator := ⟨name, .empty, #[], none⟩
  by_cases hadmitted : Part.Admitted name ps
  · have hstarted : Part.AdmittedIn start.started.contextName start.started.blocks ps :=
      Part.admitted_iff.1 hadmitted
    obtain ⟨h, hrun, hblocks⟩ := Generate.parts_admitted hps hstarted
    have hopen : h.blocks = Part.openBlocks ps := hblocks
    obtain ⟨hsettled, hleft⟩ := fold_of_ok hrun
    rw [hopen] at hsettled hleft
    by_cases hsettles : Part.openBlocks ps = []
    · exact ⟨iff_of_true (hsettled hsettles) ⟨hadmitted, hsettles⟩,
        fun hno => absurd ⟨hadmitted, hsettles⟩ hno⟩
    · obtain ⟨fault, hfault⟩ := hleft hsettles
      refine ⟨?_, fun _ => Or.inr (Or.inr ⟨fault, hadmitted, hsettles, hfault⟩)⟩
      rw [hfault]
      exact iff_of_false (fun he => by cases he) fun hw => hsettles hw.2
  · have hstarted : ¬ Part.AdmittedIn start.started.contextName start.started.blocks ps :=
      mt Part.admitted_iff.2 hadmitted
    obtain ⟨before, p, after, hsplit, hbefore, hcases⟩ := Generate.parts_refused hps hstarted
    have hclean : Part.Admitted name before := Part.admitted_iff.2 hbefore
    rcases hcases with ⟨hmisspelled, fault, h, hrun⟩ | ⟨hspelled, hmisplaced, fault, h, hrun⟩
    · have hfault := fold_of_error hrun
      refine ⟨?_, fun _ => Or.inl ⟨before, p, after, fault, hsplit, hclean, hmisspelled, hfault⟩⟩
      rw [hfault]
      exact iff_of_false (fun he => by cases he) fun hw => hadmitted hw.1
    · have hfault := fold_of_error hrun
      refine ⟨?_, fun _ => Or.inr (Or.inl
        ⟨before, p, after, fault, hsplit, hclean, hspelled, hmisplaced, hfault⟩)⟩
      rw [hfault]
      exact iff_of_false (fun he => by cases he) fun hw => hadmitted hw.1

/-- A loop with an else is well formed, and an else after it is not. -/
theorem wellFormed_loop : ∃ g, ofContextName "context" = .ok g ∧
    Part.WellFormed "context" [.loop "xs" "x", .body "x.y", .otherwise, .raw "-", .close] ∧
    ¬ Part.WellFormed "context" [.loop "xs" "x", .close, .otherwise] := by
  have hg : ofContextName "context" = .ok ⟨"context", .empty, #[], none⟩ := rfl
  refine ⟨_, hg, ?_, ?_⟩
  · have hbuilt : ∀ p ∈ [Part.loop "xs" "x", .body "x.y", .otherwise, .raw "-", .close],
        p.BuiltIn := by simp [Part.BuiltIn]
    exact (fold_ok_iff_wellFormed hg hbuilt).1.1 rfl
  · have hbuilt : ∀ p ∈ [Part.loop "xs" "x", .close, .otherwise], p.BuiltIn := by
      simp [Part.BuiltIn]
    intro hw
    have hfold := (fold_ok_iff_wellFormed hg hbuilt).1.2 hw
    cases hfold

end Generator
end HtmlTemplate
