import HtmlTemplate.Proofs.Template.Admission
import HtmlTemplate.Proofs.Template.Evaluation
import HtmlTemplate.Proofs.Template.Reading
import HtmlTemplate.Proofs.Template.Recording

/-!
# Midway — folding some parts among others

A fold can have come to any place among parts, with any blocks open.  What holds of its generator
there is kept by every part that is accepted (`Generator.Midway.parts`).  A template that is folded
there appends its code, for the bindings that are live.  If it only inserts, the code comes to what
it inserts, whatever these bindings stand for (`Generator.Midway.adds_insertions`).
-/

namespace HtmlTemplate

open Text

namespace Generator

open Generate

/-- What holds of a generator between two parts: the blocks that are open, what has been read so
far, and that the live bindings have variables. -/
structure Midway (name : String) (blocks : Blocks) (refs : List Reference) (g : Generator) :
    Prop where
  contextName : g.contextName = name
  follows : g.scope.Follows blocks refs
  named : Named (liveNames g.scope.frames)

/-- Whether folding parts ends with `h`, and what it appends is read, as a body of its own, as
`e`. -/
def Adds (g : Generator) (ps : List Part) (h : Generator) (e : Expr) : Prop :=
  Yields (Generate.parts ps) g () h ∧
    ∃ added, h.output.toList = g.output.toList ++ added ∧
      Expr.ofText (Token.textOf (bodyOpen ++ added ++ bodyClose)) = .ok e

/-- What is appended is read in one way. -/
theorem Adds.unique {g h k : Generator} {ps : List Part} {e f : Expr} (he : g.Adds ps h e)
    (hf : g.Adds ps k f) : e = f := by
  obtain ⟨hy, added, hadded, hread⟩ := he
  obtain ⟨hy', added', hadded', hread'⟩ := hf
  obtain rfl : h = k := congrArg (·.2) (hy.symm.trans hy')
  obtain rfl := List.append_cancel_left (hadded.symm.trans hadded')
  exact Except.ok.inj (hread.symm.trans hread')

/-! ## Any place -/

theorem midway_started {name : String} {g : Generator} (hg : ofContextName name = .ok g) :
    g.started.Midway name [] [] := by
  obtain ⟨rfl, -⟩ := ofContextName_ok hg
  exact ⟨rfl, Scope.follows_empty, fun b hb => by cases hb⟩

namespace Midway

variable {name : String} {blocks : Blocks} {refs : List Reference} {g h : Generator}

/-- With a block less, the bindings that are left are still live. -/
theorem named_of_frames (hm : g.Midway name blocks refs) {frame : Frame} {rest : List Frame}
    (hframes : g.scope.frames = frame :: rest) : Named (liveNames rest) := by
  intro b hb
  refine hm.named b ?_
  rw [hframes, liveNames, List.mem_filterMap]
  obtain ⟨other, hmem, hname⟩ := List.mem_filterMap.1 hb
  exact ⟨other, List.mem_cons_of_mem _ hmem, hname⟩

/-- Where a frame is, a block is open. -/
theorem exists_block (hm : g.Midway name blocks refs) {frame : Frame} {rest : List Frame}
    (hframes : g.scope.frames = frame :: rest) :
    ∃ block around, blocks = block :: around := by
  rw [hm.follows.blocks_eq, hframes]
  exact ⟨_, _, rfl⟩

/-- A part that is accepted keeps it so. -/
theorem part {p : Part} (hm : g.Midway name blocks refs) (hy : Yields (Generate.part p) g () h) :
    ∃ blocks' refs', h.Midway name blocks' refs' := by
  have hc := hm.follows.consistent
  rcases p.kinds with ⟨insertion, rfl⟩ | ⟨head, rfl⟩ | rfl | rfl | ⟨kind, rfl⟩
  · obtain ⟨hemits, -⟩ := hy.of_insertion hc
    exact ⟨blocks, _, hemits.contextName.trans hm.contextName, hy.follows_insertion hm.follows,
      hemits.frames.symm ▸ hm.named⟩
  · have hopen := hy.of_head hc
    obtain ⟨frame, hframes, -, hlive⟩ := hopen.frame
    refine ⟨_, _, hopen.contextName.trans hm.contextName, hy.follows_head hm.follows, ?_⟩
    rw [hframes, hlive]
    exact hm.named.within hopen.sound
  · obtain ⟨frame, rest, hg, -, hframes, -, hname, -⟩ := hy.of_otherwise hc
    obtain ⟨block, around, rfl⟩ := hm.exists_block hg
    -- The other body of a loop has the block's frame, but not its binding.
    have hlive : liveNames (.plain true :: rest) = liveNames rest := rfl
    refine ⟨_, _, hname.trans hm.contextName, hy.follows_otherwise hm.follows, ?_⟩
    rw [hframes, hlive]
    exact hm.named_of_frames hg
  · obtain ⟨frame, rest, hg, hframes, -, hname, -⟩ := hy.of_close hc
    obtain ⟨block, around, rfl⟩ := hm.exists_block hg
    refine ⟨_, _, hname.trans hm.contextName, hy.follows_close hm.follows, ?_⟩
    rw [hframes]
    exact hm.named_of_frames hg
  · exact hy.of_throw.elim

/-- So it holds wherever a fold has come. -/
theorem parts {ps : List Part} (hm : g.Midway name blocks refs)
    (hy : Yields (Generate.parts ps) g () h) : ∃ blocks' refs', h.Midway name blocks' refs' := by
  induction ps generalizing g blocks refs with
  | nil =>
    obtain ⟨-, rfl⟩ := hy.of_pure
    exact ⟨blocks, refs, hm⟩
  | cons p ps ih =>
    obtain ⟨k, hpart, hparts⟩ := hy.of_parts_cons
    obtain ⟨blocks', refs', hk⟩ := hm.part hpart
    exact ih hk hparts

/-! ## A template -/

open HtmlTemplate.Expr Meaning

/-- A template that is folded somewhere appends its code, and its paths are recorded. -/
theorem adds {t : Template} (hm : g.Midway name blocks refs)
    (hy : Yields (Generate.parts t.parts) g () h) (hn : checkContextName name = .ok ()) :
    g.Adds t.parts h (joined (t.code (normalName name) (liveNames g.scope.frames))) ∧
      h.scope.Follows blocks (refs ++ t.references blocks) := by
  obtain ⟨hemits, hsound⟩ := emits_template t hm.follows.consistent hy
  rw [hm.contextName] at hemits
  have hread := readAs_joined
    (readAsAll_code (checkContextName_ok hn).1 t hsound (liveNames g.scope.frames) hm.named)
  refine ⟨⟨hy, _, hemits.output, ?_⟩, follows_template t hm.follows hy⟩
  rw [← written_joined, Expr.ofText_written hread.1, hread.2]

end Midway
end Generator

/-! ## Insertions -/

namespace Template

/-- Insertions, one after another. -/
def ofInsertions (insertions : List Insertion) : Template := insertions.foldr .insert .done

theorem parts_ofInsertions (insertions : List Insertion) :
    (ofInsertions insertions).parts = insertions.map Insertion.part := by
  induction insertions with
  | nil => rfl
  | cons insertion insertions ih => exact congrArg (insertion.part :: ·) ih

theorem references_ofInsertions (blocks : Blocks) (insertions : List Insertion) :
    (ofInsertions insertions).references blocks =
      insertions.flatMap (Insertion.references blocks) := by
  induction insertions with
  | nil => rfl
  | cons insertion insertions ih => exact congrArg (insertion.references blocks ++ ·) ih

/-- Insertions come to what they mean, if the helpers that they call can be. -/
theorem renders_ofInsertions {name : String} {context : Value} {insertions : List Insertion}
    (hn : Generator.checkContextName name = .ok ())
    (hfree : ∀ i ∈ insertions, ∀ helper ∈ i.helpers, normalName name ≠ helper.name)
    (hsound : ∀ i ∈ insertions, i.Sound) (bindings : Bindings) :
    Renders False (environment name context bindings)
      ((ofInsertions insertions).code (normalName name) (bindings.map (·.1)))
      (Piece.output <$> (ofInsertions insertions).trace context bindings) := by
  induction insertions with
  | nil =>
    refine Renders.nil.congr ?_
    simp [ofInsertions, trace]
  | cons insertion insertions ih =>
    obtain ⟨hfree, hfrees⟩ := List.forall_mem_cons.1 hfree
    obtain ⟨hsound, hsounds⟩ := List.forall_mem_cons.1 hsound
    have hfirst : Renders False (environment name context bindings) _ _ :=
      renders_insertion hn (fun helper hmem => Or.inl (hfree helper hmem)) bindings hsound
    refine (hfirst.append (ih hfrees hsounds)).congr ?_
    simp [ofInsertions, trace]

end Template

namespace Generate

/-- Insertions are accepted anywhere if their paths are spelled like such. -/
theorem exists_yields_insertions {insertions : List Insertion}
    (hsound : ∀ i ∈ insertions, i.Sound)
    (hpaths : ∀ i ∈ insertions, ∀ path ∈ i.part.paths, Path.check path = .ok ()) (g : Generator) :
    ∃ h, Yields (parts (Template.ofInsertions insertions).parts) g () h := by
  rw [Template.parts_ofInsertions]
  induction insertions generalizing g with
  | nil => exact ⟨g, rfl⟩
  | cons insertion insertions ih =>
    obtain ⟨hsound, hsounds⟩ := List.forall_mem_cons.1 hsound
    obtain ⟨hpath, hpaths⟩ := List.forall_mem_cons.1 hpaths
    obtain ⟨_, k, hpart, -⟩ := (obeys_insertion (Insertion.builtIn hsound)).accepted
      (fun path hmem => Path.check_eq_ok_iff.1 (hpath path hmem)) trivial
    obtain ⟨h, hparts⟩ := ih hsounds hpaths k
    exact ⟨h, Yields.bind hpart hparts⟩

end Generate

/-- Insertions whose paths are spelled like such are accepted anywhere, and append what they mean
there. -/
theorem Generator.Midway.adds_insertions {name : String} {blocks : Blocks} {refs : List Reference}
    {g : Generator} (hm : g.Midway name blocks refs) (hn : checkContextName name = .ok ())
    {insertions : List Insertion} (hsound : ∀ i ∈ insertions, i.Sound)
    (hfree : ∀ i ∈ insertions, ∀ helper ∈ i.helpers, normalName name ≠ helper.name)
    (hpaths : ∀ i ∈ insertions, ∀ path ∈ i.part.paths, Path.check path = .ok ()) :
    ∃ h e, g.Adds (insertions.map Insertion.part) h e ∧
      h.scope.Follows blocks (refs ++ insertions.flatMap (Insertion.references blocks)) ∧
      ∀ context bindings, bindings.map (·.1) = liveNames g.scope.frames →
        e.eval (environment name context bindings) = Meaning.said <$> Piece.output <$>
          (Template.ofInsertions insertions).trace context bindings := by
  obtain ⟨h, hy⟩ := Generate.exists_yields_insertions hsound hpaths g
  obtain ⟨hadds, hfollows⟩ := hm.adds hy hn
  rw [Template.parts_ofInsertions] at hadds
  rw [Template.references_ofInsertions] at hfollows
  refine ⟨h, _, hadds, hfollows, fun context bindings hbindings => ?_⟩
  -- The code names the live bindings, whose variables hold the elements given.
  have hrenders : Renders False (environment name context bindings) _ _ :=
    Template.renders_ofInsertions hn hfree hsound bindings
  rw [hbindings] at hrenders
  exact hrenders.joined.eq

end HtmlTemplate
