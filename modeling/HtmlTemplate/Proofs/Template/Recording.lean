import HtmlTemplate.Proofs.Scope.Inference
import HtmlTemplate.Proofs.Shape.Named
import HtmlTemplate.Proofs.Template.Compiled

/-!
# Recording — what a template reads is what its scope has recorded

`Template.references` lists the paths that a template reads, each resolved through the bindings of
the loops around it.  When the parts of a template are folded, its scope records just these
(`Generate.follows_template`), so that what is compiled tells of them: the context is required if a
required path is read from it, and its type names every field that is read from it
(`Compiled.anyRequired_iff`, `Compiled.namesField_of_read`).
-/

namespace HtmlTemplate

open Text

/-! ## References -/

/-- The names of live bindings, the innermost first. -/
def Blocks.names (blocks : Blocks) : List String := blocks.filterMap (·.map (·.1))

/-- The paths that an insertion reads.  A composite value always renders, so that what it reads is
required. -/
def Insertion.references (blocks : Blocks) : Insertion → List Reference
  | .raw _ => []
  | .body path => [.ofPath blocks path false false]
  | .comment path => [.ofPath blocks path false false]
  | .composite segments =>
    (Generate.segmentPaths true (Generate.quoteSegments segments)).map fun path =>
      .ofPath blocks path true false
  | .optional _ path => [.ofPath blocks path false false]
  | .flag _ path => [.ofPath blocks path false false]

/-- The paths that the start of a block reads: a loop goes through the elements too, and so does the
test whether there are any. -/
def Head.references (blocks : Blocks) : Head → List Reference
  | .conditional path _ emptiness =>
    .ofPath blocks path false false :: if emptiness then [.ofPath blocks path false true] else []
  | .loop path _ => [.ofPath blocks path false false, .ofPath blocks path false true]

/-- The open blocks in the first body of a block. -/
def Head.blocks (blocks : Blocks) : Head → Blocks
  | .conditional _ _ _ => none :: blocks
  | .loop path binding =>
    some (binding, (Reference.ofPath blocks path false true).address) :: blocks

/-- The paths that a template reads, in order. -/
def Template.references : Blocks → Template → List Reference
  | _, .done => []
  | blocks, .insert insertion rest => insertion.references blocks ++ rest.references blocks
  | blocks, .block head body rest =>
    head.references blocks ++ body.references (head.blocks blocks) ++ rest.references blocks
  | blocks, .choice head body other rest =>
    head.references blocks ++ body.references (head.blocks blocks) ++
      other.references (none :: blocks) ++ rest.references blocks

namespace Generate

open Scope

variable {g h : Generator} {blocks : Blocks} {refs : List Reference}

/-! ## Steps -/

/-- A path that is read is recorded. -/
theorem Yields.follows_reference (hf : g.scope.Follows blocks refs) {path : String}
    {required : Bool} {code : List Token} (hy : Yields (reference path required) g code h) :
    h.scope.Follows blocks (refs ++ [.ofPath blocks path required false]) := by
  obtain ⟨-, -, rfl⟩ := hy.of_reference hf.consistent
  exact hf.record path required

theorem Yields.follows_path_piece (hf : g.scope.Follows blocks refs) {path : String}
    {required : Bool} {f : List Token → List Token}
    (hy : Yields (do piece (f (← reference path required))) g () h) :
    h.scope.Follows blocks (refs ++ [.ofPath blocks path required false]) := by
  obtain ⟨code, k, href, hpiece⟩ := hy.of_bind
  obtain rfl := hpiece.of_emit
  exact href.follows_reference hf

theorem Yields.follows_composite {segments : List String} :
    ∀ {literal : Bool} {g : Generator} {refs : List Reference},
      Yields (composite literal segments) g () h → g.scope.Follows blocks refs →
      h.scope.Follows blocks
        (refs ++ (segmentPaths literal segments).map fun path => .ofPath blocks path true false) := by
  induction segments with
  | nil =>
    intro literal g refs hy hf
    cases hy
    cases literal <;> simpa [segmentPaths] using hf
  | cons segment rest ih =>
    intro literal g refs hy hf
    cases literal with
    | true =>
      rw [composite] at hy
      split at hy
      · exact ih hy hf
      · obtain ⟨_, k, hpiece, hrest⟩ := hy.of_bind
        obtain rfl := hpiece.of_emit
        exact ih hrest hf
    | false =>
      rw [composite] at hy
      obtain ⟨code, k, href, hmore⟩ := hy.of_bind
      obtain ⟨_, l, hpiece, hrest⟩ := hmore.of_bind
      have hread := href.follows_reference hf
      obtain rfl := hpiece.of_emit
      have hmore := ih hrest hread
      rwa [List.append_assoc] at hmore

theorem Yields.follows_insertion (hf : g.scope.Follows blocks refs) {insertion : Insertion}
    (hy : Yields (part insertion.part) g () h) :
    h.scope.Follows blocks (refs ++ insertion.references blocks) := by
  cases insertion with
  | raw text =>
    obtain rfl := hy.of_emit
    simpa [Insertion.references] using hf
  | body path => exact hy.follows_path_piece hf
  | comment path => exact hy.follows_path_piece hf
  | composite segments =>
    have hpart : part (.composite segments) =
      if segments.isEmpty then throw .noSegments else composite true (quoteSegments segments) := rfl
    rw [Insertion.part, hpart] at hy
    split at hy
    · exact hy.of_throw.elim
    · exact hy.follows_composite hf
  | optional key path => exact hy.follows_path_piece (f := optionalCode key) hf
  | flag key path => exact hy.follows_path_piece hf

/-- A block over elements that is opened has recorded them. -/
theorem Yields.follows_nestIterable (hf : g.scope.Follows blocks refs) {path binding : String}
    (hy : Yields (nestIterable path binding) g () h) :
    h.scope.Follows ((Operation.nestIterable path binding).blocks blocks)
      (refs ++ [.ofPath blocks path false true]) := by
  obtain ⟨a, ha, rfl⟩ := hy.of_nestIterable
  exact hf.nestIterable (by rw [ha]; rfl)

theorem Yields.follows_conditional (hf : g.scope.Follows blocks refs) {path : String}
    {inverted emptiness : Bool} (hy : Yields (conditional path inverted emptiness) g () h) :
    h.scope.Follows (none :: blocks)
      (refs ++ (Head.conditional path inverted emptiness).references blocks) := by
  obtain ⟨code, k, href, hopen⟩ := hy.of_bind
  have hread := href.follows_reference hf
  cases emptiness with
  | false =>
    obtain ⟨_, l, hnest, hemit⟩ := hopen.of_bind
    obtain ⟨scope, hscope, rfl⟩ := hnest.of_onScope
    obtain rfl := hemit.of_emit
    obtain rfl := push_ok hscope
    exact hread.push false
  | true =>
    obtain ⟨_, l, hnest, hemit⟩ := hopen.of_bind
    obtain rfl := hemit.of_emit
    have helements := hnest.follows_nestIterable hread
    rwa [List.append_assoc] at helements

theorem Yields.follows_loop (hf : g.scope.Follows blocks refs) {path binding : String}
    (hy : Yields (Generate.loop path binding) g () h) :
    h.scope.Follows ((Head.loop path binding).blocks blocks)
      (refs ++ (Head.loop path binding).references blocks) := by
  obtain ⟨code, k, href, hopen⟩ := hy.of_bind
  have hread := href.follows_reference hf
  obtain ⟨l, m, hget, hchecked⟩ := hopen.of_bind
  obtain ⟨rfl, rfl⟩ := hget.of_get
  split at hchecked
  · exact hchecked.of_throw.elim
  · rename_i name hname
    obtain ⟨-, hisName, -⟩ := Binding.check_ok hname
    obtain ⟨_, n, hnest, hemit⟩ := hchecked.of_bind
    obtain rfl := hemit.of_emit
    have helements := hnest.follows_nestIterable hread
    -- A binding that is accepted is not empty.
    have hnonempty : ¬ binding.isEmpty = true := by
      intro he
      rw [String.isEmpty_iff.1 he] at hisName
      cases hisName
    have hblocks : (Operation.nestIterable path binding).blocks blocks =
        (Head.loop path binding).blocks blocks := by
      rw [Operation.blocks, if_neg hnonempty]
      rfl
    rw [hblocks, List.append_assoc] at helements
    exact helements

theorem Yields.follows_head (hf : g.scope.Follows blocks refs) {head : Head}
    (hy : Yields (part head.part) g () h) :
    h.scope.Follows (head.blocks blocks) (refs ++ head.references blocks) := by
  cases head with
  | conditional path inverted emptiness => exact hy.follows_conditional hf
  | loop path binding => exact hy.follows_loop hf

theorem Yields.follows_otherwise {block : Option (String × Address)}
    (hf : g.scope.Follows (block :: blocks) refs) (hy : Yields (part .otherwise) g () h) :
    h.scope.Follows (none :: blocks) refs := by
  obtain ⟨_, k, helse, hemit⟩ := hy.of_bind
  obtain ⟨scope, hscope, rfl⟩ := helse.of_onScope
  obtain rfl := hemit.of_emit
  obtain ⟨frame, rest, hframes, -, rfl⟩ := enterElse_ok hscope
  have hrelease := (hf.release hframes).push true
  cases frame <;> exact hrelease

theorem Yields.follows_close {block : Option (String × Address)}
    (hf : g.scope.Follows (block :: blocks) refs) (hy : Yields (part .close) g () h) :
    h.scope.Follows blocks refs := by
  obtain ⟨_, k, hpop, hemit⟩ := hy.of_bind
  obtain ⟨scope, hscope, rfl⟩ := hpop.of_onScope
  obtain rfl := hemit.of_emit
  obtain ⟨frame, rest, hframes, rfl⟩ := pop_ok hscope
  exact hf.release hframes

/-! ## Templates -/

/-- The parts of a template record what the template reads. -/
theorem follows_template (t : Template) : ∀ {g h : Generator} {blocks : Blocks}
    {refs : List Reference}, g.scope.Follows blocks refs → Yields (parts t.parts) g () h →
      h.scope.Follows blocks (refs ++ t.references blocks) := by
  induction t with
  | done =>
    intro g h blocks refs hf hy
    obtain ⟨-, rfl⟩ := hy.of_pure
    rwa [Template.references, List.append_nil]
  | insert insertion rest ih =>
    intro g h blocks refs hf hy
    obtain ⟨k, hpart, hparts⟩ := hy.of_parts_cons
    have hrest := ih (hpart.follows_insertion hf) hparts
    rwa [List.append_assoc] at hrest
  | block head body rest ihbody ihrest =>
    intro g h blocks refs hf hy
    obtain ⟨k, hhead, hparts⟩ := hy.of_parts_cons
    obtain ⟨l, hbody, hparts⟩ := hparts.of_parts_append
    obtain ⟨m, hclose, hrest⟩ := hparts.of_parts_cons
    have hinner := ihbody (hhead.follows_head hf) hbody
    -- Whatever the block is, one is closed, and those around it are open again.
    have houter : m.scope.Follows blocks
        (refs ++ head.references blocks ++ body.references (head.blocks blocks)) := by
      cases head <;> exact hclose.follows_close hinner
    have hfinal := ihrest houter hrest
    simpa only [Template.references, List.append_assoc] using hfinal
  | choice head body other rest ihbody ihother ihrest =>
    intro g h blocks refs hf hy
    have hassoc : (Template.choice head body other rest).parts = head.part :: (body.parts ++
        .otherwise :: (other.parts ++ .close :: rest.parts)) := by simp [Template.parts]
    rw [hassoc] at hy
    obtain ⟨k, hhead, hparts⟩ := hy.of_parts_cons
    obtain ⟨l, hbody, hparts⟩ := hparts.of_parts_append
    obtain ⟨m, helse, hparts⟩ := hparts.of_parts_cons
    obtain ⟨n, hother, hparts⟩ := hparts.of_parts_append
    obtain ⟨o, hclose, hrest⟩ := hparts.of_parts_cons
    have hinner := ihbody (hhead.follows_head hf) hbody
    have hsecond : m.scope.Follows (none :: blocks)
        (refs ++ head.references blocks ++ body.references (head.blocks blocks)) := by
      cases head <;> exact helse.follows_otherwise hinner
    have houter := hclose.follows_close (ihother hsecond hother)
    have hfinal := ihrest houter hrest
    simpa only [Template.references, List.append_assoc] using hfinal

/-- The scope of a fold that succeeds has recorded what the folded template reads. -/
theorem follows_fold {name : String} {t : Template}
    (hfold : (Generator.mk name .empty #[] none).fold t.parts = (.ok (), h)) :
    h.scope.Follows [] (t.references []) ∧ h.scope.frames = [] := by
  have hy : Yields (fold t.parts) ⟨name, .empty, #[], none⟩ () h := hfold
  obtain ⟨k, hparts, hk, rfl⟩ := hy.of_fold
  exact ⟨follows_template t Scope.follows_empty hparts, hk⟩

end Generate

/-! ## What is compiled -/

/-- A path that was read from the context has its head among the fields. -/
theorem Scope.Follows.mem_fieldNames {s : Scope} {blocks : Blocks} {refs : List Reference}
    (h : s.Follows blocks refs) {r : Reference} (hr : r ∈ refs) (hstart : r.start = [])
    {field : String} (hfield : r.names.head? = some field) : field ∈ s.shape.fieldNames := by
  -- What is shown of a shape has the same fields.
  have hshown : field ∈ s.shape.fieldNames ↔ field ∈ (Shape.ofReferences refs).fieldNames := by
    rw [← h.shape_eq, Shape.mem_fieldNames, Shape.mem_fieldNames]
    obtain ⟨⟨required, bound, children⟩, slots, frames⟩ := s
    show (children.lookup _).isSome = true ↔ ((Shape.shownAll children).lookup _).isSome = true
    rw [Shape.lookup_shownAll, Option.isSome_map]
  have hrecords := (Shape.records_ofReferences refs).fieldNames []
  rw [Shape.nodeAt_nil] at hrecords
  rw [hshown, hrecords, List.mem_eraseDups, List.mem_filterMap]
  refine ⟨r, hr, ?_⟩
  obtain ⟨start, names, required, iterated⟩ := r
  obtain rfl : start = [] := hstart
  cases names with
  | nil => cases hfield
  | cons head rest => simpa [Shape.next?_nil, Reference.address] using hfield

/-- Without open blocks, the fields of the context are seen in the type. -/
theorem Scope.Consistent.mem_fieldNames_view {s : Scope} (h : s.Consistent) (hf : s.frames = [])
    {field : String} (hfield : field ∈ s.shape.fieldNames) : field ∈ s.view.fieldNames := by
  have hslot : s.slot? field = some [.field field] := by
    rw [h.slot?_eq, hf, if_pos hfield]
    rfl
  have hsome := (s.shape.mem_fieldNames field).1 hfield
  obtain ⟨node, hnode⟩ := Option.isSome_iff_exists.1 hsome
  have hat : s.shape.at? [.field field] = some node := by
    rw [Shape.at?, hnode]
    rfl
  rw [Shape.mem_fieldNames, Scope.child?_view hslot hat]
  rfl

namespace Compiled

variable {name : String} {t : Template} {c : Compiled}

theorem exists_scope (h : ofParts name t.parts = .ok c) : ∃ s : Scope,
    s.Follows [] (t.references []) ∧ s.frames = [] ∧ c.typeText = s.typeText ∧
      c.anyRequired = s.anyRequired := by
  obtain ⟨-, -, k, hfold, -, htext, hrequired⟩ := ofParts_ok h
  obtain ⟨hfollows, hframes⟩ := Generate.follows_fold hfold
  exact ⟨k.scope, hfollows, hframes, htext, hrequired⟩

/-- The context is required if a required path is read from it. -/
theorem anyRequired_iff (h : ofParts name t.parts = .ok c) :
    c.anyRequired = true ↔ ∃ r ∈ t.references [], r.required = true ∧ r.start = [] := by
  obtain ⟨s, hfollows, -, -, hrequired⟩ := exists_scope h
  rw [hrequired]
  exact hfollows.required_iff

/-- The type names every field that is read from the context. -/
theorem namesField_of_read (h : ofParts name t.parts = .ok c) {r : Reference}
    (hr : r ∈ t.references []) (hstart : r.start = []) {field : String}
    (hfield : r.names.head? = some field) : Shape.NamesField c.typeText field := by
  obtain ⟨s, hfollows, hframes, htext, -⟩ := exists_scope h
  have hmem := hfollows.mem_fieldNames hr hstart hfield
  rw [htext, Scope.typeText, Shape.namesField_text_iff]
  exact hfollows.consistent.mem_fieldNames_view hframes hmem

end Compiled
end HtmlTemplate
