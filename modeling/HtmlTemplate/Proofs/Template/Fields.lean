import HtmlTemplate.Proofs.Shape.Pieces
import HtmlTemplate.Proofs.Template.Admission
import HtmlTemplate.Proofs.Template.Recording

/-!
# Fields — what the fields of a compiled template's context are called

Every field in the shape of a template's context comes from a path that the template reads, be it
through the bindings of loops.  So its name is a segment of a path (`Compiled.exists_shape`).
-/

namespace HtmlTemplate

/-! ## Addresses -/

/-- Whether the fields on the way are called like segments of paths. -/
def Address.Spelled (a : Address) : Prop := ∀ name, Step.field name ∈ a → Path.Segment name

namespace Shape

/-- Whether all fields are called like segments of paths. -/
def Spelled (s : Shape) : Prop := ∀ name ∈ s.names, Path.Segment name

theorem spelled_fresh : fresh.Spelled := fun _ h => absurd h List.not_mem_nil

theorem Spelled.require {s : Shape} (h : s.Spelled) (required : Bool) :
    (s.require required).Spelled := by
  cases s
  exact h

theorem spelled_updateChildren {step : Step} {f : Shape → Shape}
    (hstep : ∀ name, step = .field name → Path.Segment name)
    (hf : ∀ s : Shape, s.Spelled → (f s).Spelled) {c : List (Step × Shape)}
    (hc : ∀ name ∈ namesIn c, Path.Segment name) :
    ∀ name ∈ namesIn (updateChildren step f c), Path.Segment name := by
  have hname : ∀ name ∈ step.name?.toList, Path.Segment name := by
    cases step with
    | field field => exact List.forall_mem_singleton.2 (hstep field rfl)
    | element => exact fun name h => absurd h List.not_mem_nil
  induction c with
  | nil =>
    rw [updateChildren, namesIn, namesIn, List.append_nil]
    exact List.forall_mem_append.2 ⟨hname, hf fresh spelled_fresh⟩
  | cons entry rest ih =>
    obtain ⟨key, s⟩ := entry
    simp only [namesIn, List.forall_mem_append] at hc
    rw [updateChildren]
    split
    · simp only [namesIn, List.forall_mem_append]
      exact ⟨⟨hc.1.1, hf s hc.1.2⟩, hc.2⟩
    · simp only [namesIn, List.forall_mem_append]
      exact ⟨hc.1, ih hc.2⟩

/-- Going along a way adds no other fields than those on it. -/
theorem Spelled.insertAlong {way : List (Step × Bool)}
    (hway : Address.Spelled (way.map (·.1))) : ∀ {s : Shape}, s.Spelled →
      (insertAlong way s).Spelled := by
  induction way with
  | nil => exact fun hs => hs
  | cons entry way ih =>
    obtain ⟨step, mark⟩ := entry
    intro s hs
    obtain ⟨required, bound, c⟩ := s
    refine spelled_updateChildren (fun name h => ?_) (fun t ht => ?_) hs
    · exact hway name (h ▸ List.mem_cons_self)
    · exact ih (fun name h => hway name (List.mem_cons_of_mem _ h)) (ht.require mark)

theorem spelled_ofReferences {refs : List Reference} (h : ∀ r ∈ refs, r.address.Spelled) :
    (ofReferences refs).Spelled := by
  induction refs using List.reverseRecOn with
  | nil => exact spelled_fresh
  | append_singleton refs r ih =>
    rw [List.forall_mem_append, List.forall_mem_singleton] at h
    rw [Scope.Follows.ofReferences_concat]
    exact (ih h.1).insertAlong (r.map_fst_steps.symm ▸ h.2)

end Shape

/-! ## References -/

/-- Whether all live bindings stand for elements below fields called like segments. -/
def Blocks.Spelled (blocks : Blocks) : Prop :=
  ∀ name a, some (name, a) ∈ blocks → Address.Spelled a

theorem Blocks.Spelled.plain {blocks : Blocks} (h : blocks.Spelled) :
    Blocks.Spelled (none :: blocks) := by
  intro name a hmem
  rcases List.mem_cons.1 hmem with hnone | hmem
  · cases hnone
  · exact h name a hmem

theorem Blocks.Spelled.binding {blocks : Blocks} (h : blocks.Spelled) (name : String)
    {a : Address} (ha : a.Spelled) : Blocks.Spelled (some (name, a) :: blocks) := by
  intro other b hmem
  rcases List.mem_cons.1 hmem with hhead | hmem
  · cases hhead
    exact ha
  · exact h other b hmem

/-- A path that is resolved through live bindings. -/
theorem Blocks.Spelled.ofPath {blocks : Blocks} (h : blocks.Spelled) {path : String}
    (hpath : Path.WellSpelled path) (required iterated : Bool) :
    (Reference.ofPath blocks path required iterated).address.Spelled := by
  have hnames : ∀ {start : Address} {names : List String}, start.Spelled →
      (∀ name ∈ names, Path.Segment name) →
        (Reference.address ⟨start, names, required, iterated⟩).Spelled := by
    intro start names hstart hnames name hmem
    rw [Reference.address, List.append_assoc, List.mem_append, List.mem_append] at hmem
    rcases hmem with hmem | hmem | hmem
    · exact hstart name hmem
    · obtain ⟨other, hother, hfield⟩ := List.mem_map.1 hmem
      exact hnames name (Step.field.inj hfield ▸ hother)
    · cases iterated <;> simp at hmem
  obtain ⟨head, rest, hp⟩ := Path.exists_segments path
  have hsegments : ∀ name ∈ head :: rest, Path.Segment name := hp ▸ hpath.segment
  cases hlive : blocks.addressOf head with
  | none =>
    rw [Reference.ofPath_of_none _ _ hp hlive]
    exact hnames (fun _ hmem => absurd hmem List.not_mem_nil) hsegments
  | some a =>
    rw [Reference.ofPath_of_some _ _ hp hlive]
    exact hnames (h head a (Scope.exists_of_addressOf_blocks hlive))
      fun name hmem => hsegments name (List.mem_cons_of_mem head hmem)

section References

variable {blocks : Blocks} (hblocks : blocks.Spelled) {contextName : String}

include hblocks

theorem Insertion.spelled_references {insertion : Insertion}
    (hsound : insertion.Sound) (h : insertion.part.Spelled contextName) :
    ∀ r ∈ insertion.references blocks, r.address.Spelled := by
  have hpath : ∀ path ∈ insertion.part.paths, ∀ required,
      (Reference.ofPath blocks path required false).address.Spelled :=
    fun path hmem required => hblocks.ofPath (h.paths path hmem) required false
  cases insertion with
  | raw text => exact fun r hr => absurd hr List.not_mem_nil
  | composite segments =>
    intro r hr
    rw [references, Generate.segmentPaths_quoteSegments hsound] at hr
    obtain ⟨path, hmem, rfl⟩ := List.mem_map.1 hr
    exact hpath path hmem true
  | body path | comment path | optional _ path | flag _ path =>
    intro r hr
    obtain rfl := List.mem_singleton.1 hr
    exact hpath path (List.mem_singleton_self path) false

theorem Head.spelled_references {head : Head} (h : head.part.Spelled contextName) :
    (∀ r ∈ head.references blocks, r.address.Spelled) ∧ (head.blocks blocks).Spelled := by
  have hpath : ∀ path ∈ head.part.paths, ∀ iterated,
      (Reference.ofPath blocks path false iterated).address.Spelled :=
    fun path hmem iterated => hblocks.ofPath (h.paths path hmem) false iterated
  cases head with
  | conditional path inverted emptiness =>
    have hmem : path ∈ (Head.part (.conditional path inverted emptiness)).paths :=
      List.mem_singleton_self path
    refine ⟨?_, hblocks.plain⟩
    cases emptiness with
    | false => exact List.forall_mem_singleton.2 (hpath path hmem false)
    | true =>
      exact List.forall_mem_cons.2
        ⟨hpath path hmem false, List.forall_mem_singleton.2 (hpath path hmem true)⟩
  | loop path binding =>
    have hmem : path ∈ (Head.part (.loop path binding)).paths := List.mem_singleton_self path
    exact ⟨List.forall_mem_cons.2
      ⟨hpath path hmem false, List.forall_mem_singleton.2 (hpath path hmem true)⟩,
      hblocks.binding binding (hpath path hmem true)⟩

end References

/-- What an admitted template reads consists of segments. -/
theorem Template.spelled_references {contextName : String} (t : Template) :
    ∀ {depth : Nat} {blocks : Blocks}, t.Sound → t.AdmittedAt contextName depth → blocks.Spelled →
      ∀ r ∈ t.references blocks, r.address.Spelled := by
  induction t with
  | done => exact fun _ _ _ r hr => absurd hr List.not_mem_nil
  | insert insertion rest ih =>
    rintro depth blocks ⟨hinsertion, hrest⟩ ⟨hspelled, hadmitted⟩ hblocks
    exact List.forall_mem_append.2
      ⟨insertion.spelled_references hblocks hinsertion hspelled, ih hrest hadmitted hblocks⟩
  | block head body rest ihbody ihrest =>
    rintro depth blocks ⟨-, hbody, hrest⟩ ⟨⟨hspelled, -⟩, hbody', hrest'⟩ hblocks
    obtain ⟨hhead, hinner⟩ := head.spelled_references hblocks hspelled
    exact List.forall_mem_append.2 ⟨List.forall_mem_append.2
      ⟨hhead, ihbody hbody hbody' hinner⟩, ihrest hrest hrest' hblocks⟩
  | choice head body other rest ihbody ihother ihrest =>
    rintro depth blocks ⟨-, hbody, hother, hrest⟩ ⟨⟨hspelled, -⟩, hbody', hother', hrest'⟩ hblocks
    obtain ⟨hhead, hinner⟩ := head.spelled_references hblocks hspelled
    exact List.forall_mem_append.2 ⟨List.forall_mem_append.2 ⟨List.forall_mem_append.2
      ⟨hhead, ihbody hbody hbody' hinner⟩, ihother hother hother' hblocks.plain⟩,
      ihrest hrest hrest' hblocks⟩

/-- The type of a compiled template is the text of a shape whose fields are called like segments. -/
theorem Compiled.exists_shape {name : String} {ps : List Part} {c : Compiled}
    (h : ofParts name ps = .ok c) : ∃ s : Shape, s.Spelled ∧ c.typeText = s.text := by
  obtain ⟨t, ht, hsound, -⟩ := exists_template h
  obtain rfl : t.parts = ps := Template.ofParts?_eq_some_iff.1 ht
  obtain ⟨-, -, hadmitted⟩ := (exists_iff t).1 ⟨c, h⟩
  obtain ⟨s, hfollows, hclosed, htext, -⟩ := exists_scope h
  have hnone : Blocks.Spelled [] := fun _ _ hmem => absurd hmem List.not_mem_nil
  refine ⟨_, Shape.spelled_ofReferences (t.spelled_references hsound hadmitted hnone), ?_⟩
  rw [htext, hfollows.typeText_eq hclosed]

end HtmlTemplate
