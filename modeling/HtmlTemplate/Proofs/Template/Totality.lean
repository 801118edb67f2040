import HtmlTemplate.Proofs.Except
import HtmlTemplate.Proofs.Template.Inversion
import HtmlTemplate.Proofs.Value.Willing

/-!
# Totality — what can go wrong in rendering

A template whose expression can be run renders a text for every context, unless a value that is
reached from the context refuses what it is asked for (`Compiled.call_total`).  Data that has no say
in that is never at fault, whatever kind the template takes it for.  Where there is nothing to read
at all, the text depends on the template alone.
-/

namespace HtmlTemplate

open Text

/-- Whether every index in a path is short enough to be read. -/
def Path.Short (path : String) : Prop :=
  ∀ segment ∈ Path.segments path, (decimal? segment.toList).isSome = true →
    segment.toList.length ≤ RenderFault.maxDigits

theorem Path.Short.index {path : String} (h : Path.Short path) (fault : RenderFault) :
    ∀ segment ∈ Path.segments path, Value.index? segment.toList ≠ some (.error fault) := by
  intro segment hsegment hindex
  obtain ⟨n, hn, hread⟩ := Option.map_eq_some_iff.1 hindex
  have hlength := h segment hsegment (by rw [hn]; rfl)
  rw [if_neg (Nat.not_lt.2 hlength)] at hread
  cases hread

/-! ## Insertions -/

section Trace

variable {context : Value} {bindings : Bindings}

/-- Whether every name is bound to a value that is reached from the context. -/
def Bindings.ReachedFrom (context : Value) (bindings : Bindings) : Prop :=
  ∀ b ∈ bindings, context.Reached b.2

theorem Bindings.ReachedFrom.lookup (hb : bindings.ReachedFrom context) {name : String}
    {element : Value} (h : List.lookup name bindings = some element) : context.Reached element :=
  hb (name, element) (mem_of_lookup h)

/-- A path reads a value that is reached from the context. -/
theorem reached_readPath (hb : bindings.ReachedFrom context) (path : String) :
    Render.Ensures context.Reached (readPath context bindings path) := by
  unfold readPath
  split
  · exact .pure .here
  · split
    · rename_i element hlookup
      exact (Render.Ensures.ofExcept _).mono fun v h =>
        Value.reached_lookup (hb.lookup hlookup) h
    · exact (Render.Ensures.ofExcept _).mono fun v h => Value.reached_lookup .here h

theorem blames_readPath (hb : bindings.ReachedFrom context) {path : String}
    (hpath : Path.Short path) :
    Render.Blames context.Blamed (readPath context bindings path) := by
  have hindex := hpath.index
  unfold readPath
  split
  · exact .pure _
  · rename_i head rest hsegments
    rw [hsegments] at hindex
    split
    · rename_i element hlookup
      exact .ofExcept fun fault h => Value.blamed_of_lookup (hb.lookup hlookup)
        (fun segment hs => hindex fault segment (List.mem_cons_of_mem _ hs)) h
    · exact .ofExcept fun fault h => Value.blamed_of_lookup .here (hindex fault) h

/-- What a path reads is at hand, or its reading blames a value. -/
theorem blames_bind_readPath {α : Type} (hb : bindings.ReachedFrom context) {path : String}
    (hpath : Path.Short path) {f : Value → Render α}
    (hf : ∀ v, context.Reached v → Render.Blames context.Blamed (f v)) :
    Render.Blames context.Blamed (readPath context bindings path >>= f) :=
  (blames_readPath hb hpath).bind (reached_readPath hb path) hf

theorem blames_escapedPieces (source : Insertion) {v : Value} (hv : context.Reached v) :
    Render.Blames context.Blamed (escapedPieces source v) := by
  unfold escapedPieces
  split
  · exact .pure _
  · refine (Render.Blames.ofExcept fun fault h => ?_).bind (.any _) fun _ _ => .pure _
    exact ⟨_, hv, .text h⟩

theorem text_of_leafPiece {source : Insertion} {v : Value} {fault : RenderFault}
    (h : leafPiece source v = .error fault) : v.text = .error fault := by
  unfold leafPiece at h
  split at h
  · cases h
  · cases h
  · rcases Except.bind_eq_error.1 h with h | ⟨text, -, h⟩
    · exact h
    · cases h

theorem blamed_of_leafPieces {source : Insertion} {leaves : List Value.Leaf} {fault : RenderFault}
    (hleaves : ∀ leaf ∈ leaves, context.Traced leaf)
    (h : leafPieces source leaves = .error fault) : context.Blamed fault := by
  induction leaves with
  | nil => cases h
  | cons leaf leaves ih =>
    obtain ⟨hleaf, hrest⟩ := List.forall_mem_cons.1 hleaves
    unfold leafPieces at h
    rcases Except.bind_eq_error.1 h with rfl | ⟨v, rfl, hpieces⟩
    · exact hleaf
    · rcases Except.bind_eq_error.1 hpieces with hfirst | ⟨first, -, hmore⟩
      · exact ⟨v, hleaf, .text (text_of_leafPiece hfirst)⟩
      · rcases Except.bind_eq_error.1 hmore with hothers | ⟨others, -, hnone⟩
        · exact ih hrest hothers
        · cases hnone

theorem blames_segmentPieces (hb : bindings.ReachedFrom context) (source : Insertion) :
    ∀ {literal : Bool} {segments : List String},
      (∀ path ∈ Generate.segmentPaths literal segments, Path.Short path) →
      Render.Blames context.Blamed (segmentPieces context bindings source literal segments)
  | true, [], _ => .pure _
  | false, [], _ => .pure _
  | true, text :: rest, h => by
    have hrest : Render.Blames context.Blamed (segmentPieces context bindings source false rest) :=
      blames_segmentPieces hb source h
    exact hrest.bind (.any _) fun _ _ => .pure _
  | false, path :: rest, h => by
    obtain ⟨hpath, hrest⟩ := List.forall_mem_cons.1 h
    refine blames_bind_readPath hb hpath fun v hv => ?_
    refine (blames_escapedPieces source hv).bind (.any _) fun value _ => ?_
    exact (blames_segmentPieces hb source hrest).bind (.any _) fun _ _ => .pure _

theorem blames_insertion (hb : bindings.ReachedFrom context) {source : Insertion}
    (hpaths : ∀ path ∈ source.part.paths, Path.Short path) :
    Render.Blames context.Blamed (source.trace context bindings) := by
  cases source with
  | raw text => exact .pure _
  | body path =>
    refine blames_bind_readPath hb (hpaths path List.mem_cons_self) fun v hv => ?_
    have hleaves : Render.Ensures (fun leaves => ∀ leaf ∈ leaves, context.Traced leaf)
        (leavesOf v) := by
      intro p leaves q hrun
      have hl : v.leaves p = (leaves, q) := Except.ok.inj hrun
      have htraced := Value.traced_of_mem_leaves v p hv
      rwa [hl] at htraced
    refine Render.Blames.bind (fun p fault h => ?_) hleaves fun leaves hl => ?_
    · cases h
    · exact .ofExcept fun fault h => blamed_of_leafPieces hl h
  | comment path =>
    exact blames_bind_readPath hb (hpaths path List.mem_cons_self) fun v hv =>
      blames_escapedPieces _ hv
  | composite segments =>
    exact (blames_segmentPieces hb _ hpaths).bind (.any _) fun _ _ => .pure _
  | optional key path =>
    refine blames_bind_readPath hb (hpaths path List.mem_cons_self) fun v hv => ?_
    refine (blames_escapedPieces _ hv).bind (.any _) fun value _ => ?_
    split
    · exact .pure _
    · exact .pure _
  | flag key path =>
    refine blames_bind_readPath hb (hpaths path List.mem_cons_self) fun v hv => ?_
    refine (Render.Blames.ofExcept fun fault h => ?_).bind (.any _) fun _ _ => .pure _
    exact ⟨v, hv, .truth (Value.truth_of_check h)⟩

/-! ## Templates -/

theorem blames_holds {v : Value} (hv : context.Reached v) (inverted emptiness : Bool) :
    Render.Blames context.Blamed (holds v inverted emptiness) := by
  cases emptiness with
  | true =>
    have htest : Render.Blames context.Blamed (Render.isNonempty v) :=
      .isNonempty (fun fault h => ⟨v, hv, .length h⟩) fun h => ⟨v, hv, .items h rfl⟩
    exact htest.bind (.any _) fun _ _ => .pure _
  | false =>
    have htest : Render.Blames context.Blamed
        (Render.ofExcept (if inverted then v.truth else v.check)) := by
      refine .ofExcept fun fault h => ⟨v, hv, .truth ?_⟩
      split at h
      · exact h
      · exact Value.truth_of_check h
    exact htest.bind (.any _) fun _ _ => .pure _

/-- A block blames what its bodies blame, and what its path reads. -/
theorem blames_head (hb : bindings.ReachedFrom context) {head : Head}
    (hpaths : ∀ path ∈ head.part.paths, Path.Short path) {body : Bindings → Render (List Piece)}
    {other : Render (List Piece)}
    (hbody : ∀ {inner : Bindings}, inner.ReachedFrom context →
      Render.Blames context.Blamed (body inner))
    (hother : Render.Blames context.Blamed other) :
    Render.Blames context.Blamed (head.trace context bindings body other) := by
  cases head with
  | conditional path inverted emptiness =>
    refine blames_bind_readPath hb (hpaths path List.mem_cons_self) fun v hv => ?_
    refine (blames_holds hv inverted emptiness).bind (.any _) fun truth _ => ?_
    cases truth with
    | false => exact hother
    | true => exact hbody hb
  | loop path binding =>
    refine blames_bind_readPath hb (hpaths path List.mem_cons_self) fun v hv => ?_
    have hresults : Render.Blames context.Blamed
        (Render.eachOf v fun element => body ((binding, element) :: bindings)) :=
      .eachOf (fun element he => hbody (List.forall_mem_cons.2 ⟨hv.element he, hb⟩))
        fun h => ⟨v, hv, .items h rfl⟩
    refine hresults.bind (.any _) fun results _ => ?_
    split
    · exact hother
    · exact .pure _

/-- What a template stops with is the fault of a value that is reached from the context. -/
theorem Template.blames_trace {t : Template} :
    (∀ p ∈ t.parts, ∀ path ∈ p.paths, Path.Short path) →
    ∀ {bindings : Bindings}, bindings.ReachedFrom context →
      Render.Blames context.Blamed (t.trace context bindings) := by
  induction t with
  | done => exact fun _ _ _ => .pure _
  | insert insertion rest ih =>
    intro hparts bindings hb
    simp only [Template.parts, List.forall_mem_cons] at hparts
    refine (blames_insertion hb hparts.1).bind (.any _) fun first _ => ?_
    exact (ih hparts.2 hb).bind (.any _) fun others _ => .pure _
  | block head body rest ihbody ihrest =>
    intro hparts bindings hb
    simp only [Template.parts, List.forall_mem_cons, List.forall_mem_append,
      List.cons_append] at hparts
    obtain ⟨hhead, hbody, -, hrest⟩ := hparts
    refine (blames_head hb hhead (ihbody hbody) (.pure _)).bind (.any _) fun first _ => ?_
    exact (ihrest hrest hb).bind (.any _) fun others _ => .pure _
  | choice head body other rest ihbody ihother ihrest =>
    intro hparts bindings hb
    simp only [Template.parts, List.forall_mem_cons, List.forall_mem_append,
      List.cons_append, and_assoc] at hparts
    obtain ⟨hhead, hbody, -, hother, -, hrest⟩ := hparts
    refine (blames_head hb hhead (ihbody hbody) (ihother hother hb)).bind (.any _) fun first _ => ?_
    exact (ihrest hrest hb).bind (.any _) fun others _ => .pure _

end Trace

/-! ## Nothing to read -/

/-- Whether every path finds nothing in a context. -/
def Vacant (context : Value) : Prop := ∀ path, readPath context [] path = return .none

theorem Value.lookup_none (path : List String) : Value.none.lookup path = .ok .none := by
  induction path with
  | nil => rfl
  | cons segment rest ih => exact ih

theorem vacant_none : Vacant .none := by
  intro path
  rw [readPath_nil, Value.lookup_none]
  rfl

theorem vacant_empty : Vacant (.dict []) := by
  intro path
  obtain ⟨head, rest, hsegments⟩ := Path.exists_segments path
  rw [readPath_nil, hsegments]
  exact congrArg Render.ofExcept (Value.lookup_none rest)

/-- The pieces of the segments that are text. -/
def segmentLiterals (source : Insertion) : Bool → List String → List Piece
  | _, [] => []
  | true, text :: rest => .literal source text :: segmentLiterals source false rest
  | false, _ :: rest => segmentLiterals source true rest

/-- What an insertion comes to where nothing is there. -/
def Insertion.vacant (source : Insertion) : List Piece :=
  match source with
  | .raw text => [.literal source text]
  | .composite segments =>
    .literal source "\"" :: segmentLiterals source true segments ++ [.literal source "\""]
  | _ => []

/-- The body of a block that runs where nothing is there. -/
def Head.vacant {α : Type} (head : Head) (body other : α) : α :=
  match head with
  | .conditional _ true _ => body
  | _ => other

/-- What a template comes to where nothing is there. -/
def Template.vacant : Template → List Piece
  | done => []
  | insert insertion rest => insertion.vacant ++ rest.vacant
  | block head body rest => head.vacant body.vacant [] ++ rest.vacant
  | choice head body other rest => head.vacant body.vacant other.vacant ++ rest.vacant

section Vacant

variable {context : Value} (hv : Vacant context)

include hv

theorem segmentPieces_vacant (source : Insertion) : ∀ (literal : Bool) (segments : List String),
    segmentPieces context [] source literal segments =
      return segmentLiterals source literal segments
  | true, [] => rfl
  | false, [] => rfl
  | true, text :: rest => by
    rw [segmentPieces, segmentPieces_vacant source false rest, pure_bind]
    rfl
  | false, path :: rest => by
    rw [segmentPieces, segmentPieces_vacant source true rest, hv path, pure_bind]
    rfl

theorem Insertion.trace_vacant (source : Insertion) :
    source.trace context [] = return source.vacant := by
  cases source with
  | raw text => rfl
  | composite segments =>
    rw [Insertion.trace, segmentPieces_vacant hv, pure_bind]
    rfl
  | body path =>
    rw [Insertion.trace, hv path]
    rfl
  | comment path =>
    rw [Insertion.trace, hv path]
    rfl
  | optional key path =>
    rw [Insertion.trace, hv path]
    rfl
  | flag key path =>
    rw [Insertion.trace, hv path]
    rfl

theorem Head.trace_vacant (head : Head) {body : Bindings → Render (List Piece)}
    {other : Render (List Piece)} {ps qs : List Piece} (hbody : body [] = return ps)
    (hother : other = return qs) :
    head.trace context [] body other = return head.vacant ps qs := by
  cases head with
  | conditional path inverted emptiness =>
    have hholds : holds .none inverted emptiness = return inverted := by
      cases inverted <;> cases emptiness <;> rfl
    rw [Head.trace, hv path, pure_bind, hholds, pure_bind]
    cases inverted with
    | false => exact hother
    | true => exact hbody
  | loop path binding =>
    rw [Head.trace, hv path, pure_bind]
    exact hother

theorem Template.trace_vacant (t : Template) : t.trace context [] = return t.vacant := by
  induction t with
  | done => rfl
  | insert insertion rest ih =>
    rw [Template.trace, insertion.trace_vacant hv, ih, pure_bind, pure_bind]
    rfl
  | block head body rest ihbody ihrest =>
    rw [Template.trace, head.trace_vacant hv ihbody rfl, ihrest, pure_bind, pure_bind]
    rfl
  | choice head body other rest ihbody ihother ihrest =>
    rw [Template.trace, head.trace_vacant hv ihbody ihother, ihrest, pure_bind, pure_bind]
    rfl

end Vacant

/-! ## Rendering -/

namespace Compiled

variable {name : String} {ps : List Part} {c : Compiled}

/-- What can be run renders what the template of the parts means. -/
theorem render_eq_interpret (hc : ofParts name ps = .ok c) (hcode : ∃ e, c.code = .ok e)
    (hname : ∀ helper : Helper, helper ≠ .markSafe → normalName name ≠ helper.name) :
    ∃ t : Template, t.parts = ps ∧
      ∀ context, c.render context = Value.str <$> t.interpret context := by
  obtain ⟨t, ht, hsound, hn, hrender⟩ := exists_code hc
  obtain rfl := Template.ofParts?_eq_some_iff.1 ht
  obtain ⟨e, he⟩ := hcode
  rw [code_parts hc] at he
  have hread : e = Expr.joined (t.code (normalName name) []) := by
    rw [Expr.bindable_eq] at he
    split at he
    · cases he
    · exact (Except.ok.inj he).symm
  refine ⟨t, rfl, fun context => ?_⟩
  rw [hrender, he, hread]
  exact Template.render_code hn hname hsound

/-- All that is reached from an object with one attribute, an object without any, has a text. -/
theorem text_of_reached_object {v : Value}
    (h : (Value.object {} [("a", .object { length? := some (-1) } [] none)] none).Reached v) :
    ∃ s, v.text = .ok s := by
  have hkinds : v = .object {} [("a", .object { length? := some (-1) } [] none)] none ∨
      v = .object { length? := some (-1) } [] none ∨ v = .none := by
    induction h with
    | here => exact Or.inl rfl
    | @step v w segment _ hstep ih =>
      rcases ih with rfl | rfl | rfl
      · obtain rfl := Except.ok.inj hstep
        rcases Value.publicAttribute_cases _ segment with hnone | hattribute
        · exact Or.inr (Or.inr hnone)
        · have hmem := mem_of_lookup hattribute
          exact Or.inr (Or.inl (Prod.mk.inj (List.mem_singleton.1 hmem)).2)
      · obtain rfl := Except.ok.inj hstep
        rcases Value.publicAttribute_cases _ segment with hnone | hattribute
        · exact Or.inr (Or.inr hnone)
        · cases hattribute
      · cases hstep
        exact Or.inr (Or.inr rfl)
    | element _ hmem ih => rcases ih with rfl | rfl | rfl <;> cases hmem
  rcases hkinds with rfl | rfl | rfl <;> exact ⟨_, rfl⟩

end Compiled
end HtmlTemplate
