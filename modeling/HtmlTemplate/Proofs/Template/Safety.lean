import HtmlTemplate.Proofs.Template.Compiled
import HtmlTemplate.Proofs.Text.Escape

/-!
# Safety — what can get into rendered text

What is rendered is literal text of the template, escaped text, and markup that a body insertion
comes to in what its path reads.  Nothing else gets through, whatever the context is, unless it is a
function whose name hides a helper (`Compiled.render_safe`).
-/

namespace HtmlTemplate

open Text

/-! ## Safe pieces -/

/-- The texts of segments, `literal` telling whether the first one is text. -/
def segmentTexts : Bool → List String → List String
  | _, [] => []
  | true, text :: rest => text :: segmentTexts false rest
  | false, _ :: rest => segmentTexts true rest

/-- The literal text of an insertion. -/
def Insertion.literals : Insertion → List String
  | raw text => [text]
  | body _ => []
  | comment _ => []
  | composite segments => "\"" :: segmentTexts true segments
  | optional key _ => [" " ++ key ++ "=\"", "\""]
  | flag key _ => [" " ++ key]

/-- Whether a path reads a value. -/
def PathReads (context : Value) (bindings : Bindings) (path : String) (v : Value) : Prop :=
  (readPath context bindings path).run [] = .ok (v, [])

/-- Whether every name is bound to an element of what the path of one of its loops reads under the
names before. -/
inductive Bound (ps : List Part) (context : Value) : Bindings → Prop
  | nil : Bound ps context []
  | cons {bindings : Bindings} {path name : String} {v element : Value} :
      Bound ps context bindings → .loop path name ∈ ps → PathReads context bindings path v →
        element ∈ v.elements → Bound ps context ((name, element) :: bindings)

namespace Piece

/-- The insertion that a piece comes from. -/
def source : Piece → Insertion
  | literal source _ => source
  | escaped source _ => source
  | verbatim source _ => source

/-- Whether a piece may stand in what parts render.  Markup may only come from a body insertion
whose path reads something that holds it. -/
def Safe (ps : List Part) (context : Value) : Piece → Prop
  | literal source text => text ∈ source.literals
  | escaped _ text => Value.Inert (Value.escape text)
  | verbatim source markup => ∃ path bindings v, source = .body path ∧ Bound ps context bindings ∧
      PathReads context bindings path v ∧ v.Holds markup

end Piece

/-! ## Insertions -/

/-- Whether pieces come from an insertion and are safe. -/
def Insertion.Gives (ps : List Part) (context : Value) (source : Insertion)
    (pieces : List Piece) : Prop :=
  ∀ piece ∈ pieces, piece.source = source ∧ piece.Safe ps context

namespace Insertion.Gives

variable {ps : List Part} {context : Value} {source : Insertion} {a b : List Piece}

theorem nil : source.Gives ps context [] := fun _ hp => absurd hp List.not_mem_nil

theorem literal {text : String} (h : text ∈ source.literals) :
    source.Gives ps context [.literal source text] := by
  intro piece hp
  rw [List.mem_singleton.1 hp]
  exact ⟨rfl, h⟩

theorem escaped (text : String) : source.Gives ps context [.escaped source text] := by
  intro piece hp
  rw [List.mem_singleton.1 hp]
  exact ⟨rfl, Value.inert_escape text⟩

theorem append (ha : source.Gives ps context a) (hb : source.Gives ps context b) :
    source.Gives ps context (a ++ b) := List.forall_mem_append.2 ⟨ha, hb⟩

end Insertion.Gives

section Insertions

variable {ps : List Part} {context : Value} {bindings : Bindings}

/-- No iterator is needed for reading a path. -/
theorem ensures_readPath (path : String) :
    Render.Ensures (PathReads context bindings path) (readPath context bindings path) := by
  -- Reading takes nothing from iterators, so that it gives the same at any time.
  have hpure : ∃ x, readPath context bindings path = Render.ofExcept x := by
    unfold readPath
    split
    · exact ⟨.ok context, rfl⟩
    · split
      · exact ⟨_, rfl⟩
      · exact ⟨_, rfl⟩
  obtain ⟨x, hx⟩ := hpure
  intro p v q hrun
  rw [hx] at hrun
  unfold PathReads
  rw [hx, Render.Ensures.ofExcept x p v q hrun]
  rfl

theorem ensures_escapedPieces (source : Insertion) (v : Value) :
    Render.Ensures (source.Gives ps context) (escapedPieces source v) := by
  have htext : ∀ w : Value, Render.Ensures (source.Gives ps context)
      (do return [.escaped source (← Render.ofExcept w.text)]) := fun w =>
    (Render.Ensures.any _).bind fun text _ => .pure (.escaped text)
  unfold escapedPieces
  split
  · exact .pure .nil
  · exact htext _

theorem ensures_segmentPieces {source : Insertion} {segments : List String} :
    ∀ {literal : Bool}, (∀ text ∈ segmentTexts literal segments, text ∈ source.literals) →
      Render.Ensures (source.Gives ps context)
        (segmentPieces context bindings source literal segments) := by
  induction segments with
  | nil =>
    intro literal _
    cases literal <;> exact .pure .nil
  | cons segment rest ih =>
    intro literal htexts
    cases literal with
    | true =>
      refine (ih fun text ht => htexts text (List.mem_cons_of_mem _ ht)).bind fun pieces hp => ?_
      exact .pure (Insertion.Gives.append (.literal (htexts segment List.mem_cons_self)) hp)
    | false =>
      refine (Render.Ensures.any _).bind fun v _ => ?_
      have hvalue : Render.Ensures (source.Gives ps context) (escapedPieces source v) :=
        ensures_escapedPieces source v
      exact hvalue.bind fun value hv => (ih htexts).bind fun pieces hp => .pure (hv.append hp)

theorem gives_leafPiece {source : Insertion} {v : Value} {pieces : List Piece}
    (hmarkup : ∀ s, v = .markup s → (Piece.verbatim source s).Safe ps context)
    (h : leafPiece source v = .ok pieces) : source.Gives ps context pieces := by
  unfold leafPiece at h
  split at h
  · cases h
    exact .nil
  · cases h
    intro piece hp
    rw [List.mem_singleton.1 hp]
    exact ⟨rfl, hmarkup _ rfl⟩
  · obtain ⟨text, -, h⟩ := Except.bind_eq_ok.1 h
    cases h
    exact .escaped text

/-- The pieces of leaves are safe if markup may stand among them. -/
theorem gives_leafPieces {source : Insertion} {leaves : List Value.Leaf} {pieces : List Piece}
    (hmarkup : ∀ s, .ok (.markup s) ∈ leaves → (Piece.verbatim source s).Safe ps context)
    (h : leafPieces source leaves = .ok pieces) : source.Gives ps context pieces := by
  induction leaves generalizing pieces with
  | nil =>
    cases h
    exact .nil
  | cons leaf rest ih =>
    rw [leafPieces] at h
    obtain ⟨v, hv, h⟩ := Except.bind_eq_ok.1 h
    obtain ⟨first, hfirst, h⟩ := Except.bind_eq_ok.1 h
    obtain ⟨others, hrest, h⟩ := Except.bind_eq_ok.1 h
    cases h
    refine Insertion.Gives.append (gives_leafPiece (fun s hs => ?_) hfirst)
      (ih (fun s hs => hmarkup s (List.mem_cons_of_mem _ hs)) hrest)
    exact hmarkup s (hs ▸ hv ▸ List.mem_cons_self)

theorem ensures_body (hb : Bound ps context bindings) (path : String) :
    Render.Ensures ((Insertion.body path).Gives ps context)
      ((Insertion.body path).trace context bindings) := by
  refine (ensures_readPath path).bind fun v hv => ?_
  have hleaves : Render.Ensures (fun leaves => ∀ s, .ok (.markup s) ∈ leaves → v.Holds s)
      (leavesOf v) := by
    intro p leaves q hrun s hs
    have hl : v.leaves p = (leaves, q) := Except.ok.inj hrun
    exact v.holds_of_mem_leaves p (hl ▸ hs)
  refine hleaves.bind fun leaves hl => ?_
  intro p pieces q hrun
  have hpieces := Render.Ensures.ofExcept _ p pieces q hrun
  exact gives_leafPieces (fun s hs => ⟨path, bindings, v, rfl, hb, hv, hl s hs⟩) hpieces

/-- The pieces of an insertion are safe, and markup is among them only in body text. -/
theorem ensures_insertion (hb : Bound ps context bindings) (source : Insertion) :
    Render.Ensures (source.Gives ps context) (source.trace context bindings) := by
  cases source with
  | raw text => exact .pure (.literal List.mem_cons_self)
  | body path => exact ensures_body hb path
  | comment path => exact (Render.Ensures.any _).bind fun v _ => ensures_escapedPieces _ v
  | composite segments =>
    have hquote : "\"" ∈ (Insertion.composite segments).literals := List.mem_cons_self
    have htexts : ∀ text ∈ segmentTexts true segments,
        text ∈ (Insertion.composite segments).literals := fun text => List.mem_cons_of_mem _
    have hinner : Render.Ensures ((Insertion.composite segments).Gives ps context)
        (segmentPieces context bindings (.composite segments) true segments) :=
      ensures_segmentPieces htexts
    refine hinner.bind fun inner hi => ?_
    exact .pure (((Insertion.Gives.literal hquote).append hi).append (.literal hquote))
  | optional key path =>
    refine (Render.Ensures.any _).bind fun v _ => ?_
    have hvalue : Render.Ensures ((Insertion.optional key path).Gives ps context)
        (escapedPieces (.optional key path) v) := ensures_escapedPieces _ v
    refine hvalue.bind fun value hv => ?_
    cases value with
    | nil => exact .pure .nil
    | cons piece pieces =>
      exact .pure (((Insertion.Gives.literal List.mem_cons_self).append hv).append
        (.literal (List.mem_cons_of_mem _ List.mem_cons_self)))
  | flag key path =>
    refine (Render.Ensures.any _).bind fun v _ => ?_
    refine (Render.Ensures.any _).bind fun truth _ => ?_
    cases truth with
    | false => exact .pure .nil
    | true => exact .pure (.literal List.mem_cons_self)

end Insertions

/-! ## Templates -/

/-- Whether pieces come from some of the parts and are safe. -/
def AllSafe (ps : List Part) (context : Value) (pieces : List Piece) : Prop :=
  ∀ piece ∈ pieces, piece.source.part ∈ ps ∧ piece.Safe ps context

section Templates

variable {ps : List Part} {context : Value}

/-- The pieces of a block are safe if those of its bodies are. -/
theorem ensures_head {bindings : Bindings} (hb : Bound ps context bindings) {head : Head}
    (hhead : head.part ∈ ps) {body : Bindings → Render (List Piece)} {other : Render (List Piece)}
    (hbody : ∀ {inner : Bindings}, Bound ps context inner →
      Render.Ensures (AllSafe ps context) (body inner))
    (hother : Render.Ensures (AllSafe ps context) other) :
    Render.Ensures (AllSafe ps context) (head.trace context bindings body other) := by
  cases head with
  | conditional path inverted emptiness =>
    refine (Render.Ensures.any _).bind fun v _ => (Render.Ensures.any _).bind fun truth _ => ?_
    cases truth with
    | false => exact hother
    | true => exact hbody hb
  | loop path binding =>
    refine (ensures_readPath path).bind fun v hv => ?_
    -- Inside the loop its name is bound to an element of what its path reads.
    have hresults : Render.Ensures (fun results => ∀ pieces ∈ results, AllSafe ps context pieces)
        (Render.eachOf v fun element => body ((binding, element) :: bindings)) :=
      .eachOf fun element he => hbody (hb.cons hhead hv he)
    refine hresults.bind fun results hr => ?_
    split
    · exact hother
    · refine .pure fun piece hp => ?_
      obtain ⟨pieces, hmem, hp⟩ := List.mem_flatten.1 hp
      exact hr pieces hmem piece hp

/-- What a template comes to is safe, given the parts of it and of the blocks around it. -/
theorem Template.ensures_trace {t : Template} : (∀ p ∈ t.parts, p ∈ ps) →
    ∀ {bindings : Bindings}, Bound ps context bindings →
      Render.Ensures (AllSafe ps context) (t.trace context bindings) := by
  induction t with
  | done =>
    intro _ bindings _
    exact .pure fun _ hp => absurd hp List.not_mem_nil
  | insert insertion rest ih =>
    intro hps bindings hb
    simp only [Template.parts, List.forall_mem_cons] at hps
    have hrest := ih hps.2 hb
    refine (ensures_insertion hb insertion).bind fun first hf => hrest.bind fun others ho => ?_
    refine .pure (List.forall_mem_append.2 ⟨fun piece hp => ?_, ho⟩)
    obtain ⟨hsource, hsafe⟩ := hf piece hp
    exact ⟨hsource ▸ hps.1, hsafe⟩
  | block head body rest ihbody ihrest =>
    intro hps bindings hb
    simp only [Template.parts, List.forall_mem_cons, List.forall_mem_append,
      List.cons_append] at hps
    obtain ⟨hhead, hbody, -, hrest⟩ := hps
    have hnone : Render.Ensures (AllSafe ps context) (return []) :=
      .pure fun _ hp => absurd hp List.not_mem_nil
    have hfirst := ensures_head hb hhead (ihbody hbody) hnone
    refine hfirst.bind fun first hf => (ihrest hrest hb).bind fun others ho => ?_
    exact .pure (List.forall_mem_append.2 ⟨hf, ho⟩)
  | choice head body other rest ihbody ihother ihrest =>
    intro hps bindings hb
    simp only [Template.parts, List.forall_mem_cons, List.forall_mem_append,
      List.cons_append, and_assoc] at hps
    obtain ⟨hhead, hbody, -, hother, -, hrest⟩ := hps
    have hfirst := ensures_head hb hhead (ihbody hbody) (ihother hother hb)
    refine hfirst.bind fun first hf => (ihrest hrest hb).bind fun others ho => ?_
    exact .pure (List.forall_mem_append.2 ⟨hf, ho⟩)

/-- The pieces that a template comes to are safe. -/
theorem Template.safe_pieces {t : Template} {pieces : List Piece}
    (h : t.pieces context = .ok pieces) : AllSafe t.parts context pieces := by
  obtain ⟨result, hrun, rfl⟩ := Except.map_eq_ok.1 h
  exact Template.ensures_trace (fun _ hp => hp) .nil [] result.1 result.2 hrun

end Templates

/-! ## Rendering -/

/-- What an expression renders is what it runs to, once its parameters can be bound. -/
theorem Expr.run_of_render {e : Expr} {name : String} {context v : Value}
    (h : (e.bindable >>= fun f => f.render name context) = .ok v) :
    ∃ p, (e.run name context).run [] = .ok (v, p) := by
  unfold bindable at h
  split at h
  · cases h
  · obtain ⟨result, hrun, rfl⟩ := Except.map_eq_ok.1 h
    exact ⟨result.2, hrun⟩

/-- What is rendered is the text of the pieces that the template comes to, if the context is not
called in place of a helper. -/
theorem Compiled.render_pieces {name : String} {ps : List Part} {c : Compiled} {context v : Value}
    (hc : ofParts name ps = .ok c)
    (hname : context.isFunction = false ∨
      ∀ helper : Helper, helper ≠ .markSafe → normalName name ≠ helper.name)
    (hv : c.render context = .ok v) :
    ∃ t pieces, Template.ofParts? ps = some t ∧ t.pieces context = .ok pieces ∧
      v = .str (Piece.output pieces) := by
  obtain ⟨t, ht, hsound, hn, hrender⟩ := exists_code hc
  rw [hrender] at hv
  have hreach : ∀ helper : Helper, helper ≠ .markSafe → Reachable True name context helper := by
    intro helper hm
    rcases hname with hf | hh
    · exact Or.inr ⟨trivial, hf⟩
    · exact Or.inl (hh helper hm)
  obtain ⟨p, hrun⟩ := Expr.run_of_render hv
  -- Calling the context would have failed, so that what was rendered is what the template means.
  have htrace := (Template.agrees_run hn hreach hsound).run_ok hrun
  rw [StateT.run_map, StateT.run_map] at htrace
  refine ⟨t, ?_⟩
  unfold Template.pieces
  cases hpieces : (t.trace context []).run [] with
  | error fault =>
    rw [hpieces] at htrace
    cases htrace
  | ok result =>
    rw [hpieces] at htrace
    cases htrace
    exact ⟨result.1, ht, rfl, rfl⟩

/-- Whatever a context is rendered to, it is made of safe pieces of the parts, in the order of the
template, if the context is no function or its name hides no helper. -/
theorem Compiled.render_safe {name : String} {ps : List Part} {c : Compiled} {context v : Value}
    (hc : ofParts name ps = .ok c)
    (hname : context.isFunction = false ∨
      ∀ helper : Helper, helper ≠ .markSafe → normalName name ≠ helper.name)
    (hv : c.render context = .ok v) :
    ∃ t pieces, Template.ofParts? ps = some t ∧ t.pieces context = .ok pieces ∧
      v = .str (Piece.output pieces) ∧
      ∀ piece ∈ pieces, piece.source.part ∈ ps ∧ piece.Safe ps context := by
  obtain ⟨t, pieces, ht, hpieces, houtput⟩ := render_pieces hc hname hv
  obtain rfl := Template.ofParts?_eq_some_iff.1 ht
  exact ⟨t, pieces, ht, hpieces, houtput, Template.safe_pieces hpieces⟩

end HtmlTemplate
