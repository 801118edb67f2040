import HtmlTemplate.Proofs.Render.Relates
import HtmlTemplate.Proofs.Template.Inversion
import HtmlTemplate.Proofs.Template.Place
import HtmlTemplate.Proofs.Value.Indexing

/-!
# Unrolling — a loop over a list is its body for every index

A loop over a list of the context renders what its bodies for the indices of the list render one
after another, where the paths that start with the loop's binding start with the list's path and the
index instead (`Compiled.render_eq_of_unrolled`).  All of it rests on one fact: what is looked up in
an element is looked up in the list under the element's index.
-/

namespace HtmlTemplate

open Text

namespace Template

/-! ## One template after another -/

def append : Template → Template → Template
  | done, t => t
  | insert insertion rest, t => .insert insertion (rest.append t)
  | block head body rest, t => .block head body (rest.append t)
  | choice head body other rest, t => .choice head body other (rest.append t)

variable {contextName : String} {t u : Template}

theorem parts_append (t u : Template) : (t.append u).parts = t.parts ++ u.parts := by
  induction t with
  | done => rfl
  | insert insertion rest ih => simp [append, parts, ih]
  | block head body rest _ ihrest => simp [append, parts, ihrest]
  | choice head body other rest _ _ ihrest => simp [append, parts, ihrest]

theorem Sound.append (ht : t.Sound) (hu : u.Sound) : (t.append u).Sound := by
  induction t with
  | done => exact hu
  | insert insertion rest ih => exact ⟨ht.1, ih ht.2⟩
  | block head body rest _ ihrest =>
    obtain ⟨hhead, hbody, hrest⟩ := ht
    exact ⟨hhead, hbody, ihrest hrest⟩
  | choice head body other rest _ _ ihrest =>
    obtain ⟨hhead, hbody, hother, hrest⟩ := ht
    exact ⟨hhead, hbody, hother, ihrest hrest⟩

theorem AdmittedAt.append {depth : Nat} (ht : t.AdmittedAt contextName depth)
    (hu : u.AdmittedAt contextName depth) : (t.append u).AdmittedAt contextName depth := by
  induction t with
  | done => exact hu
  | insert insertion rest ih => exact ⟨ht.1, ih ht.2⟩
  | block head body rest _ ihrest =>
    obtain ⟨hhead, hbody, hrest⟩ := ht
    exact ⟨hhead, hbody, ihrest hrest⟩
  | choice head body other rest _ _ ihrest =>
    obtain ⟨hhead, hbody, hother, hrest⟩ := ht
    exact ⟨hhead, hbody, hother, ihrest hrest⟩

/-- What may stand in a block may stand outside it. -/
theorem AdmittedAt.outside (t : Template) : ∀ {depth : Nat},
    t.AdmittedAt contextName (depth + 1) → t.AdmittedAt contextName depth := by
  induction t with
  | done =>
    intro depth _
    trivial
  | insert insertion rest ih =>
    rintro depth ⟨hfirst, hrest⟩
    exact ⟨hfirst, ih hrest⟩
  | block head body rest ihbody ihrest =>
    rintro depth ⟨⟨hhead, hdepth⟩, hbody, hrest⟩
    exact ⟨⟨hhead, Nat.lt_of_succ_lt hdepth⟩, ihbody hbody, ihrest hrest⟩
  | choice head body other rest ihbody ihother ihrest =>
    rintro depth ⟨⟨hhead, hdepth⟩, hbody, hother, hrest⟩
    exact ⟨⟨hhead, Nat.lt_of_succ_lt hdepth⟩, ihbody hbody, ihother hother, ihrest hrest⟩

theorem binds_append {binding : String} :
    (t.append u).Binds binding ↔ t.Binds binding ∨ u.Binds binding := by
  unfold Binds
  rw [← exists_or]
  exact exists_congr fun path => by rw [parts_append, List.mem_append]

theorem trace_append (context : Value) (t u : Template) (bindings : Bindings) :
    (t.append u).trace context bindings = do
      let first ← t.trace context bindings
      return first ++ (← u.trace context bindings) := by
  induction t with
  | done => simp [append, trace]
  | insert insertion rest ih =>
    simp only [append, trace, ih, bind_assoc, pure_bind, List.append_assoc]
  | block head body rest _ ihrest =>
    simp only [append, trace, ihrest, bind_assoc, pure_bind, List.append_assoc]
  | choice head body other rest _ _ ihrest =>
    simp only [append, trace, ihrest, bind_assoc, pure_bind, List.append_assoc]

end Template

/-! ## The same text -/

/-- Whether two computations come to pieces with the same text, or stop with the same fault. -/
def SameText : Render (List Piece) → Render (List Piece) → Prop :=
  Render.Relates fun a b => Piece.output a = Piece.output b

namespace SameText

variable {x y x' y' : Render (List Piece)}

theorem refl (x : Render (List Piece)) : SameText x x :=
  (Render.Relates.refl x).mono fun _ _ h => congrArg Piece.output h

theorem append (h : SameText x y) (h' : SameText x' y') :
    SameText (do return (← x) ++ (← x')) (do return (← y) ++ (← y')) := by
  refine h.bind fun a b hab => h'.bind fun a' b' hab' => .pure ?_
  rw [Piece.output_append, Piece.output_append, hab, hab']

theorem flatten {results results' : List (List Piece)}
    (h : List.Forall₂ (fun a b => Piece.output a = Piece.output b) results results') :
    Piece.output results.flatten = Piece.output results'.flatten := by
  induction h with
  | nil => rfl
  | cons hab _ ih =>
    rw [List.flatten_cons, List.flatten_cons, Piece.output_append, Piece.output_append, hab, ih]

/-- A block has the same text if its bodies have. -/
theorem head {context : Value} {bindings : Bindings} (head : Head)
    {body body' : Bindings → Render (List Piece)} {other other' : Render (List Piece)}
    (hbody : ∀ inner : Bindings, inner.map (·.1) = head.within (bindings.map (·.1)) →
      SameText (body inner) (body' inner))
    (hother : SameText other other') :
    SameText (head.trace context bindings body other)
      (head.trace context bindings body' other') := by
  cases head with
  | conditional path inverted emptiness =>
    refine .bind_same _ fun v => .bind_same _ fun truth => ?_
    split
    · exact hbody bindings rfl
    · exact hother
  | loop path binding =>
    refine .bind_same _ fun v => ?_
    have heach := Render.Relates.eachOf_same v fun element =>
      hbody ((binding, element) :: bindings) rfl
    refine heach.bind fun results results' hresults => ?_
    cases hresults with
    | nil => exact hother
    | cons hab hrest => exact .pure (flatten (.cons hab hrest))

end SameText

namespace Template.Rewrites

variable {rule : List String → Template → Template → Prop} {live : List String} {t u : Template}

/-- If templates have the same text where the rule applies, so do those around them. -/
theorem sameText {context : Value}
    (hrule : ∀ live t u, rule live t u → ∀ bindings : Bindings, bindings.map (·.1) = live →
      SameText (t.trace context bindings) (u.trace context bindings))
    (h : Rewrites rule live t u) : ∀ bindings : Bindings, bindings.map (·.1) = live →
      SameText (t.trace context bindings) (u.trace context bindings) := by
  induction h with
  | here h => exact hrule _ _ _ h
  | insert _ _ ih =>
    rintro bindings rfl
    exact .append (.refl _) (ih bindings rfl)
  | body _ _ ih =>
    rintro bindings rfl
    exact .append (.head _ ih (.refl _)) (.refl _)
  | behind _ _ _ ih =>
    rintro bindings rfl
    exact .append (.refl _) (ih bindings rfl)
  | first _ _ _ ih =>
    rintro bindings rfl
    exact .append (.head _ ih (.refl _)) (.refl _)
  | second _ _ _ _ ih =>
    rintro bindings rfl
    exact .append (.head _ (fun _ _ => .refl _) (ih bindings rfl)) (.refl _)
  | behindChoice _ _ _ _ ih =>
    rintro bindings rfl
    exact .append (.refl _) (ih bindings rfl)

end Template.Rewrites

/-! ## What an element is read from -/

namespace Path

theorem segments_append_dot (path name : String) :
    segments (path ++ "." ++ name) = segments path ++ segments name := by
  have hlist : (path ++ "." ++ name).toList = path.toList ++ '.' :: name.toList := by
    simp [String.toList_append]
  unfold segments
  rw [hlist, split_append_dot, List.map_append]

theorem segment_toString (n : Nat) : Segment (toString n) := by
  have hdigits : (toString n).toList = Nat.toDigits 10 n := Nat.toList_repr
  refine ⟨fun h => ?_, fun c hc => Or.inl ?_⟩
  · rw [h] at hdigits
    exact absurd hdigits.symm Nat.toDigits_ne_nil
  · rw [hdigits] at hc
    have hdigit := Nat.isDigit_of_mem_toDigits (by decide) (by decide) hc
    simp [Char.isAlphanum, hdigit]

end Path

/-- What the binding of a loop over a path stands for in the round of an index. -/
def element (path binding : String) (i : Nat) : String → String :=
  Function.update id binding (path ++ "." ++ toString i)

section Element

variable {path binding : String} {i : Nat}

theorem segments_element :
    Path.segments (element path binding i binding) = Path.segments path ++ [toString i] := by
  rw [element, Function.update_self, Path.segments_append_dot,
    Path.segments_of_segment (Path.segment_toString i)]

theorem head_element : Path.head (element path binding i binding) = Path.head path := by
  unfold Path.head
  rw [segments_element, Path.segments_eq path]
  rfl

theorem element_of_ne {name : String} (h : name ≠ binding) :
    element path binding i name = name := by
  rw [element, Function.update_of_ne h, id]

theorem wellSpelled_element (hpath : Path.WellSpelled path) :
    ∀ name, Path.WellSpelled name → Path.WellSpelled (element path binding i name) := by
  intro name hname
  by_cases h : name = binding
  · subst h
    refine Path.wellSpelled_of_segments ?_ ?_
    · rw [segments_element]
      exact List.forall_mem_append.2 ⟨hpath.segment,
        List.forall_mem_singleton.2 (Path.segment_toString i)⟩
    · rw [element, Function.update_self, String.append_assoc]
      exact hpath.start.append hpath.ne_empty
  · rwa [element_of_ne h]

/-- A body in which no loop binds the head of the path can do with the path for an element. -/
theorem substitutable_element {body : Template} (h : ¬ body.Binds (Path.head path)) :
    body.Substitutable (fun name => Path.head name = name) (element path binding i) where
  paths := fun _ _ q _ => Path.head_head q
  bindings := by
    intro inner hinner name hname hne
    by_cases hb : name = binding
    · subst hb
      rw [head_element]
      rintro rfl
      exact h hinner
    · rwa [element_of_ne hb, hname]

variable {contextName : String} {context : Value} {items : List Value} {bindings : Bindings}

theorem readPath_of_lookup {q b : String} {v : Value} (hq : Path.head q = b)
    (hb : bindings.lookup b = some v) :
    readPath context bindings q = Render.ofExcept (v.lookup (Path.segments q).tail) := by
  obtain ⟨head, rest, hsegments⟩ := Path.exists_segments q
  obtain rfl : head = b := by rw [← hq, Path.head, hsegments, List.headD_cons]
  unfold readPath
  simp only [hsegments, hb, List.tail_cons]

theorem readPath_of_not_mem {q : String} (hq : Path.head q ∉ bindings.map (·.1)) :
    readPath context bindings q = Render.ofExcept (context.lookup (Path.segments q)) := by
  have hnone : bindings.lookup (Path.head q) = none := by
    rwa [mem_map_fst, Bool.not_eq_true, Option.isSome_eq_false_iff, Option.isNone_iff_eq_none] at hq
  obtain ⟨head, rest, hsegments⟩ := Path.exists_segments q
  rw [Path.head, hsegments, List.headD_cons] at hnone
  unfold readPath
  simp only [hsegments, hnone]

/-- What is read from an element is read from the list at the element's index. -/
theorem transfers_element (hn : Generator.checkContextName contextName = .ok ())
    (hlookup : normalName contextName ≠ Helper.lookup.name)
    (hitems : context.lookup (Path.segments path) = .ok (.list items))
    (hi : i < 10 ^ RenderFault.maxDigits) (hpath : Path.head path ∉ bindings.map (·.1)) :
    Transfers contextName context (fun name => Path.head name = name) (element path binding i)
      ((binding, items[i]?.getD .none) :: bindings) bindings := by
  intro q _
  by_cases hq : Path.head q = binding
  · -- The path leads into the element, and substituted into the list at the element's index.
    have hread : readPath context ((binding, items[i]?.getD .none) :: bindings) q =
        readPath context bindings (Path.substitute (element path binding i) q) := by
      have hfound : List.lookup binding ((binding, items[i]?.getD .none) :: bindings) =
          some (items[i]?.getD .none) := List.lookup_cons_self
      have houtside : Path.head (Path.substitute (element path binding i) q) ∉
          bindings.map (·.1) := by
        rwa [Path.head_substitute, hq, head_element]
      have hindex : context.lookup (Path.segments (Path.substitute (element path binding i) q)) =
          (items[i]?.getD .none).lookup (Path.segments q).tail := by
        rw [Path.segments_substitute, hq, segments_element, List.append_assoc, Value.lookup_append,
          hitems]
        exact Value.lookup_list_index hi _
      rw [readPath_of_lookup hq hfound, readPath_of_not_mem houtside, hindex]
    have hreach : Reachable False contextName context .lookup := Or.inl hlookup
    have hfirst := (eval_pathCode hn hreach ((binding, items[i]?.getD .none) :: bindings) q).eq
    have hsecond := (eval_pathCode hn hreach bindings
      (Path.substitute (element path binding i) q)).eq
    exact hfirst.trans ((congrArg (Meaning.value <$> ·) hread).trans hsecond.symm)
  · -- Any other path stays, and does not see the element.
    rw [Path.substitute_of_eq (element_of_ne hq)]
    exact same_pathCode_cons hn hq _

end Element

/-! ## Bodies -/

theorem Renders.unique {env env' : Env} {es fs : List Expr} {y z : Render String}
    (hes : Renders False env es y) (hfs : Renders False env' fs z)
    (h : Expr.evalAll env es = Expr.evalAll env' fs) : y = z := by
  obtain ⟨texts, htexts, rfl⟩ := hes
  obtain ⟨texts', htexts', rfl⟩ := hfs
  -- What is said determines the texts.
  have hsaid : List.map Meaning.said <$> texts = List.map Meaning.said <$> texts' :=
    htexts.eq.symm.trans (h.trans htexts'.eq)
  have hinjective : Function.Injective Meaning.said := by
    intro s s' he
    injection he with he
    injection he
  have hsame := (Render.Relates.map_eq_map_iff.2 hsaid).mono fun _ _ he =>
    List.map_injective_iff.2 hinjective he
  rw [hsame.eq]

/-- A template has the same text, substituted, under bindings where its paths read the same. -/
theorem Template.sameText_substitute {contextName : String} {context : Value}
    (hn : Generator.checkContextName contextName = .ok ())
    (hh : ∀ h : Helper, h ≠ .markSafe → normalName contextName ≠ h.name) {heads : String → Prop}
    {σ : String → String} {t : Template} (hsound : t.Sound) (ht : t.Substitutable heads σ)
    {first second : Bindings} (h : Transfers contextName context heads σ first second) :
    SameText (t.trace context first) ((t.substitute σ).trace context second) := by
  have hreach : ∀ h : Helper, h ≠ .markSafe → Reachable False contextName context h :=
    fun h hm => Or.inl (hh h hm)
  exact Render.Relates.map_eq_map_iff.2 ((t.renders_code hn hreach hsound first).unique
    ((t.substitute σ).renders_code hn hreach hsound.substitute second)
    (t.sameAll_substitute hn hsound ht h))

/-! ## Rounds -/

namespace Template

/-- The bodies of a loop for some indices, one after another, and what follows the loop. -/
def unrolled (path binding : String) (body rest : Template) (indices : List Nat) : Template :=
  indices.foldr (fun i t => (body.substitute (element path binding i)).append t) rest

/-- Whether a template that starts with a loop over a path of the context becomes another by
unrolling the loop. -/
def Unrolls (path binding : String) (body : Template) (count : Nat) (live : List String)
    (t u : Template) : Prop :=
  Path.head path ∉ live ∧ ∃ rest : Template, t = .block (.loop path binding) body rest ∧
    u = unrolled path binding body rest (List.range count)

section Unrolled

variable {path binding contextName : String} {body rest : Template} {indices : List Nat}

theorem parts_unrolled : (unrolled path binding body rest indices).parts =
    (indices.flatMap fun i => (body.substitute (element path binding i)).parts) ++ rest.parts := by
  induction indices with
  | nil => rfl
  | cons i indices ih =>
    have hcons : unrolled path binding body rest (i :: indices) =
        (body.substitute (element path binding i)).append
          (unrolled path binding body rest indices) := rfl
    rw [hcons, parts_append, ih, List.flatMap_cons, List.append_assoc]

theorem Sound.unrolled (hbody : body.Sound) (hrest : rest.Sound) :
    (unrolled path binding body rest indices).Sound := by
  induction indices with
  | nil => exact hrest
  | cons i indices ih => exact hbody.substitute.append ih

theorem AdmittedAt.unrolled {depth : Nat} (hpath : Path.WellSpelled path)
    (hbody : body.AdmittedAt contextName (depth + 1)) (hrest : rest.AdmittedAt contextName depth) :
    (unrolled path binding body rest indices).AdmittedAt contextName depth := by
  induction indices with
  | nil => exact hrest
  | cons i indices ih =>
    exact (AdmittedAt.outside body hbody).substitute (wellSpelled_element hpath) |>.append ih

/-- All that is bound in the rounds is bound in the body. -/
theorem binds_unrolled {name : String} : (unrolled path binding body rest indices).Binds name ↔
    (indices ≠ [] ∧ body.Binds name) ∨ rest.Binds name := by
  induction indices with
  | nil => simp [unrolled]
  | cons i indices ih =>
    have hcons : unrolled path binding body rest (i :: indices) =
        (body.substitute (element path binding i)).append
          (unrolled path binding body rest indices) := rfl
    rw [hcons, binds_append, binds_substitute, ih]
    simp only [ne_eq, List.cons_ne_nil, not_false_eq_true, true_and]
    tauto

end Unrolled

section Text

variable {contextName path binding : String} {context : Value} {body rest : Template}
  {bindings : Bindings}

/-- A loop over a list goes through its items. -/
theorem trace_loop {items : List Value}
    (hread : readPath context bindings path = return .list items) :
    (block (.loop path binding) body rest).trace context bindings = do
      let results ← Render.eachItem (fun v => body.trace context ((binding, v) :: bindings)) items
      return results.flatten ++ (← rest.trace context bindings) := by
  have heach : ∀ each : Value → Render (List Piece),
      Render.eachOf (.list items) each = Render.eachItem each items := fun _ => bind_pure _
  rw [trace, Head.trace]
  simp only [hread, pure_bind, heach, bind_assoc]
  refine bind_congr fun results => ?_
  cases results with
  | nil => rfl
  | cons first more => rfl

/-- What goes through the items for some indices has the text of the rounds for these. -/
theorem sameText_unrolled (rest : Template) (item : Nat → Value) (indices : List Nat)
    (hround : ∀ i ∈ indices, SameText (body.trace context ((binding, item i) :: bindings))
      ((body.substitute (element path binding i)).trace context bindings)) :
    SameText
      (do
        let results ← Render.eachItem (fun v => body.trace context ((binding, v) :: bindings))
          (indices.map item)
        return results.flatten ++ (← rest.trace context bindings))
      ((unrolled path binding body rest indices).trace context bindings) := by
  induction indices with
  | nil =>
    have hnil : unrolled path binding body rest [] = rest := rfl
    simp only [List.map_nil, Render.eachItem, pure_bind, List.flatten_nil, List.nil_append, hnil,
      bind_pure]
    exact .refl _
  | cons i indices ih =>
    obtain ⟨hfirst, hmore⟩ := List.forall_mem_cons.1 hround
    have hcons : unrolled path binding body rest (i :: indices) =
        (body.substitute (element path binding i)).append
          (unrolled path binding body rest indices) := rfl
    rw [hcons, trace_append]
    -- The first round stands before the rounds of the other indices.
    have happend := hfirst.append (ih hmore)
    simpa only [List.map_cons, Render.eachItem, bind_assoc, pure_bind, List.flatten_cons,
      List.append_assoc] using happend

theorem Unrolls.sameText {items : List Value} {live : List String} {t u : Template}
    (h : Unrolls path binding body items.length live t u)
    (hn : Generator.checkContextName contextName = .ok ())
    (hh : ∀ h : Helper, h ≠ .markSafe → normalName contextName ≠ h.name)
    (hitems : context.lookup (Path.segments path) = .ok (.list items))
    (hlength : items.length ≤ 10 ^ RenderFault.maxDigits)
    (hbody : ¬ body.Binds (Path.head path)) (hsound : t.Sound) (hlive : bindings.map (·.1) = live) :
    SameText (t.trace context bindings) (u.trace context bindings) := by
  obtain ⟨hpath, rest, rfl, rfl⟩ := h
  rw [← hlive] at hpath
  have hread : readPath context bindings path = return .list items := by
    rw [readPath_of_not_mem hpath, hitems]
    rfl
  -- Going through the items is going through their indices.
  have hall : (List.range items.length).map (fun i => items[i]?.getD .none) = items := by
    refine List.ext_getElem (by simp) fun i hi _ => ?_
    have hlt : i < items.length := by simpa using hi
    simp [hlt]
  have hround : ∀ i ∈ List.range items.length,
      SameText (body.trace context ((binding, items[i]?.getD .none) :: bindings))
        ((body.substitute (element path binding i)).trace context bindings) := by
    intro i hi
    have hi' := Nat.lt_of_lt_of_le (List.mem_range.1 hi) hlength
    exact sameText_substitute hn hh hsound.2.1 (substitutable_element hbody)
      (transfers_element hn (hh .lookup (by decide)) hitems hi' hpath)
  have hrounds := sameText_unrolled rest _ _ hround
  rw [hall] at hrounds
  rw [trace_loop hread]
  exact hrounds

end Text

namespace Unrolls

variable {contextName path binding : String} {count : Nat} {live : List String}
  {body t u : Template}

theorem sound (h : Unrolls path binding body count live t u) (ht : t.Sound) : u.Sound := by
  obtain ⟨-, rest, rfl, rfl⟩ := h
  obtain ⟨-, hbody, hrest⟩ := ht
  exact hbody.unrolled hrest

theorem admittedAt {depth : Nat} (h : Unrolls path binding body count live t u)
    (ht : t.AdmittedAt contextName depth) : u.AdmittedAt contextName depth := by
  obtain ⟨-, rest, rfl, rfl⟩ := h
  obtain ⟨⟨hspelled, -⟩, hbody, hrest⟩ := ht
  exact .unrolled (hspelled.paths path List.mem_cons_self) hbody hrest

/-- A name is bound as before, unless the only loops that bind it are gone. -/
theorem binds_iff {name : String} (h : Unrolls path binding body count live t u)
    (hne : binding ≠ name) (hrun : count = 0 → ¬ body.Binds name) :
    t.Binds name ↔ u.Binds name := by
  obtain ⟨-, rest, rfl, rfl⟩ := h
  -- The loop that is unrolled binds another name.
  have hhead : ¬ (Head.loop path binding).Binds name := by
    rintro ⟨q, hq⟩
    obtain ⟨-, rfl⟩ := Part.loop.inj hq
    exact hne rfl
  have hnone : List.range count ≠ [] ↔ count ≠ 0 := List.range_eq_nil.not
  rw [binds_block, binds_unrolled, hnone]
  tauto

end Unrolls

end Template

/-! ## What is compiled -/

namespace Compiled

variable {name path binding : String} {items : List Value} {context : Value} {body t u : Template}
  {c : Compiled}

/-- A template with a loop over a list renders as the one in which the loop is unrolled, which is
compiled too. -/
theorem exists_render_eq_of_unrolls (hh : ∀ h : Helper, h ≠ .markSafe → normalName name ≠ h.name)
    (hc : ofParts name t.parts = .ok c)
    (h : Template.Rewrites (Template.Unrolls path binding body items.length) [] t u)
    (hitems : context.lookup (Path.segments path) = .ok (.list items))
    (hlength : items.length ≤ 10 ^ RenderFault.maxDigits)
    (hbody : ¬ body.Binds (Path.head path)) (hbinding : binding ≠ Binding.unbindable) :
    ∃ d, ofParts name u.parts = .ok d ∧
      ((items = [] → ¬ body.Binds Binding.unbindable) → c.render context = d.render context) := by
  obtain ⟨hn, hsound, husound, d, hd⟩ := exists_of_rewrites hc h (fun _ _ _ hr => hr.sound)
    fun _ _ _ hr _ => hr.admittedAt
  refine ⟨d, hd, fun hrun => ?_⟩
  have hloops : t.Binds Binding.unbindable ↔ u.Binds Binding.unbindable :=
    h.binds_iff fun _ _ _ hr => hr.binds_iff hbinding fun hnone =>
      hrun (List.eq_nil_of_length_eq_zero hnone)
  have htext : SameText (t.trace context []) (u.trace context []) :=
    (h.and_sound hsound).sameText
      (fun _ _ _ hr _ hlive => hr.1.sameText hn hh hitems hlength hbody hr.2 hlive) [] rfl
  -- The text is all that is left of the pieces.
  have hinterpret : t.interpret context = u.interpret context := by
    have houtput : Piece.output <$> t.trace context [] = Piece.output <$> u.trace context [] :=
      Render.Relates.map_eq_map_iff.1 htext
    have hrun := congrArg (fun x => (·.1) <$> StateT.run x []) houtput
    unfold Template.interpret Template.pieces
    simpa only [StateT.run_map, Functor.map_map] using hrun
  refine render_eq_of_code hc hd hloops ?_
  rw [Template.render_code hn hh hsound, Template.render_code hn hh husound, hinterpret]

/-- A loop over a list of the context is unrolled.  Whatever its body has in it, the body for every
index of the list may stand in the loop's place one after another, if the paths that start with the
loop's binding start with the path of the list and the index instead.  Nothing else may go by the
name that the path starts with: no loop around the loop, and none in its body.  Only for an empty
list is there a difference, if the body has a loop that cannot be run: then the body, and what
cannot be run, are not there any more. -/
theorem render_eq_of_unrolled {before behind : List Part}
    (hh : ∀ h : Helper, h ≠ .markSafe → normalName name ≠ h.name)
    (hc : ofParts name (before ++ .loop path binding :: (body.parts ++ .close :: behind)) = .ok c)
    (hpath : Path.head path ∉ Part.live before) (hbody : ¬ body.Binds (Path.head path))
    (hbinding : binding ≠ Binding.unbindable)
    (hitems : context.lookup (Path.segments path) = .ok (.list items))
    (hlength : items.length ≤ 10 ^ RenderFault.maxDigits) :
    ∃ d, ofParts name (before ++ ((List.range items.length).flatMap fun i =>
        (body.substitute (element path binding i)).parts) ++ behind) = .ok d ∧
      ((items = [] → ¬ body.Binds Binding.unbindable) → c.render context = d.render context) ∧
      (body.Binds Binding.unbindable →
        c.code = .error (.reservedParameter Expr.reservedName)) := by
  obtain ⟨t, ht, -⟩ := exists_template hc
  have hparts := Template.ofParts?_eq_some_iff.1 ht
  obtain ⟨rest, behind, rfl, hplace⟩ := t.placeAt_of_parts (.loop path binding) hparts
  obtain ⟨u, hu, huparts⟩ := hplace (Template.Unrolls path binding body items.length) _
    ⟨hpath, rest, rfl, rfl⟩
  rw [← hparts] at hc
  obtain ⟨d, hd, hrender⟩ := exists_render_eq_of_unrolls hh hc hu hitems hlength hbody hbinding
  rw [huparts, Template.parts_unrolled] at hd
  refine ⟨d, by simpa only [List.append_assoc] using hd, hrender, ?_⟩
  rintro ⟨q, hq⟩
  have hmem : Part.loop q Binding.unbindable ∈ t.parts := by
    rw [hparts]
    exact List.mem_append_right _ (List.mem_cons_of_mem _ (List.mem_append_left _ hq))
  exact code_unbindable hc hmem

/-- A loop over two items renders what is read under both indices. -/
theorem render_eq_of_unrolled_two : ∃ c d,
    ofParts "context" [.loop "xs" "x", .body "x", .close] = .ok c ∧
    ofParts "context" [.body "xs.0", .body "xs.1"] = .ok d ∧
    c.render (.dict [(.str "xs", .list [.str "a", .str "b"])]) =
      d.render (.dict [(.str "xs", .list [.str "a", .str "b"])]) := by
  have hname : ∀ h : Helper, normalName "context" ≠ h.name := by
    rw [normalName_ascii (by decide)]
    intro h
    cases h <;> decide
  have hbinds : ∀ binding, ¬ (Template.insert (.body "x") .done).Binds binding := by
    simp [Template.Binds, Template.parts, Insertion.part]
  obtain ⟨c, hc⟩ : ∃ c, ofParts "context" [.loop "xs" "x", .body "x", .close] = .ok c := ⟨_, rfl⟩
  have hc' : ofParts "context" ([] ++ .loop "xs" "x" ::
      ((Template.insert (.body "x") .done).parts ++ .close :: [])) = .ok c := hc
  have hitems : (Value.dict [(.str "xs", .list [.str "a", .str "b"])]).lookup
      (Path.segments "xs") = .ok (.list [.str "a", .str "b"]) := rfl
  have hlength : [Value.str "a", .str "b"].length ≤ 10 ^ RenderFault.maxDigits :=
    Nat.le_trans (by decide) (Nat.le_self_pow (by decide) 10)
  obtain ⟨d, hd, hrender, -⟩ := render_eq_of_unrolled (fun h _ => hname h) hc' (by decide)
    (hbinds _) (by decide) hitems hlength
  exact ⟨c, d, hc, hd, hrender fun _ => hbinds _⟩

/-- A loop over no items is not run if a loop in its body cannot be, and without it there is nothing
to run. -/
theorem not_unrolled_unbindable : ∃ c d,
    ofSource {} (inBraces ">p x" ++ inBraces ">q $ebug_" ++ inBraces "<" ++ inBraces "<") = .ok c ∧
    ofSource {} "" = .ok d ∧
    c.render (.dict [(.str "p", .list [])]) = .error (.reservedParameter "__debug__") ∧
    d.render (.dict [(.str "p", .list [])]) = .ok (.str "") := by
  have hloops : templateOf {} (inBraces ">p x" ++ inBraces ">q $ebug_" ++ inBraces "<" ++
      inBraces "<") = .ok [.loop "p" "x", .loop "q" "$ebug_", .close, .close] := by
    with_unfolding_all rfl
  obtain ⟨c, hc⟩ : ∃ c, ofParts "context" [.loop "p" "x", .loop "q" "$ebug_", .close, .close] =
      .ok c := Except.exists_of_isOk (by decide +kernel)
  obtain ⟨d, hd⟩ : ∃ d, ofParts "context" Template.done.parts = .ok d := ⟨_, rfl⟩
  have hempty : templateOf {} "" = .ok Template.done.parts := by with_unfolding_all rfl
  refine ⟨c, d, ofSource_of_parts hloops hc, ofSource_of_parts hempty hd, ?_, ?_⟩
  · unfold render
    rw [code_unbindable hc (List.mem_cons_of_mem _ List.mem_cons_self)]
    rfl
  · have hcode := code_bindable hd (by simp [Template.parts])
    obtain ⟨-, hdname, -⟩ := ofParts_ok hd
    have hname : normalName "context" = "context" := normalName_ascii (by decide)
    unfold render Expr.render Expr.run
    rw [hcode, hdname, hname]
    rfl

end Compiled

end HtmlTemplate
