import HtmlTemplate.Proofs.Scope.Alias
import HtmlTemplate.Proofs.Template.Code

/-!
# Generation — parts that are accepted become the code of their template

Parts are folded into a flat sequence of tokens, while the scope decides what each path reads.
When they are accepted, their blocks match up, and the tokens are those of the template's code.
-/

namespace HtmlTemplate

open Text

/-- The bindings that are live in open blocks, the innermost first. -/
def liveNames (frames : List Frame) : List String := frames.filterMap Frame.name?

theorem Scope.Consistent.isLocal_iff {s : Scope} (h : s.Consistent) (name : String) :
    s.isLocal name = true ↔ name ∈ liveNames s.frames := by
  rw [h.isLocal_eq, Frame.addressOf_isSome, liveNames, List.mem_filterMap]

/-- A block over the elements of a path has a frame that holds its binding, if there is one. -/
theorem Scope.frames_nestIterable {s : Scope} {path binding : String} {a : Address}
    (h : (s.nestIterable path binding).1 = .ok a) :
    ∃ frame, (s.nestIterable path binding).2.frames = frame :: s.frames ∧ frame ≠ .plain true ∧
      frame.name? = if binding.isEmpty then none else some binding := by
  rcases s.nestIterable_cases path binding with e | e | ⟨hb, e⟩ | ⟨hb, e⟩ <;> rw [e] at h ⊢
  · cases h
  · cases h
  · exact ⟨.plain false, rfl, by decide, by rw [if_pos hb]; rfl⟩
  · have hne : ¬ binding.isEmpty = true := by simp [hb]
    exact ⟨.binding binding _ _, rfl, Frame.noConfusion, (if_neg hne).symm⟩

namespace Path

/-- Every character but the dots is in one of the segments. -/
theorem mem_split {c : Char} {cs : List Char} (hc : c ∈ cs) (hne : c ≠ '.') :
    ∃ segment ∈ split cs, c ∈ segment := by
  induction cs with
  | nil => cases hc
  | cons d cs ih =>
    rw [split]
    by_cases hd : d = '.'
    · have hcs : c ∈ cs := (List.mem_cons.1 hc).resolve_left fun he => hne (he.trans hd)
      obtain ⟨segment, hs, hmem⟩ := ih hcs
      rw [if_pos (by simp [hd])]
      exact ⟨segment, List.mem_cons_of_mem _ hs, hmem⟩
    · rw [if_neg (by simp [hd])]
      split
      · rename_i hnil
        exact absurd hnil (split_ne_nil cs)
      · rename_i first rest hsplit
        rcases List.mem_cons.1 hc with rfl | hcs
        · exact ⟨_, List.mem_cons_self, List.mem_cons_self⟩
        · obtain ⟨segment, hs, hmem⟩ := ih hcs
          rw [hsplit] at hs
          rcases List.mem_cons.1 hs with rfl | hs
          · exact ⟨_, List.mem_cons_self, List.mem_cons_of_mem _ hmem⟩
          · exact ⟨segment, List.mem_cons_of_mem _ hs, hmem⟩

/-- A path holds only dots and the characters of names. -/
theorem isNameChar_of_check {path : String} (h : check path = .ok ()) {c : Char}
    (hc : c ∈ path.toList) (hne : c ≠ '.') : isNameChar c = true := by
  unfold check at h
  split at h
  · cases h
  · split at h
    · cases h
    · rename_i hall
      obtain ⟨segment, hs, hmem⟩ := mem_split hc hne
      simp only [Bool.not_eq_true', Bool.not_eq_false, List.all_eq_true, isSegment,
        Bool.and_eq_true] at hall
      exact (hall segment hs).2 c hmem

end Path

namespace Generate

/-! ## Steps -/

variable {α β : Type} {g h : Generator}

/-- Whether a computation succeeds. -/
def Yields (m : Generate α) (g : Generator) (a : α) (h : Generator) : Prop :=
  m.run g = (.ok a, h)

theorem Yields.of_pure {a b : α} (hy : Yields (pure a) g b h) : b = a ∧ h = g := by
  cases hy
  exact ⟨rfl, rfl⟩

theorem Yields.of_throw {fault : Error} {a : α} (hy : Yields (throw fault) g a h) : False := by
  cases hy

theorem run_bind (m : Generate α) (f : α → Generate β) (g : Generator) :
    (m >>= f).run g =
      match m.run g with
      | (.ok a, k) => (f a).run k
      | (.error fault, k) => (.error fault, k) := by
  change ExceptT.bindCont f (m.run g).1 (m.run g).2 = _
  cases m.run g with
  | mk result k => cases result <;> rfl

theorem run_get_bind (f : Generator → Generate β) (g : Generator) :
    (get >>= f).run g = (f g).run g := by
  rw [run_bind]
  rfl

theorem Yields.of_bind {m : Generate α} {f : α → Generate β} {b : β}
    (hy : Yields (m >>= f) g b h) : ∃ a k, Yields m g a k ∧ Yields (f a) k b h := by
  unfold Yields at hy ⊢
  rw [run_bind] at hy
  cases hm : m.run g with
  | mk result k =>
    rw [hm] at hy
    cases result with
    | error fault => cases hy
    | ok a => exact ⟨a, k, rfl, hy⟩

theorem Yields.bind {m : Generate α} {f : α → Generate β} {a : α} {b : β} {k : Generator}
    (hm : Yields m g a k) (hf : Yields (f a) k b h) : Yields (m >>= f) g b h := by
  unfold Yields at hm hf ⊢
  rw [run_bind, hm]
  exact hf

theorem Yields.of_get {k : Generator} (hy : Yields get g k h) : k = g ∧ h = g := by
  cases hy
  exact ⟨rfl, rfl⟩

theorem Yields.of_set {k : Generator} {u : PUnit} (hy : Yields (set k) g u h) : h = k := by
  cases hy
  rfl

theorem Yields.of_emit {tokens : List Token} (hy : Yields (emit tokens) g () h) :
    h = { g with output := g.output ++ tokens } := by
  cases hy
  rfl

theorem Yields.of_onScope {step : Scope → Except StructureFault Scope}
    (hy : Yields (onScope step) g () h) :
    ∃ scope, step g.scope = .ok scope ∧ h = { g with scope } := by
  obtain ⟨k, l, hget, hstep⟩ := hy.of_bind
  obtain ⟨rfl, rfl⟩ := hget.of_get
  split at hstep
  · rename_i scope hs
    exact ⟨scope, hs, hstep.of_set⟩
  · exact hstep.of_throw.elim

theorem Yields.of_nestIterable {path binding : String}
    (hy : Yields (nestIterable path binding) g () h) :
    ∃ a, (g.scope.nestIterable path binding).1 = .ok a ∧
      h = { g with scope := (g.scope.nestIterable path binding).2 } := by
  obtain ⟨k, l, hget, hnest⟩ := hy.of_bind
  obtain ⟨rfl, rfl⟩ := hget.of_get
  obtain ⟨u, m, hset, hanswer⟩ := hnest.of_bind
  obtain rfl := hset.of_set
  split at hanswer
  · rename_i a ha
    exact ⟨a, ha, hanswer.of_pure.2⟩
  · exact hanswer.of_throw.elim

/-! ## Code -/

theorem written_helperCall (helper : Helper) (arguments : List Expr) :
    (Expr.helperCall helper arguments).written =
      helperCall helper (Expr.writtenArguments arguments) := by
  simp [Expr.helperCall, Expr.written, helperCall]

theorem writtenFurther_literals (path : List String) :
    Expr.writtenFurther (path.map .literal) =
      path.flatMap fun segment => separator ++ [.literal segment] := by
  induction path with
  | nil => rfl
  | cons segment path ih => simp [Expr.writtenFurther, Expr.written, ih]

theorem written_access (root : String) (path : List String) :
    (Expr.access root path).written = access root path := by
  unfold Expr.access access
  split
  · rfl
  · rw [written_helperCall, Expr.writtenArguments, writtenFurther_literals]
    rfl

/-- The code of a path is that of its root, which the scope has told apart. -/
theorem Yields.of_reference {path : String} {required : Bool} {code : List Token}
    (hc : g.scope.Consistent) (hy : Yields (reference path required) g code h) :
    Path.check path = .ok () ∧
      code = (pathCode g.contextName (liveNames g.scope.frames) path).written ∧
      h = { g with scope := (g.scope.record path required).2 } := by
  unfold reference at hy
  cases hp : Path.check path with
  | error fault =>
    rw [hp] at hy
    obtain ⟨_, _, hthrow, -⟩ := hy.of_bind
    exact hthrow.of_throw.elim
  | ok _ =>
    rw [hp] at hy
    obtain ⟨k, l, hget, hrest⟩ := hy.of_bind
    obtain ⟨rfl, rfl⟩ := hget.of_get
    obtain ⟨_, _, hset, hreturn⟩ := hrest.of_bind
    obtain rfl := hset.of_set
    obtain ⟨rfl, rfl⟩ := hreturn.of_pure
    refine ⟨rfl, ?_, rfl⟩
    obtain ⟨head, rest, hsegments⟩ := Path.exists_segments path
    unfold pathCode
    simp only [hsegments, ← hc.isLocal_iff]
    -- The scope calls a name local exactly if it is a live binding.
    split <;> exact (written_access _ _).symm

/-! ## Insertions -/

/-- Whether generating the pieces of a body has written them, and left blocks as they were. -/
structure Emits (g : Generator) (es : List Expr) (h : Generator) : Prop where
  output : h.output.toList = g.output.toList ++ Expr.writtenItems es
  contextName : h.contextName = g.contextName
  frames : h.scope.frames = g.scope.frames
  consistent : h.scope.Consistent

theorem writtenItems_append (es fs : List Expr) :
    Expr.writtenItems (es ++ fs) = Expr.writtenItems es ++ Expr.writtenItems fs := by
  induction es with
  | nil => rfl
  | cons e es ih => simp [Expr.writtenItems, ih]

theorem Emits.refl (hc : g.scope.Consistent) : Emits g [] g where
  output := (List.append_nil _).symm
  contextName := rfl
  frames := rfl
  consistent := hc

theorem Emits.append {k : Generator} {es fs : List Expr} (hes : Emits g es h) (hfs : Emits h fs k) :
    Emits g (es ++ fs) k where
  output := by rw [hfs.output, hes.output, writtenItems_append, List.append_assoc]
  contextName := hfs.contextName.trans hes.contextName
  frames := hfs.frames.trans hes.frames
  consistent := hfs.consistent

theorem emits_piece {e : Expr} {tokens : List Token} (hc : g.scope.Consistent)
    (ht : tokens = e.written) (hy : Yields (piece tokens) g () h) : Emits g [e] h := by
  obtain rfl := hy.of_emit
  refine ⟨?_, rfl, rfl, hc⟩
  simp [Expr.writtenItems, ht]

/-- Reading a path writes nothing yet. -/
theorem emits_reference {path : String} {required : Bool} {code : List Token}
    (hc : g.scope.Consistent) (hy : Yields (reference path required) g code h) :
    Emits g [] h := by
  obtain ⟨-, -, rfl⟩ := hy.of_reference hc
  exact ⟨(List.append_nil _).symm, rfl, Scope.frames_record path required, hc.record path required⟩

theorem emits_path_piece {path : String} {required : Bool} {f : List Token → List Token} {e : Expr}
    (hc : g.scope.Consistent)
    (hf : f (pathCode g.contextName (liveNames g.scope.frames) path).written = e.written)
    (hy : Yields (do piece (f (← reference path required))) g () h) : Emits g [e] h := by
  obtain ⟨code, k, href, hpiece⟩ := hy.of_bind
  have hread := emits_reference hc href
  obtain ⟨-, rfl, -⟩ := href.of_reference hc
  exact hread.append (emits_piece hread.consistent hf hpiece)

theorem written_call_one (helper : Helper) (e : Expr) :
    helperCall helper e.written = (Expr.helperCall helper [e]).written := by
  simp [written_helperCall, Expr.writtenArguments, Expr.writtenFurther]

theorem written_call_two (helper : Helper) (e f : Expr) :
    helperCall helper (e.written ++ separator ++ f.written) =
      (Expr.helperCall helper [e, f]).written := by
  simp [written_helperCall, Expr.writtenArguments, Expr.writtenFurther]

theorem written_flag (key : String) (e : Expr) :
    helperCall .ifCheck (e.written ++ separator ++ functionOpen none ++ [.literal (" " ++ key)]) =
      (Expr.helperCall .ifCheck [e, .function none (.literal (" " ++ key))]).written := by
  rw [← written_call_two, List.append_assoc]
  rfl

theorem written_optional (key : String) (e : Expr) :
    optionalCode key e.written = (Expr.helperCall .ifDefined [e, attributeCode key]).written := by
  rw [← written_call_two]
  unfold optionalCode
  rw [List.append_assoc]
  rfl

/-- The paths among segments, `literal` telling whether the first segment is text. -/
def segmentPaths : Bool → List String → List String
  | _, [] => []
  | true, _ :: rest => segmentPaths false rest
  | false, path :: rest => path :: segmentPaths true rest

theorem Yields.of_composite {segments : List String} : ∀ {literal : Bool} {g h : Generator},
    g.scope.Consistent → Yields (composite literal segments) g () h →
    Emits g (segmentCode g.contextName (liveNames g.scope.frames) literal segments) h ∧
      ∀ path ∈ segmentPaths literal segments, Path.check path = .ok () := by
  induction segments with
  | nil =>
    intro literal g h hc hy
    cases hy
    cases literal <;> exact ⟨Emits.refl hc, fun path hp => by cases hp⟩
  | cons segment rest ih =>
    intro literal g h hc hy
    cases literal with
    | true =>
      -- Empty text is not written.
      have hrest : ∃ k, Emits g (if segment.isEmpty then [] else [.literal segment]) k ∧
          Yields (composite false rest) k () h := by
        rw [composite] at hy
        split at hy
        · rename_i hempty
          exact ⟨g, by rw [if_pos hempty]; exact Emits.refl hc, hy⟩
        · rename_i hempty
          obtain ⟨_, k, hpiece, hrest⟩ := hy.of_bind
          exact ⟨k, by rw [if_neg hempty]; exact emits_piece hc rfl hpiece, hrest⟩
      obtain ⟨k, htext, hrest⟩ := hrest
      obtain ⟨hemits, hpaths⟩ := ih htext.consistent hrest
      rw [htext.contextName, htext.frames] at hemits
      refine ⟨?_, hpaths⟩
      have happend := htext.append hemits
      rw [segmentCode]
      split at happend <;> rename_i hempty
      · rw [if_pos hempty]
        exact happend
      · rw [if_neg hempty]
        exact happend
    | false =>
      rw [composite] at hy
      obtain ⟨code, k, href, hmore⟩ := hy.of_bind
      obtain ⟨_, l, hpiece, hrest⟩ := hmore.of_bind
      obtain ⟨hpath, rfl, -⟩ := href.of_reference hc
      have hread := emits_reference hc href
      have hvalue := hread.append (emits_piece hread.consistent
        (written_call_one .ifDefined _) hpiece)
      obtain ⟨hemits, hpaths⟩ := ih hvalue.consistent hrest
      rw [hvalue.contextName, hvalue.frames] at hemits
      refine ⟨hvalue.append hemits, ?_⟩
      intro path hmem
      rcases List.mem_cons.1 hmem with rfl | hmem
      · exact hpath
      · exact hpaths path hmem

theorem quote_mem_segmentPaths : ∀ {segments : List String}, segments ≠ [] →
    segments.length % 2 = 0 → ∃ text, text ++ "\"" ∈ segmentPaths true (closeQuote segments)
  | [], hne, _ => absurd rfl hne
  | [_], _, h => absurd h (by simp)
  | [_, path], _, _ => ⟨path, List.mem_cons_self⟩
  | first :: path :: next :: rest, _, h => by
    have heven : (next :: rest).length % 2 = 0 := by
      simp only [List.length_cons] at h ⊢
      omega
    obtain ⟨text, htext⟩ := quote_mem_segmentPaths (List.cons_ne_nil next rest) heven
    rw [closeQuote_cons_cons, closeQuote_cons_cons]
    exact ⟨text, List.mem_cons_of_mem _ htext⟩

/-- A composite value that is accepted ends with text: a path cannot hold the closing quote. -/
theorem odd_of_paths {segments : List String} (hne : segments ≠ [])
    (h : ∀ path ∈ segmentPaths true (quoteSegments segments), Path.check path = .ok ()) :
    segments.length % 2 = 1 := by
  cases segments with
  | nil => exact absurd rfl hne
  | cons first rest =>
    rcases Nat.mod_two_eq_zero_or_one (first :: rest).length with heven | hodd
    · obtain ⟨text, htext⟩ := quote_mem_segmentPaths
        (List.cons_ne_nil ("\"" ++ first) rest) heven
      have hquote := Path.isNameChar_of_check (h _ htext) (c := '"') (by simp) (by decide)
      exact absurd hquote (by decide)
    · exact hodd

/-- An insertion that is accepted writes its code. -/
theorem Yields.of_insertion {insertion : Insertion} (hc : g.scope.Consistent)
    (hy : Yields (part insertion.part) g () h) :
    Emits g (insertion.code g.contextName (liveNames g.scope.frames)) h ∧ insertion.Sound := by
  cases insertion with
  | raw text => exact ⟨emits_piece hc rfl hy, trivial⟩
  | body path =>
    exact ⟨emits_path_piece hc (written_call_one .renderBody _) hy, trivial⟩
  | comment path =>
    exact ⟨emits_path_piece hc (written_call_one .ifDefined _) hy, trivial⟩
  | composite segments =>
    have hpart : part (.composite segments) =
      if segments.isEmpty then throw .noSegments else composite true (quoteSegments segments) := rfl
    rw [Insertion.part, hpart] at hy
    split at hy
    · exact hy.of_throw.elim
    · rename_i hne
      obtain ⟨hemits, hpaths⟩ := hy.of_composite hc
      exact ⟨hemits, odd_of_paths (fun hnil => hne (by rw [hnil]; rfl)) hpaths⟩
  | optional key path =>
    exact ⟨emits_path_piece hc (written_optional key _) hy, trivial⟩
  | flag key path =>
    exact ⟨emits_path_piece hc (written_flag key _) hy, trivial⟩

/-! ## Blocks -/

/-- The start of a block, up to its first body. -/
def openTokens (contextName : String) (live : List String) : Head → List Token
  | .conditional path inverted emptiness =>
    blockOpen .ifCheck (testCode contextName live path inverted emptiness).written none
  | .loop path binding =>
    blockOpen .loop (pathCode contextName live path).written (some (Binding.variableOf binding))

theorem written_joined (items : List Expr) :
    (Expr.joined items).written = bodyOpen ++ Expr.writtenItems items ++ bodyClose := by
  simp [Expr.joined, Expr.written, Expr.writtenArguments, Expr.writtenFurther, bodyOpen, bodyClose]

/-- A block is written from its start to the end of its last body. -/
theorem written_head (contextName : String) (live : List String) (head : Head)
    (body others : List Expr) :
    (head.code contextName live body others).written =
      openTokens contextName live head ++ Expr.writtenItems body ++ bodyClose ++
        Expr.writtenFurther others ++ [.closeParen] := by
  cases head <;>
    simp [Head.code, openTokens, blockOpen, written_helperCall, helperCall, Expr.writtenArguments,
      Expr.writtenFurther, Expr.written, written_joined]

/-- Whether generating the start of a block has written it, and opened a frame for the block. -/
structure Opens (g : Generator) (head : Head) (h : Generator) : Prop where
  output : h.output.toList =
    g.output.toList ++ openTokens g.contextName (liveNames g.scope.frames) head
  contextName : h.contextName = g.contextName
  consistent : h.scope.Consistent
  frame : ∃ frame, h.scope.frames = frame :: g.scope.frames ∧ frame ≠ .plain true ∧
    liveNames (frame :: g.scope.frames) = head.within (liveNames g.scope.frames)
  sound : head.Sound

theorem written_test (contextName : String) (live : List String) (path : String)
    (inverted emptiness : Bool) :
    (testCode contextName live path inverted emptiness).written =
      (if inverted then [.word "not", .space] else []) ++
        (if emptiness then helperCall .isNonempty (pathCode contextName live path).written
          else (pathCode contextName live path).written) := by
  cases inverted <;> cases emptiness <;> simp [testCode, written_call_one, Expr.written]

theorem opens_conditional {path : String} {inverted emptiness : Bool} (hc : g.scope.Consistent)
    (hy : Yields (conditional path inverted emptiness) g () h) :
    Opens g (.conditional path inverted emptiness) h := by
  obtain ⟨code, k, href, hopen⟩ := hy.of_bind
  have hread := emits_reference hc href
  obtain ⟨-, rfl, -⟩ := href.of_reference hc
  -- Either way a frame without a binding is pushed, whatever was recorded before.
  have hnest : ∃ scope frame, Yields (emit (blockOpen .ifCheck
        (testCode g.contextName (liveNames g.scope.frames) path inverted emptiness).written none))
        { k with scope } () h ∧
      scope.Consistent ∧ scope.frames = frame :: k.scope.frames ∧ frame ≠ .plain true ∧
      frame.name? = none := by
    rw [written_test]
    cases emptiness with
    | false =>
      obtain ⟨_, l, hnest, hemit⟩ := hopen.of_bind
      obtain ⟨scope, hscope, rfl⟩ := hnest.of_onScope
      refine ⟨scope, .plain false, ?_, hread.consistent.nestPlain hscope, ?_, by decide, rfl⟩
      · cases inverted <;> exact hemit
      · rw [Scope.push_ok hscope]
    | true =>
      obtain ⟨_, l, hnest, hemit⟩ := hopen.of_bind
      obtain ⟨a, ha, rfl⟩ := hnest.of_nestIterable
      obtain ⟨frame, hframes, hne, hname⟩ := Scope.frames_nestIterable ha
      refine ⟨_, frame, ?_, hread.consistent.nestIterable path "", hframes, hne, hname⟩
      cases inverted <;> exact hemit
  obtain ⟨scope, frame, hemit, hscope, hframes, hne, hname⟩ := hnest
  obtain rfl := hemit.of_emit
  refine ⟨?_, hread.contextName, hscope, ⟨frame, ?_, hne, ?_⟩, trivial⟩
  · refine Array.toList_appendList.trans ?_
    rw [hread.output]
    exact congrArg (· ++ _) (List.append_nil _)
  · rw [hframes, hread.frames]
  · rw [liveNames, List.filterMap_cons, hname]
    rfl

theorem opens_loop {path binding : String} (hc : g.scope.Consistent)
    (hy : Yields (loop path binding) g () h) : Opens g (.loop path binding) h := by
  obtain ⟨code, k, href, hopen⟩ := hy.of_bind
  have hread := emits_reference hc href
  obtain ⟨-, rfl, -⟩ := href.of_reference hc
  obtain ⟨l, m, hget, hchecked⟩ := hopen.of_bind
  obtain ⟨rfl, rfl⟩ := hget.of_get
  split at hchecked
  · exact hchecked.of_throw.elim
  · rename_i name hname
    obtain ⟨rfl, hisName, -, hidentifier⟩ := Binding.check_ok hname
    obtain ⟨_, n, hnest, hemit⟩ := hchecked.of_bind
    obtain ⟨a, ha, rfl⟩ := hnest.of_nestIterable
    obtain ⟨frame, hframes, hne, hlive⟩ := Scope.frames_nestIterable ha
    -- A binding that is accepted is not empty, so its frame holds it.
    have hnonempty : ¬ binding.isEmpty = true := by
      intro he
      rw [String.isEmpty_iff.1 he] at hisName
      cases hisName
    rw [if_neg hnonempty] at hlive
    obtain rfl := hemit.of_emit
    refine ⟨?_, hread.contextName, hread.consistent.nestIterable path binding,
      ⟨frame, ?_, hne, ?_⟩, ⟨hisName, hidentifier⟩⟩
    · refine Array.toList_appendList.trans ?_
      rw [hread.output]
      exact congrArg (· ++ _) (List.append_nil _)
    · rw [hframes, hread.frames]
    · rw [liveNames, List.filterMap_cons, hlive]
      rfl

/-- A block that is opened writes its start. -/
theorem Yields.of_head {head : Head} (hc : g.scope.Consistent)
    (hy : Yields (part head.part) g () h) : Opens g head h := by
  cases head with
  | conditional path inverted emptiness => exact opens_conditional hc hy
  | loop path binding => exact opens_loop hc hy

theorem frames_release (s : Scope) (frame : Frame) : (s.release frame).frames = s.frames := by
  cases frame <;> rfl

/-- Going over to the other body ends the life of the block's binding. -/
theorem Yields.of_otherwise (hc : g.scope.Consistent) (hy : Yields (part .otherwise) g () h) :
    ∃ frame rest, g.scope.frames = frame :: rest ∧ frame ≠ .plain true ∧
      h.scope.frames = .plain true :: rest ∧ h.scope.Consistent ∧ h.contextName = g.contextName ∧
      h.output.toList =
        g.output.toList ++ (bodyClose ++ separator ++ functionOpen none ++ bodyOpen) := by
  obtain ⟨_, k, helse, hemit⟩ := hy.of_bind
  obtain ⟨scope, hscope, rfl⟩ := helse.of_onScope
  obtain rfl := hemit.of_emit
  obtain ⟨frame, rest, hframes, hne, hafter⟩ := Scope.enterElse_ok hscope
  exact ⟨frame, rest, hframes, hne, by rw [hafter], hc.enterElse hscope, rfl,
    Array.toList_appendList⟩

/-- Closing a block leaves the frames around it. -/
theorem Yields.of_close (hc : g.scope.Consistent) (hy : Yields (part .close) g () h) :
    ∃ frame rest, g.scope.frames = frame :: rest ∧ h.scope.frames = rest ∧ h.scope.Consistent ∧
      h.contextName = g.contextName ∧
      h.output.toList = g.output.toList ++ (bodyClose ++ [.closeParen] ++ separator) := by
  obtain ⟨_, k, hpop, hemit⟩ := hy.of_bind
  obtain ⟨scope, hscope, rfl⟩ := hpop.of_onScope
  obtain rfl := hemit.of_emit
  obtain ⟨frame, rest, hframes, hafter⟩ := Scope.pop_ok hscope
  exact ⟨frame, rest, hframes, by rw [hafter]; exact frames_release _ _, hc.pop hscope, rfl,
    Array.toList_appendList⟩

end Generate
end HtmlTemplate
