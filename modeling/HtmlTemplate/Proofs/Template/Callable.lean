import HtmlTemplate.Proofs.Lookup
import HtmlTemplate.Proofs.Template.Safety

/-!
# Callable — what a context that is called gets into rendered text

The name of a context may hide a helper, and a context that is a function is then called in the
helper's place.  Where the helper writes text, what the function gives stands in the text as it is,
and nothing has escaped it (`Compiled.not_safe_of_writes`).  Where the helper only reads, what the
function gives is inserted like any other value, so that the text is safe all the same
(`Template.ensures_code`).  So rendering is safe for exactly those names of the context that hide no
helper that writes (`Compiled.render_safe_iff`).
-/

namespace HtmlTemplate

open Text HtmlTemplate.Expr Meaning

/-- Whether what a helper gives stands in rendered text as it is. -/
def Helper.writes : Helper → Bool
  | .renderBody | .ifDefined | .ifCheck | .loop => true
  | .isNonempty | .lookup | .markSafe => false

/-! ## Values -/

namespace Value

/-- What can be read where the context is a function: nothing, texts and the function itself. -/
def Markless : Value → Prop
  | none | str _ | function _ => True
  | _ => False

namespace Markless

variable {v w : Value}

theorem elements (h : v.Markless) : ∀ element ∈ v.elements, element.Markless := by
  cases v with
  | none => exact fun _ he => absurd he List.not_mem_nil
  | function result => exact fun _ he => absurd he List.not_mem_nil
  | str s =>
    intro element he
    obtain ⟨c, -, rfl⟩ := List.mem_map.1 (show element ∈ s.toList.map _ from he)
    trivial
  | _ => exact h.elim

theorem item (h : v.Markless) (n : Nat) : ((v.item? n).getD Value.none).Markless := by
  cases hitem : v.item? n with
  | none => trivial
  | some item =>
    cases v with
    | none => cases hitem
    | function result => cases hitem
    | str s =>
      have hn : (str s).elements[n]? = some item := hitem
      exact elements (v := .str s) trivial item (List.mem_of_getElem? hn)
    | _ => exact h.elim

theorem publicAttribute (h : v.Markless) (segment : String) :
    (v.publicAttribute segment).Markless := by
  have hnone : v.attribute? segment = Option.none := by
    cases v with
    | none | function _ | str _ => rfl
    | _ => exact h.elim
  unfold Value.publicAttribute
  rw [hnone]
  split <;> trivial

theorem indexed {n : Nat} (h : v.Markless) (hindexed : v.indexed n = .ok w) : w.Markless := by
  obtain ⟨size, -, hindexed⟩ := Except.bind_eq_ok.1 hindexed
  split at hindexed
  · cases v with
    | none | function _ | str _ =>
      cases hindexed
      exact h.item n
    | _ => exact h.elim
  · cases hindexed
    trivial

theorem itemOrAttribute {segment : String} (h : v.Markless)
    (hpart : v.itemOrAttribute segment = .ok w) :
    w.Markless := by
  unfold Value.itemOrAttribute at hpart
  split at hpart
  · obtain ⟨n, -, hpart⟩ := Except.bind_eq_ok.1 hpart
    exact h.indexed hpart
  · cases hpart
    exact h.publicAttribute segment

theorem step {segment : String} (h : v.Markless) (hstep : v.step segment = .ok w) :
    w.Markless := by
  cases v with
  | none =>
    cases hstep
    trivial
  | function _ | str _ => exact h.itemOrAttribute hstep
  | _ => exact h.elim

theorem lookup {path : List String} (h : v.Markless) (hlookup : v.lookup path = .ok w) :
    w.Markless := by
  induction path generalizing v with
  | nil =>
    cases hlookup
    exact h
  | cons segment path ih =>
    obtain ⟨u, hstep, hrest⟩ := Except.bind_eq_ok.1 hlookup
    exact ih (h.step hstep) hrest

/-- No markup is among its leaves. -/
theorem markup_not_mem_leaves (h : v.Markless) (s : String) (p : Progress) :
    .ok (markup s) ∉ (v.leaves p).1 := by
  cases v with
  | none | function _ | str _ => exact not_markup_mem_singleton rfl
  | _ => exact h.elim

end Markless
end Value

/-! ## Texts of safe pieces -/

/-- Whether a text is that of safe pieces. -/
def SafeText (ps : List Part) (context : Value) (s : String) : Prop :=
  ∃ pieces, s = Piece.output pieces ∧ AllSafe ps context pieces

/-- Whether a value is a text of safe pieces. -/
def SafeValue (ps : List Part) (context : Value) (v : Value) : Prop :=
  ∃ s, v = .str s ∧ SafeText ps context s

/-- Whether meanings are texts that are safe when they are put together. -/
def SafeTexts (ps : List Part) (context : Value) (meanings : List Meaning) : Prop :=
  ∃ texts, meanings = texts.map said ∧ SafeText ps context (String.join texts)

section Texts

variable {ps : List Part} {context : Value}

theorem SafeText.empty : SafeText ps context "" :=
  ⟨[], rfl, fun _ hp => absurd hp List.not_mem_nil⟩

theorem SafeText.append {s t : String} (hs : SafeText ps context s) (ht : SafeText ps context t) :
    SafeText ps context (s ++ t) := by
  obtain ⟨first, rfl, hfirst⟩ := hs
  obtain ⟨rest, rfl, hrest⟩ := ht
  exact ⟨first ++ rest, (Piece.output_append first rest).symm,
    List.forall_mem_append.2 ⟨hfirst, hrest⟩⟩

theorem SafeText.join {texts : List String} (h : ∀ s ∈ texts, SafeText ps context s) :
    SafeText ps context (String.join texts) := by
  induction texts with
  | nil => exact .empty
  | cons s texts ih =>
    obtain ⟨hs, htexts⟩ := List.forall_mem_cons.1 h
    rw [String.join_cons]
    exact hs.append (ih htexts)

/-- The literals of an insertion are safe where the insertion is. -/
theorem SafeText.literal {source : Insertion} (hsource : source.part ∈ ps) {text : String}
    (h : text ∈ source.literals) : SafeText ps context text := by
  refine ⟨[.literal source text], (output_singleton (.literal source text)).symm, ?_⟩
  exact List.forall_mem_singleton.2 ⟨hsource, h⟩

/-- Pieces that an insertion gives are safe where the insertion is. -/
theorem SafeText.of_gives {source : Insertion} (hsource : source.part ∈ ps) {pieces : List Piece}
    (h : source.Gives ps context pieces) : SafeText ps context (Piece.output pieces) :=
  ⟨pieces, rfl, fun piece hp => ⟨(h piece hp).1 ▸ hsource, (h piece hp).2⟩⟩

theorem SafeTexts.nil : SafeTexts ps context [] := ⟨[], rfl, .empty⟩

theorem SafeTexts.single {s : String} (h : SafeText ps context s) :
    SafeTexts ps context [said s] := by
  refine ⟨[s], rfl, ?_⟩
  rwa [String.join_cons, String.join_nil, String.append_empty]

theorem SafeTexts.append {a b : List Meaning} (ha : SafeTexts ps context a)
    (hb : SafeTexts ps context b) : SafeTexts ps context (a ++ b) := by
  obtain ⟨first, rfl, hfirst⟩ := ha
  obtain ⟨rest, rfl, hrest⟩ := hb
  refine ⟨first ++ rest, List.map_append.symm, ?_⟩
  rw [String.join_append]
  exact hfirst.append hrest

end Texts

/-! ## Code -/

section Code

variable {name result : String} {bindings : Bindings} {ps : List Part}

/-- The meanings of code where the context is a function. -/
abbrev calledEnvironment (name result : String) (bindings : Bindings) : Env :=
  environment name (.function result) bindings

/-- The function is called for a helper that is hidden, whatever the arguments are. -/
theorem ensures_called {h : Helper} (he : normalName name = h.name) (arguments : List Expr) :
    Render.Ensures (· = .value (.str result))
      (eval (calledEnvironment name result bindings) (helperCall h arguments)) := by
  refine (ensures_hidden he arguments).mono ?_
  rintro m ⟨_, hresult, rfl⟩
  cases hresult
  rfl

/-- What a helper gives is told by what it gives for its arguments. -/
theorem ensures_call {h : Helper} (hne : normalName name ≠ h.name) {arguments : List Expr}
    {P : List Meaning → Prop} {Q : Value → Prop}
    (harguments : Render.Ensures P (evalAll (calledEnvironment name result bindings) arguments))
    (happly : ∀ meanings, P meanings → Render.Ensures Q (applyHelper h meanings)) :
    Render.Ensures (fun m => ∃ v, m = .value v ∧ Q v)
      (eval (calledEnvironment name result bindings) (helperCall h arguments)) := by
  have hreach : Reachable False name (.function result) h := Or.inl hne
  rw [(eval_helperCall hreach arguments).eq]
  refine harguments.bind fun meanings hm => (happly meanings hm).bind fun v hv => ?_
  exact .pure ⟨v, rfl, hv⟩

/-- The meanings of expressions are told one by one. -/
theorem ensures_evalAll_cons {env : Env} {e : Expr} {es : List Expr} {P : Meaning → Prop}
    {Q : List Meaning → Prop} (he : Render.Ensures P (eval env e))
    (hes : Render.Ensures Q (evalAll env es)) :
    Render.Ensures (fun meanings => ∃ m ms, meanings = m :: ms ∧ P m ∧ Q ms)
      (evalAll env (e :: es)) := by
  rw [evalAll]
  exact he.bind fun m hm => hes.bind fun ms hms => .pure ⟨m, ms, rfl, hm, hms⟩

theorem ensures_evalAll_append {env : Env} {es fs : List Expr}
    (hes : Render.Ensures (SafeTexts ps (.function result)) (evalAll env es))
    (hfs : Render.Ensures (SafeTexts ps (.function result)) (evalAll env fs)) :
    Render.Ensures (SafeTexts ps (.function result)) (evalAll env (es ++ fs)) := by
  rw [Renders.evalAll_append]
  exact hes.bind fun first hfirst => hfs.bind fun rest hrest => .pure (hfirst.append hrest)

theorem ensures_single {env : Env} {e : Expr}
    (h : Render.Ensures (fun m => ∃ v, m = .value v ∧ SafeValue ps (.function result) v)
      (eval env e)) :
    Render.Ensures (SafeTexts ps (.function result)) (evalAll env [e]) := by
  have hnil : Render.Ensures (· = []) (evalAll env []) := .pure rfl
  refine (ensures_evalAll_cons h hnil).mono ?_
  rintro meanings ⟨m, ms, rfl, ⟨v, rfl, s, rfl, hs⟩, rfl⟩
  exact .single hs

/-- Safe texts are safe when they are joined. -/
theorem ensures_joined {env : Env} {es : List Expr}
    (h : Render.Ensures (SafeTexts ps (.function result)) (evalAll env es)) :
    Render.Ensures (SafeValue ps (.function result))
      (do (← eval env (Expr.joined es)).asValue) := by
  have heval : eval env (Expr.joined es) = (do
      let v : Value := .tuple (← asValues (← evalAll env es))
      (Meaning.joining "").apply [.value v]) := by
    simp [Expr.joined, eval, evalAll, Meaning.member]
  rw [heval, bind_assoc]
  refine h.bind ?_
  rintro meanings ⟨texts, rfl, hsafe⟩
  simp only [Renders.asValues_said, pure_bind, Meaning.apply, Renders.joined_str]
  exact .pure ⟨_, rfl, hsafe⟩

/-! ## Paths -/

section Paths

variable (hn : Generator.checkContextName name = .ok ())
  (hb : ∀ binding ∈ bindings, binding.2.Markless)

include hb

theorem markless_of_lookup {head : String} {element : Value}
    (h : bindings.lookup head = some element) : element.Markless :=
  hb (head, element) (mem_of_lookup h)

theorem ensures_readPath_called (path : String) :
    Render.Ensures Value.Markless (readPath (.function result) bindings path) := by
  unfold readPath
  split
  · exact .pure trivial
  · rename_i head rest hsegments
    split
    · rename_i element hlookup
      exact (Render.Ensures.ofExcept _).mono fun v hv => (markless_of_lookup hb hlookup).lookup hv
    · refine (Render.Ensures.ofExcept _).mono fun v hv => ?_
      exact Value.Markless.lookup (v := .function result) trivial hv

include hn

/-- What a path reads holds no markup, also where the function is called for it. -/
theorem ensures_markless_pathCode (path : String) :
    Render.Ensures (fun m => ∃ v, m = .value v ∧ v.Markless)
      (eval (calledEnvironment name result bindings)
        (pathCode (normalName name) (bindings.map (·.1)) path)) := by
  by_cases he : normalName name = Helper.lookup.name
  · -- A name is read as it is, and anything longer is what the function gives.
    have haccess : ∀ {root : String} {v : Value} (rest : List String), v.Markless →
        (calledEnvironment name result bindings).lookup root = some v →
        Render.Ensures (fun m => ∃ v, m = .value v ∧ v.Markless)
          (eval (calledEnvironment name result bindings) (access root rest)) := by
      intro root v rest hv hroot
      unfold access
      split
      · rw [eval, ofName_of_lookup hroot]
        exact .pure ⟨v, rfl, hv⟩
      · exact (ensures_called he _).mono fun m hm => ⟨_, hm, trivial⟩
    have hcontext : (calledEnvironment name result bindings).lookup (normalName name) =
        some (.function result) := lookup_context hn
    unfold pathCode
    split
    · rw [eval, ofName_of_lookup hcontext]
      exact .pure ⟨_, rfl, trivial⟩
    · rename_i head rest hsegments
      split
      · rename_i hlive
        obtain ⟨element, hlookup⟩ := Option.isSome_iff_exists.1 (mem_map_fst.1 hlive)
        exact haccess rest (markless_of_lookup hb hlookup)
          ((lookup_variableOf hn head).trans hlookup)
      · exact haccess (head :: rest) (v := .function result) trivial hcontext
  · have hreach : Reachable False name (.function result) .lookup := Or.inl he
    rw [(eval_pathCode hn hreach bindings path).eq, map_eq_pure_bind]
    exact (ensures_readPath_called hb path).bind fun v hv => .pure ⟨v, rfl, hv⟩

/-- What a conditional tests is some value. -/
theorem ensures_value_testCode (path : String) (inverted emptiness : Bool) :
    Render.Ensures (fun m => ∃ v, m = .value v)
      (eval (calledEnvironment name result bindings)
        (testCode (normalName name) (bindings.map (·.1)) path inverted emptiness)) := by
  have hpath : Render.Ensures (fun m => ∃ v, m = .value v ∧ v.Markless)
      (eval (calledEnvironment name result bindings) _) := ensures_markless_pathCode hn hb path
  have hvalue : Render.Ensures (fun m => ∃ v, m = .value v)
      (eval (calledEnvironment name result bindings)
        (testCode (normalName name) (bindings.map (·.1)) path false emptiness)) := by
    cases emptiness with
    | false => exact hpath.mono fun m ⟨v, hm, _⟩ => ⟨v, hm⟩
    | true =>
      by_cases he : normalName name = Helper.isNonempty.name
      · exact (ensures_called he _).mono fun m hm => ⟨_, hm⟩
      · have harguments := Render.Ensures.any (evalAll (calledEnvironment name result bindings)
          [pathCode (normalName name) (bindings.map (·.1)) path])
        exact (ensures_call he harguments fun ms _ => .any _).mono fun m ⟨v, hm, _⟩ => ⟨v, hm⟩
  cases inverted with
  | false => exact hvalue
  | true =>
    have heval : eval (calledEnvironment name result bindings)
        (testCode (normalName name) (bindings.map (·.1)) path true emptiness) = (do
          let v ← (← eval (calledEnvironment name result bindings)
            (testCode (normalName name) (bindings.map (·.1)) path false emptiness)).asValue
          return .value (.bool !(← Render.ofExcept v.truth))) := by
      simp [testCode, eval]
    rw [heval]
    refine (Render.Ensures.any _).bind fun m _ => (Render.Ensures.any _).bind fun v _ => ?_
    exact (Render.Ensures.any _).bind fun truth _ => .pure ⟨_, rfl⟩

end Paths

/-! ## Insertions -/

section Insertions

variable (hn : Generator.checkContextName name = .ok ())
  (hwriters : ∀ helper : Helper, helper.writes = true → normalName name ≠ helper.name)
  (hb : ∀ binding ∈ bindings, binding.2.Markless)

include hn hwriters hb

/-- A helper that writes is called with what a path reads, and with functions. -/
theorem ensures_writer {helper : Helper} (hhelper : helper.writes = true) {path : String}
    {others : List Expr} {meanings : List Meaning}
    (hothers : evalAll (calledEnvironment name result bindings) others = return meanings)
    (happly : ∀ v : Value, v.Markless → Render.Ensures (SafeValue ps (.function result))
      (applyHelper helper (.value v :: meanings))) :
    Render.Ensures (SafeTexts ps (.function result))
      (evalAll (calledEnvironment name result bindings)
        [helperCall helper (pathCode (normalName name) (bindings.map (·.1)) path :: others)]) := by
  have hmeanings : Render.Ensures (· = meanings)
      (evalAll (calledEnvironment name result bindings) others) := hothers ▸ .pure rfl
  have harguments := ensures_evalAll_cons (ensures_markless_pathCode hn hb path) hmeanings
  refine ensures_single (ensures_call (hwriters helper hhelper) harguments ?_)
  rintro _ ⟨m, ms, rfl, ⟨v, rfl, hv⟩, rfl⟩
  exact happly v hv

/-- What is there is written with its text escaped. -/
theorem ensures_inserted {source : Insertion} (hsource : source.part ∈ ps) (path : String) :
    Render.Ensures (SafeTexts ps (.function result))
      (evalAll (calledEnvironment name result bindings)
        [helperCall .ifDefined [pathCode (normalName name) (bindings.map (·.1)) path]]) := by
  have hnil : evalAll (calledEnvironment name result bindings) [] = return [] := rfl
  refine ensures_writer hn hwriters hb rfl hnil fun v _ => ?_
  simp only [applyHelper, defined_eq source, map_eq_pure_bind, bind_assoc, pure_bind]
  have hpieces : Render.Ensures (source.Gives ps (.function result)) (escapedPieces source v) :=
    ensures_escapedPieces source v
  exact hpieces.bind fun pieces hp => .pure ⟨_, rfl, .of_gives hsource hp⟩

omit hn hwriters hb in
/-- The texts among segments with quotes are those among the segments, with quotes. -/
theorem safe_closeQuote : ∀ {segments : List String}, segments.length % 2 = 1 →
    SafeText ps (.function result) "\"" →
    (∀ text ∈ segmentTexts true segments, SafeText ps (.function result) text) →
    ∀ text ∈ segmentTexts true (closeQuote segments), SafeText ps (.function result) text
  | [], h, _, _ => by cases h
  | [text], _, hquote, htexts => by
    rw [closeQuote_singleton]
    exact List.forall_mem_singleton.2 ((htexts text List.mem_cons_self).append hquote)
  | [_, _], h, _, _ => absurd h (by simp)
  | text :: path :: next :: rest, h, hquote, htexts => by
    have hodd : (next :: rest).length % 2 = 1 := by
      simp only [List.length_cons] at h ⊢
      omega
    obtain ⟨htext, hrest⟩ := List.forall_mem_cons.1 htexts
    rw [closeQuote_cons_cons, closeQuote_cons_cons]
    exact List.forall_mem_cons.2 ⟨htext, safe_closeQuote hodd hquote hrest⟩

theorem ensures_segments {source : Insertion} (hsource : source.part ∈ ps)
    {segments : List String} : ∀ {literal : Bool},
    (∀ text ∈ segmentTexts literal segments, SafeText ps (.function result) text) →
    Render.Ensures (SafeTexts ps (.function result))
      (evalAll (calledEnvironment name result bindings)
        (segmentCode (normalName name) (bindings.map (·.1)) literal segments)) := by
  induction segments with
  | nil =>
    intro literal _
    cases literal <;> exact .pure .nil
  | cons segment rest ih =>
    intro literal htexts
    cases literal with
    | true =>
      obtain ⟨htext, hrest⟩ := List.forall_mem_cons.1 htexts
      rw [segmentCode_text]
      refine ensures_evalAll_append ?_ (ih hrest)
      split
      · exact .pure .nil
      · rw [evalAll, eval, pure_bind]
        exact .pure (.single htext)
    | false =>
      exact ensures_evalAll_append (ensures_inserted hn hwriters hb hsource segment) (ih htexts)

theorem ensures_bodyCode {path : String} (hsource : (Insertion.body path).part ∈ ps) :
    Render.Ensures (SafeTexts ps (.function result))
      (evalAll (calledEnvironment name result bindings)
        ((Insertion.body path).code (normalName name) (bindings.map (·.1)))) := by
  have hnil : evalAll (calledEnvironment name result bindings) [] = return [] := rfl
  refine ensures_writer hn hwriters hb rfl hnil fun v hv => ?_
  simp only [applyHelper, body_eq (.body path), map_eq_pure_bind, bind_assoc, pure_bind]
  -- No leaf is markup, so that all of them are escaped.
  have hleaves : Render.Ensures (fun leaves => ∀ s, .ok (.markup s) ∉ leaves) (leavesOf v) := by
    intro p leaves q hrun s
    have hl : v.leaves p = (leaves, q) := Except.ok.inj hrun
    have hnone := hv.markup_not_mem_leaves s p
    rwa [hl] at hnone
  refine hleaves.bind fun leaves hl => (Render.Ensures.ofExcept _).bind fun pieces hp => ?_
  have hgives : (Insertion.body path).Gives ps (.function result) pieces :=
    gives_leafPieces (fun s hs => absurd hs (hl s)) hp
  exact .pure ⟨_, rfl, .of_gives hsource hgives⟩

theorem ensures_compositeCode {segments : List String}
    (hsource : (Insertion.composite segments).part ∈ ps)
    (hsound : (Insertion.composite segments).Sound) :
    Render.Ensures (SafeTexts ps (.function result))
      (evalAll (calledEnvironment name result bindings)
        ((Insertion.composite segments).code (normalName name) (bindings.map (·.1)))) := by
  have hquote : SafeText ps (.function result) "\"" := .literal hsource List.mem_cons_self
  have htexts : ∀ text ∈ segmentTexts true segments, SafeText ps (.function result) text :=
    fun text ht => .literal hsource (List.mem_cons_of_mem _ ht)
  cases segments with
  | nil => cases hsound
  | cons first rest =>
    obtain ⟨hfirst, hrest⟩ := List.forall_mem_cons.1 htexts
    rw [Insertion.code, quoteSegments_cons]
    refine ensures_segments hn hwriters hb hsource (safe_closeQuote hsound hquote ?_)
    exact List.forall_mem_cons.2 ⟨hquote.append hfirst, hrest⟩

theorem ensures_optionalCode {key path : String}
    (hsource : (Insertion.optional key path).part ∈ ps) :
    Render.Ensures (SafeTexts ps (.function result))
      (evalAll (calledEnvironment name result bindings)
        ((Insertion.optional key path).code (normalName name) (bindings.map (·.1)))) := by
  refine ensures_writer hn hwriters hb rfl (evalAll_attributeCode _ key) fun v _ => ?_
  simp only [applyHelper, asText_str, pure_bind, defined_frame_eq (.optional key path),
    map_eq_pure_bind, bind_assoc]
  have hpieces : Render.Ensures ((Insertion.optional key path).Gives ps (.function result))
      (escapedPieces (.optional key path) v) := ensures_escapedPieces _ v
  refine hpieces.bind fun pieces hp => ?_
  -- Without a value nothing is written; otherwise the key and the quotes stand around it.
  cases pieces with
  | nil => exact .pure ⟨_, rfl, .empty⟩
  | cons piece pieces =>
    have hframed := (Insertion.Gives.literal List.mem_cons_self).append hp |>.append
      (.literal (List.mem_cons_of_mem _ List.mem_cons_self))
    exact .pure ⟨_, rfl, .of_gives hsource hframed⟩

theorem ensures_flagCode {key path : String} (hsource : (Insertion.flag key path).part ∈ ps) :
    Render.Ensures (SafeTexts ps (.function result))
      (evalAll (calledEnvironment name result bindings)
        ((Insertion.flag key path).code (normalName name) (bindings.map (·.1)))) := by
  have hyes : evalAll (calledEnvironment name result bindings)
      [.function none (.literal (" " ++ key))] = return [.thunk (return .str (" " ++ key))] := by
    simp [evalAll, eval, asValue]
  refine ensures_writer hn hwriters hb rfl hyes fun v _ => ?_
  simp only [applyHelper, Render.choose]
  refine (Render.Ensures.any _).bind fun truth _ => ?_
  cases truth with
  | false => exact .pure ⟨_, rfl, .empty⟩
  | true =>
    have hkey : SafeText ps (.function result) (" " ++ key) := .literal hsource List.mem_cons_self
    simp only [if_true, pure_bind, orEmpty_str]
    exact .pure ⟨_, rfl, hkey⟩

/-- The code of an insertion comes to safe texts. -/
theorem ensures_insertionCode {insertion : Insertion} (hsource : insertion.part ∈ ps)
    (hsound : insertion.Sound) :
    Render.Ensures (SafeTexts ps (.function result))
      (evalAll (calledEnvironment name result bindings)
        (insertion.code (normalName name) (bindings.map (·.1)))) := by
  cases insertion with
  | raw text =>
    have htext : SafeText ps (.function result) text := .literal hsource List.mem_cons_self
    rw [Insertion.code, evalAll, eval, pure_bind]
    exact .pure (.single htext)
  | body path => exact ensures_bodyCode hn hwriters hb hsource
  | comment path => exact ensures_inserted hn hwriters hb hsource path
  | composite segments => exact ensures_compositeCode hn hwriters hb hsource hsound
  | optional key path => exact ensures_optionalCode hn hwriters hb hsource
  | flag key path => exact ensures_flagCode hn hwriters hb hsource

end Insertions

/-! ## Blocks -/

section Blocks

/-- A text is there whether or not it is empty. -/
theorem ensures_orEmpty {x : Render Value}
    (hx : Render.Ensures (SafeValue ps (.function result)) x) :
    Render.Ensures (SafeValue ps (.function result)) (x >>= Render.orEmpty) := by
  refine hx.bind ?_
  rintro v ⟨s, rfl, hs⟩
  rw [orEmpty_str]
  exact .pure ⟨s, rfl, hs⟩

/-- Whether a call's last argument, if there is one, is a function that comes to a safe text. -/
def SafeOtherwise (ps : List Part) (context : Value) (others : List Meaning) : Prop :=
  others = [] ∨ ∃ no, others = [.thunk no] ∧ Render.Ensures (SafeValue ps context) no

variable {others : List Meaning} (hothers : SafeOtherwise ps (.function result) others)

include hothers

/-- A choice comes to a safe text if both bodies do. -/
theorem ensures_ifCheck {yes : Render Value}
    (hyes : Render.Ensures (SafeValue ps (.function result)) yes) (v : Value) :
    Render.Ensures (SafeValue ps (.function result))
      (applyHelper .ifCheck (.value v :: .thunk yes :: others)) := by
  rcases hothers with rfl | ⟨no, rfl, hno⟩
  · refine (Render.Ensures.any _).bind fun truth _ => ?_
    cases truth with
    | false => exact .pure ⟨_, rfl, .empty⟩
    | true => exact ensures_orEmpty hyes
  · refine (Render.Ensures.any _).bind fun truth _ => ?_
    cases truth with
    | false => exact ensures_orEmpty hno
    | true => exact ensures_orEmpty hyes

/-- A loop comes to a safe text if its bodies do, the first one for every element. -/
theorem ensures_loop {each : Value → Render Value} {v : Value}
    (heach : ∀ element ∈ v.elements,
      Render.Ensures (SafeValue ps (.function result)) (each element)) :
    Render.Ensures (SafeValue ps (.function result))
      (applyHelper .loop (.value v :: .function each :: others)) := by
  have hjoined : ∀ results : List Value, (∀ w ∈ results, SafeValue ps (.function result) w) →
      Render.Ensures (SafeValue ps (.function result)) (Render.joined "" results) := by
    intro results hresults
    obtain ⟨texts, rfl, htexts⟩ : ∃ texts : List String, results = texts.map .str ∧
        ∀ s ∈ texts, SafeText ps (.function result) s := by
      induction results with
      | nil => exact ⟨[], rfl, fun _ hs => absurd hs List.not_mem_nil⟩
      | cons w results ih =>
        obtain ⟨⟨s, rfl, hs⟩, hrest⟩ := List.forall_mem_cons.1 hresults
        obtain ⟨texts, rfl, htexts⟩ := ih hrest
        exact ⟨s :: texts, rfl, List.forall_mem_cons.2 ⟨hs, htexts⟩⟩
    rw [Renders.joined_str]
    exact .pure ⟨_, rfl, .join htexts⟩
  rcases hothers with rfl | ⟨no, rfl, hno⟩
  · simp only [applyHelper, loop_eq]
    refine (Render.Ensures.eachOf heach).bind fun results hresults => ?_
    split
    · exact .pure ⟨_, rfl, .empty⟩
    · exact hjoined results hresults
  · simp only [applyHelper, loop_eq]
    refine (Render.Ensures.eachOf heach).bind fun results hresults => ?_
    split
    · exact hno
    · exact hjoined results hresults

end Blocks

section Template

variable (hn : Generator.checkContextName name = .ok ())
  (hwriters : ∀ helper : Helper, helper.writes = true → normalName name ≠ helper.name)

include hn hwriters

/-- The code of a block comes to a safe text if the code of its bodies does. -/
theorem ensures_headCode (hb : ∀ binding ∈ bindings, binding.2.Markless) (head : Head)
    {body others : List Expr} {meanings : List Meaning}
    (hbody : ∀ inner : Bindings, (∀ binding ∈ inner, binding.2.Markless) →
      inner.map (·.1) = head.within (bindings.map (·.1)) →
      Render.Ensures (SafeTexts ps (.function result))
        (evalAll (calledEnvironment name result inner) body))
    (hmeanings : evalAll (calledEnvironment name result bindings) others = return meanings)
    (hothers : SafeOtherwise ps (.function result) meanings) :
    Render.Ensures (SafeTexts ps (.function result))
      (evalAll (calledEnvironment name result bindings)
        [head.code (normalName name) (bindings.map (·.1)) body others]) := by
  cases head with
  | conditional path inverted emptiness =>
    have hfunction : evalAll (calledEnvironment name result bindings)
        (.function none (Expr.joined body) :: others) = return .thunk (do
          (← eval (calledEnvironment name result bindings) (Expr.joined body)).asValue) ::
            meanings := by
      rw [evalAll, hmeanings]
      simp [eval]
    have hmeanings : Render.Ensures _ (evalAll (calledEnvironment name result bindings)
        (.function none (Expr.joined body) :: others)) := hfunction ▸ Render.Ensures.pure rfl
    have harguments := ensures_evalAll_cons
      (ensures_value_testCode hn hb path inverted emptiness) hmeanings
    refine ensures_single (ensures_call (hwriters .ifCheck rfl) harguments ?_)
    rintro _ ⟨m, ms, rfl, ⟨v, rfl⟩, rfl⟩
    exact ensures_ifCheck hothers (ensures_joined (hbody bindings hb rfl)) v
  | loop path binding =>
    have hfunction : evalAll (calledEnvironment name result bindings)
        (.function (some (Binding.variableOf binding)) (Expr.joined body) :: others) =
          return .function (fun v => do
            (← eval (calledEnvironment name result ((binding, v) :: bindings))
              (Expr.joined body)).asValue) :: meanings := by
      rw [evalAll, hmeanings]
      simp [eval]
      rfl
    refine ensures_writer hn hwriters hb rfl hfunction fun v hv => ensures_loop hothers ?_
    intro element he
    have hinner : ∀ b ∈ (binding, element) :: bindings, b.2.Markless :=
      List.forall_mem_cons.2 ⟨hv.elements element he, hb⟩
    exact ensures_joined (hbody _ hinner rfl)

/-- The code of a template comes to safe texts where the context is a function, unless the context's
name hides a helper that writes. -/
theorem Template.ensures_code {t : Template} : (∀ p ∈ t.parts, p ∈ ps) → t.Sound →
    ∀ {bindings : Bindings}, (∀ binding ∈ bindings, binding.2.Markless) →
      Render.Ensures (SafeTexts ps (.function result))
        (evalAll (calledEnvironment name result bindings)
          (t.code (normalName name) (bindings.map (·.1)))) := by
  induction t with
  | done =>
    intro _ _ bindings _
    exact .pure .nil
  | insert insertion rest ih =>
    intro hps hsound bindings hb
    simp only [Template.parts, List.forall_mem_cons] at hps
    exact ensures_evalAll_append (ensures_insertionCode hn hwriters hb hps.1 hsound.1)
      (ih hps.2 hsound.2 hb)
  | block head body rest ihbody ihrest =>
    intro hps hsound bindings hb
    simp only [Template.parts, List.forall_mem_cons, List.forall_mem_append,
      List.cons_append] at hps
    obtain ⟨-, hbody, -, hrest⟩ := hps
    have hnil : evalAll (calledEnvironment name result bindings) [] = pure [] := rfl
    have hfirst := ensures_headCode hn hwriters hb head
      (fun inner hinner hi => hi ▸ ihbody hbody hsound.2.1 hinner) hnil (.inl rfl)
    exact ensures_evalAll_append hfirst (ihrest hrest hsound.2.2 hb)
  | choice head body other rest ihbody ihother ihrest =>
    intro hps hsound bindings hb
    simp only [Template.parts, List.forall_mem_cons, List.forall_mem_append,
      List.cons_append, and_assoc] at hps
    obtain ⟨-, hbody, -, hother, -, hrest⟩ := hps
    have hthunk : evalAll (calledEnvironment name result bindings)
        [.function none (Expr.joined (other.code (normalName name) (bindings.map (·.1))))] =
        pure [Meaning.thunk (do
          (← eval (calledEnvironment name result bindings)
            (Expr.joined (other.code (normalName name) (bindings.map (·.1))))).asValue)] := by
      simp [evalAll, eval]
    have hno := ensures_joined (ihother hother hsound.2.2.1 hb)
    have hfirst := ensures_headCode hn hwriters hb head
      (fun inner hinner hi => hi ▸ ihbody hbody hsound.2.1 hinner) hthunk (.inr ⟨_, rfl, hno⟩)
    exact ensures_evalAll_append hfirst (ihrest hrest hsound.2.2.2 hb)

end Template
end Code

/-! ## Helpers that write -/

section Unsafe

variable {ps : List Part} {result : String}

/-- Where the context is a function, loops bind no markup. -/
theorem Bound.markless {bindings : Bindings} (h : Bound ps (.function result) bindings) :
    ∀ binding ∈ bindings, binding.2.Markless := by
  induction h with
  | nil => exact fun _ hb => absurd hb List.not_mem_nil
  | cons _ _ hread hmem ih =>
    have hv := ensures_readPath_called ih _ _ _ _ hread
    exact List.forall_mem_cons.2 ⟨hv.elements _ hmem, ih⟩

/-- What can be read there holds no markup. -/
theorem Value.Markless.not_holds {v : Value} (hv : v.Markless) (s : String) : ¬ v.Holds s := by
  intro h
  induction h with
  | here s => exact hv
  | inside hmem _ ih => exact ih (hv.elements _ hmem)

/-- So safe pieces hold an angle bracket only if a literal of the parts does. -/
theorem lt_not_mem_output
    (hliterals : ∀ source : Insertion, source.part ∈ ps → ∀ text ∈ source.literals,
      '<' ∉ text.toList)
    {pieces : List Piece} (h : AllSafe ps (.function result) pieces) :
    '<' ∉ (Piece.output pieces).toList := by
  induction pieces with
  | nil => exact List.not_mem_nil
  | cons piece pieces ih =>
    obtain ⟨⟨hsource, hsafe⟩, hrest⟩ := List.forall_mem_cons.1 h
    have hpiece : '<' ∉ piece.text.toList := by
      cases piece with
      | literal source text => exact hliterals source hsource text hsafe
      | escaped source text => exact fun hmem => hsafe.plain _ hmem (by decide)
      | verbatim source markup =>
        obtain ⟨path, bindings, v, rfl, hbound, hread, hholds⟩ := hsafe
        have hv := ensures_readPath_called hbound.markless _ _ _ _ hread
        exact absurd hholds (hv.not_holds markup)
    rw [Piece.output_cons, String.toList_append, List.mem_append, not_or]
    exact ⟨hpiece, ih hrest⟩

end Unsafe

/-- The literals of the small templates hold no angle bracket. -/
theorem Helper.literals_probe (helper : Helper) (source : Insertion)
    (hsource : source.part ∈ helper.probe.parts) : ∀ text ∈ source.literals, '<' ∉ text.toList := by
  cases helper <;> cases source <;>
    simp [probe, Template.parts, Insertion.part, Head.part] at hsource <;>
    simp [Insertion.literals, hsource]

theorem Helper.run_probe_called {helper : Helper} (hwrites : helper.writes = true) {name : String}
    (he : normalName name = helper.name) (result : String) :
    ((Expr.joined (helper.probe.code helper.name [])).bindable >>= fun e =>
      e.render name (.function result)) = .ok (.str result) := by
  have hjoined : "".intercalate [String.ofList result.toList] = result := by
    rw [String.ofList_toList, Renders.intercalate_empty, String.join_cons, String.join_nil,
      String.append_empty]
  have hrun : ((Expr.joined (helper.probe.code helper.name [])).bindable >>= fun e =>
      e.render name (.function result)) =
        .ok (.str ("".intercalate [String.ofList result.toList])) := by
    unfold Expr.render Expr.run
    rw [he]
    cases helper with
    | renderBody | ifDefined | ifCheck | loop => rfl
    | _ => cases hwrites
  rw [hrun, hjoined]

namespace Compiled

/-- What the function gives for a helper that writes is all that is rendered. -/
theorem render_probe_called {helper : Helper} (hwrites : helper.writes = true) {name : String}
    (hn : Generator.checkContextName name = .ok ()) (he : normalName name = helper.name)
    (result : String) :
    ∃ c, ofParts name helper.probe.parts = .ok c ∧
      c.render (.function result) = .ok (.str result) := by
  obtain ⟨k, hfold⟩ := helper.accepts_probe he
  obtain ⟨_, -, -, htext⟩ := Generate.fold_ok hfold
  have hc := ofParts_of_fold hn hfold htext
  obtain ⟨t, ht, -, -, hrender⟩ := exists_code hc
  obtain rfl : helper.probe = t := Template.eq_of_ofParts? ht
  refine ⟨_, hc, (hrender _).trans ?_⟩
  rw [he, helper.run_probe_called hwrites he]

/-- Such a text is not that of safe pieces if it holds an angle bracket. -/
theorem not_safe_of_writes {helper : Helper} (hwrites : helper.writes = true) {name : String}
    (hn : Generator.checkContextName name = .ok ()) (he : normalName name = helper.name)
    {result : String} (hresult : '<' ∈ result.toList) :
    ∃ c, ofParts name helper.probe.parts = .ok c ∧
      c.render (.function result) = .ok (.str result) ∧
      ∀ pieces, AllSafe helper.probe.parts (.function result) pieces →
        result ≠ Piece.output pieces := by
  obtain ⟨c, hc, hrender⟩ := render_probe_called hwrites hn he result
  refine ⟨c, hc, hrender, fun pieces hsafe houtput => ?_⟩
  exact lt_not_mem_output helper.literals_probe hsafe (houtput ▸ hresult)

/-- What a function is rendered to is made of safe pieces, whatever its name hides that writes
nothing. -/
theorem safe_of_function {name result : String} {ps : List Part} {c : Compiled} {v : Value}
    (hwriters : ∀ helper : Helper, helper.writes = true → normalName name ≠ helper.name)
    (hc : ofParts name ps = .ok c) (hv : c.render (.function result) = .ok v) :
    SafeValue ps (.function result) v := by
  obtain ⟨t, ht, hsound, hn, hrender⟩ := exists_code hc
  obtain rfl := Template.ofParts?_eq_some_iff.1 ht
  rw [hrender] at hv
  obtain ⟨p, hrun⟩ := Expr.run_of_render hv
  have hnone : ∀ binding ∈ ([] : Bindings), binding.2.Markless :=
    fun _ hb => absurd hb List.not_mem_nil
  have htexts : Render.Ensures (SafeTexts t.parts (.function result))
      (evalAll (calledEnvironment name result []) (t.code (normalName name) [])) :=
    Template.ensures_code hn hwriters (fun _ hp => hp) hsound hnone
  exact ensures_joined htexts [] v p hrun

/-- Whatever a context is rendered to is made of safe pieces of the parts: literals of the template,
escaped texts, and markup that a body insertion's path reads.  This holds of exactly those names for
the context that hide no helper that writes.  Where the name hides no helper at all, or the context
is no function, the pieces are those that the template comes to, in order. -/
theorem render_safe_iff {name : String} (hn : Generator.checkContextName name = .ok ()) :
    ((∀ ps c context v, ofParts name ps = .ok c → c.render context = .ok v →
        ∃ pieces, v = .str (Piece.output pieces) ∧
          ∀ piece ∈ pieces, piece.source.part ∈ ps ∧ piece.Safe ps context) ↔
      ∀ helper : Helper, helper.writes = true → normalName name ≠ helper.name) ∧
    ∀ ps c context v, ofParts name ps = .ok c → c.render context = .ok v →
      (context.isFunction = false ∨
        ∀ helper : Helper, helper ≠ .markSafe → normalName name ≠ helper.name) →
      ∃ t pieces, Template.ofParts? ps = some t ∧ t.pieces context = .ok pieces ∧
        v = .str (Piece.output pieces) ∧
        ∀ piece ∈ pieces, piece.source.part ∈ ps ∧ piece.Safe ps context := by
  refine ⟨⟨?hidden, ?safe⟩, fun ps c context v hc hv hname => render_safe hc hname hv⟩
  case hidden =>
    intro hsafe helper hwrites he
    have hbracket : '<' ∈ "<".toList := List.mem_singleton_self '<'
    obtain ⟨c, hc, hrender, hnot⟩ := not_safe_of_writes hwrites hn he hbracket
    obtain ⟨pieces, houtput, hpieces⟩ := hsafe _ c _ _ hc hrender
    exact hnot pieces hpieces (Value.str.inj houtput)
  case safe =>
    intro hwriters ps c context v hc hv
    cases hf : context.isFunction with
    | false =>
      obtain ⟨t, pieces, -, -, houtput, hsafe⟩ := render_safe hc (.inl hf) hv
      exact ⟨pieces, houtput, hsafe⟩
    | true =>
      cases context with
      | function result =>
        obtain ⟨_, rfl, pieces, rfl, hsafe⟩ := safe_of_function hwriters hc hv
        exact ⟨pieces, rfl, hsafe⟩
      | _ => cases hf

/-- Markup is escaped in an attribute, and stays as it is in body text. -/
theorem render_safe_markup :
    ∃ c pieces, ofParts "context" [.optional "k" "m", .body "m"] = .ok c ∧
      c.render (.dict [(.str "m", .markup "<i>")]) = .ok (.str " k=\"&lt;i&gt;\"<i>") ∧
      " k=\"&lt;i&gt;\"<i>" = Piece.output pieces ∧
      ∀ piece ∈ pieces, piece.Safe [.optional "k" "m", .body "m"]
        (.dict [(.str "m", .markup "<i>")]) := by
  have hc : ofParts "context" [.optional "k" "m", .body "m"] = .ok _ := rfl
  obtain ⟨t, ht, -, hn, hrender⟩ := exists_code hc
  obtain rfl : .insert (.optional "k" "m") (.insert (.body "m") .done) = t :=
    Template.eq_of_ofParts? ht
  have hcode := hrender (.dict [(.str "m", .markup "<i>")])
  rw [normalName_ascii (by decide)] at hcode
  have hv := hcode.trans (c := .ok (.str " k=\"&lt;i&gt;\"<i>")) rfl
  obtain ⟨-, pieces, -, -, houtput, hsafe⟩ := (render_safe_iff hn).2 _ _ _ _ hc hv (Or.inl rfl)
  exact ⟨_, pieces, hc, hv, Value.str.inj houtput, fun piece hp => (hsafe piece hp).2⟩

/-- Parts that insert nothing come to nothing, but with a function whose name is read as that of
the helper for loops they come to what the function gives. -/
theorem not_safe_wide_loop : ∃ c, ofParts "ｌｏｏｐ" [.loop "a" "b", .close] = .ok c ∧
    ∀ result ≠ "", c.render (.function result) = .ok (.str result) ∧
      ∀ pieces, (∀ piece ∈ pieces, piece.source.part ∈ [Part.loop "a" "b", .close] ∧
        piece.Safe [.loop "a" "b", .close] (.function result)) → result ≠ Piece.output pieces := by
  have hspelled : "ｌｏｏｐ" = widen Helper.loop.name := by decide
  rw [hspelled]
  obtain ⟨hcheck, hname⟩ := Generator.checkContextName_widen .loop
  have hwrites : Helper.loop.writes = true := rfl
  obtain ⟨c, hc, -⟩ := render_probe_called hwrites hcheck hname ""
  refine ⟨c, hc, fun result hne => ⟨?_, fun pieces hpieces => ?_⟩⟩
  · obtain ⟨d, hd, hrender⟩ := render_probe_called hwrites hcheck hname result
    obtain rfl : c = d := Except.ok.inj (hc.symm.trans hd)
    exact hrender
  -- Neither of the parts is an insertion, so that there are no pieces.
  · cases pieces with
    | nil => exact hne
    | cons piece pieces =>
      have hsource := (hpieces piece List.mem_cons_self).1
      cases hs : piece.source <;> rw [hs] at hsource <;> simp [Insertion.part] at hsource

end Compiled
end HtmlTemplate
