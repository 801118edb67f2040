import HtmlTemplate.Proofs.Scan.Cutting
import HtmlTemplate.Proofs.Scan.Regular
import HtmlTemplate.Proofs.Template.Correctness
import HtmlTemplate.Proofs.Template.Midway

/-!
# PlainAttribute — the one rule of attributes without a mark

An attribute whose value holds no marker is written as it stands, one whose value is a single marker
is a part of its own, and any other value is a composite (`Attribute.Route`).  Whichever it is, the
parts come to the same format, wherever they are folded (`Attribute.Ruled`): the key, and the
literals of the value with the texts of its paths between them in quotes, unless the value is a
single marker of something that is missing.  This takes a context whose name hides neither of the
helpers that the code of attributes calls (`Attribute.plain_rule_iff`).
-/

namespace HtmlTemplate

open Text

namespace Attribute

open Pieces

/-! ## The rule -/

section Rule

variable (context : Value) (bindings : Bindings)

/-- The escaped text of a value, and nothing for what is missing. -/
def insertedText (v : Value) : Render String :=
  match v with
  | .none => return ""
  | v => return Value.escape (← Render.ofExcept v.text)

/-- The segments at the even places as they are, and between them the texts of what the paths at the
odd places read. -/
def segmentText : List String → Render String
  | [] => return ""
  | [text] => return text
  | text :: path :: rest => do
    let value ← insertedText (← readPath context bindings path)
    return text ++ value ++ (← segmentText rest)

/-- The text of an attribute that is written. -/
def writtenText (key : String) (segments : List String) : Render String := do
  return " " ++ key ++ "=\"" ++ (← segmentText context bindings segments) ++ "\""

/-- The text of an attribute.  It is left out if its value is a single marker of something that is
missing. -/
def plainText (key : String) (segments : List String) : Render String :=
  match segments with
  | ["", path, ""] => do
    match ← readPath context bindings path with
    | .none => return ""
    | _ => writtenText context bindings key segments
  | segments => writtenText context bindings key segments

end Rule

/-- The ways in which an attribute is written, by the segments of its value. -/
inductive Route (key : String) : List String → List Insertion → Prop
  | literal (text : String) : Route key [text] [.raw (" " ++ key ++ "=\"" ++ text ++ "\"")]
  | single (path : String) : Route key ["", path, ""] [.optional key path]
  | composite {segments : List String} : 1 < segments.length → segments.length % 2 = 1 →
      (∀ path, segments ≠ ["", path, ""]) →
      Route key segments [.raw (" " ++ key ++ "="), .composite segments]

theorem alternating_of_single? {p : Pieces} {path : String} (h : p.single? = some path) :
    p.alternating = ["", path, ""] := by
  unfold single? at h
  split at h
  · rename_i expression hmarked htail
    cases h
    simp [alternating, hmarked, htail]
  · cases h

/-- The parts of an attribute without a mark are those of one of the ways. -/
theorem exists_route {key : String} (hflag : key.toList.head? ≠ some '?')
    (hshorthand : key.toList.head? ≠ some ':') (value : String) :
    ∃ insertions, Route key (ofText value.toList).alternating insertions ∧
      parts key (.text value) = .ok (insertions.map Insertion.part) := by
  rw [parts_of_unmarked hflag hshorthand, plainParts]
  have hlength := (ofText value.toList).length_alternating
  cases hsingle : (ofText value.toList).single? with
  | some path =>
    rw [alternating_of_single? hsingle]
    exact ⟨_, .single path, rfl⟩
  | none =>
    by_cases hmarked : (ofText value.toList).marked = []
    -- Without a marker the only segment is the value itself.
    · have halternating : (ofText value.toList).alternating = [value] := by
        have htail : (ofText value.toList).tail = value.toList := by
          conv_rhs => rw [← text_ofText value.toList, text, hmarked]
          rfl
        simp [alternating, hmarked, htail]
      rw [halternating]
      refine ⟨_, .literal value, ?_⟩
      simp [hmarked, Insertion.part]
    · have hnonempty : 0 < (ofText value.toList).marked.length := List.length_pos_iff.2 hmarked
      refine ⟨_, .composite (by omega) (by omega) ?_, ?_⟩
      · intro path h
        cases hsingle.symm.trans (single?_of_alternating h)
      · simp [hmarked, Insertion.part]

/-! ## Every way follows the rule -/

/-- The paths among segments are those at the odd places. -/
theorem segmentPaths_eq : ∀ segments : List String,
    Generate.segmentPaths true segments = everyOther segments.tail
  | [] => rfl
  | [_] => rfl
  | [_, _] => rfl
  | _ :: path :: next :: rest => congrArg (path :: ·) (segmentPaths_eq (next :: rest))

/-- There is a path if there are two segments. -/
theorem everyOther_tail_ne_nil {segments : List String} (h : 1 < segments.length) :
    everyOther segments.tail ≠ [] := by
  cases segments with
  | nil => exact absurd h (by decide)
  | cons first rest =>
    cases rest with
    | nil => exact absurd h (by simp)
    | cons path rest => cases rest <;> exact List.cons_ne_nil _ _

/-- What insertions of an attribute have in common: they can be written, they only call what reads a
path and inserts what is there, and their paths are those of the value. -/
structure Fits (segments : List String) (insertion : Insertion) : Prop where
  sound : insertion.Sound
  helpers : ∀ helper ∈ insertion.helpers, helper = .lookup ∨ helper = .ifDefined
  paths : ∀ path ∈ insertion.part.paths, path ∈ everyOther segments.tail

section Fits

variable {key : String} {segments : List String} {insertions : List Insertion}

theorem eq_or_of_mem_pair {helper : Helper} (h : helper ∈ [Helper.lookup, .ifDefined]) :
    helper = .lookup ∨ helper = .ifDefined := by
  simpa using h

theorem fits_raw (segments : List String) (text : String) : Fits segments (.raw text) :=
  ⟨trivial, fun _ h => absurd h List.not_mem_nil, fun _ h => absurd h List.not_mem_nil⟩

theorem fits_optional (key path : String) : Fits ["", path, ""] (.optional key path) :=
  ⟨trivial, fun _ => eq_or_of_mem_pair, fun _ h => h⟩

theorem fits_composite (h : segments.length % 2 = 1) : Fits segments (.composite segments) :=
  ⟨h, fun _ => eq_or_of_mem_pair, fun _ hpath => segmentPaths_eq segments ▸ hpath⟩

theorem fits_behindKey (key : String) (h : segments.length % 2 = 1) :
    ∀ i ∈ [Insertion.raw (" " ++ key ++ "="), .composite segments], Fits segments i :=
  List.forall_mem_cons.2 ⟨fits_raw _ _, List.forall_mem_singleton.2 (fits_composite h)⟩

theorem Route.fits (h : Route key segments insertions) : ∀ i ∈ insertions, Fits segments i := by
  cases h with
  | literal text => exact List.forall_mem_singleton.2 (fits_raw _ _)
  | single path => exact List.forall_mem_singleton.2 (fits_optional key path)
  | composite _ hodd _ => exact fits_behindKey key hodd

/-- What is read is required if there is more to the value than a single marker. -/
theorem Route.references (h : Route key segments insertions) (blocks : Blocks) :
    ∃ required, insertions.flatMap (Insertion.references blocks) =
        (everyOther segments.tail).map (fun path => .ofPath blocks path required false) ∧
      (required = true ↔ everyOther segments.tail ≠ [] ∧ ∀ path, segments ≠ ["", path, ""]) := by
  cases h with
  | literal text => exact ⟨false, rfl, by simp [everyOther]⟩
  | single path => exact ⟨false, rfl, by simp⟩
  | composite hlength hodd hsingle =>
    refine ⟨true, ?_, ?_⟩
    · rw [← segmentPaths_eq, ← Generate.segmentPaths_quoteSegments hodd]
      simp [Insertion.references]
    · exact iff_of_true rfl ⟨everyOther_tail_ne_nil hlength, hsingle⟩

end Fits

section Rule

variable (context : Value) (bindings : Bindings)

theorem output_escapedPieces (source : Insertion) (v : Value) :
    Piece.output <$> escapedPieces source v = insertedText v := by
  unfold escapedPieces insertedText
  split
  · simp
  · simp [Piece.text]

theorem output_segmentPieces (source : Insertion) : ∀ segments : List String,
    Piece.output <$> segmentPieces context bindings source true segments =
      segmentText context bindings segments
  | [] => by simp [segmentPieces, segmentText]
  | [text] => by simp [segmentPieces, segmentText, Piece.text]
  | text :: path :: rest => by
    simp only [segmentPieces, segmentText, ← output_segmentPieces source rest,
      ← output_escapedPieces source]
    simp [Piece.text, String.append_assoc]

/-- Reading a path takes nothing from any iterator. -/
theorem exists_readPath (path : String) :
    ∃ read, readPath context bindings path = Render.ofExcept read := by
  unfold readPath
  split
  · exact ⟨.ok context, rfl⟩
  · split
    · exact ⟨_, rfl⟩
    · exact ⟨_, rfl⟩

theorem plainText_single (key path : String) : plainText context bindings key ["", path, ""] = (do
    match ← readPath context bindings path with
    | .none => return ""
    | _ => writtenText context bindings key ["", path, ""]) := rfl

theorem plainText_of_not_single (key : String) {segments : List String}
    (h : ∀ path, segments ≠ ["", path, ""]) :
    plainText context bindings key segments = writtenText context bindings key segments := by
  unfold plainText
  split
  · rename_i path
    exact absurd rfl (h path)
  · rfl

theorem output_optional (key path : String) :
    Piece.output <$> (Insertion.optional key path).trace context bindings =
      plainText context bindings key ["", path, ""] := by
  obtain ⟨read, hread⟩ := exists_readPath context bindings path
  rw [plainText_single, Insertion.trace, writtenText, segmentText, segmentText, hread]
  cases read with
  | error fault => rfl
  | ok v =>
    -- The rule reads the path again for what it writes, which gives the same value.
    have hok : (Render.ofExcept (.ok v) : Render Value) = pure v := rfl
    cases v with
    | none => rfl
    | _ => simp [hok, escapedPieces, insertedText, Piece.text, String.append_assoc]

/-- What is there is written. -/
theorem plainText_of_present (key : String) {path : String}
    (h : readPath context bindings path ≠ (return .none)) :
    plainText context bindings key ["", path, ""] =
      writtenText context bindings key ["", path, ""] := by
  obtain ⟨read, hread⟩ := exists_readPath context bindings path
  rw [hread] at h
  rw [plainText_single, writtenText, segmentText, segmentText, hread]
  cases read with
  | error fault => rfl
  | ok v =>
    have hok : (Render.ofExcept (.ok v) : Render Value) = pure v := rfl
    cases v with
    | none => exact absurd rfl h
    | _ => simp [hok]

/-- A composite behind its key is an attribute that is written. -/
theorem output_composite (key : String) (segments : List String) :
    Piece.output <$> (Template.ofInsertions
      [.raw (" " ++ key ++ "="), .composite segments]).trace context bindings =
        writtenText context bindings key segments := by
  have hquote : ∀ s : String, "=" ++ ("\"" ++ s) = "=\"" ++ s := fun s => by
    rw [← String.append_assoc]
    rfl
  rw [writtenText, ← output_segmentPieces _ _ (.composite segments)]
  simp [Template.ofInsertions, Template.trace, Insertion.trace, Piece.text, String.append_assoc,
    hquote]

/-- Whichever way an attribute is written, it comes to the same text. -/
theorem Route.output {key : String} {segments : List String} {insertions : List Insertion}
    (h : Route key segments insertions) :
    Piece.output <$> (Template.ofInsertions insertions).trace context bindings =
      plainText context bindings key segments := by
  cases h with
  | literal text =>
    rw [plainText_of_not_single _ _ _ (by simp)]
    simp [Template.ofInsertions, Template.trace, Insertion.trace, writtenText, segmentText,
      Piece.text]
  | single path =>
    rw [← output_optional]
    simp [Template.ofInsertions, Template.trace]
  | composite _ _ hsingle => rw [output_composite, plainText_of_not_single _ _ _ hsingle]

end Rule

/-! ## Anywhere in a fold -/

/-- Insertions of an attribute are accepted anywhere if its expressions are paths, and append what
they mean there. -/
theorem adds_of_fits {name : String} {blocks : Blocks} {refs : List Reference} {g : Generator}
    (hm : g.Midway name blocks refs) (hn : Generator.checkContextName name = .ok ())
    (hlookup : normalName name ≠ Helper.lookup.name)
    (hdefined : normalName name ≠ Helper.ifDefined.name) {segments : List String}
    {insertions : List Insertion} (hfits : ∀ i ∈ insertions, Fits segments i)
    (hpaths : ∀ path ∈ everyOther segments.tail, Path.check path = .ok ()) :
    ∃ h e, g.Adds (insertions.map Insertion.part) h e ∧
      h.scope.Follows blocks (refs ++ insertions.flatMap (Insertion.references blocks)) ∧
      ∀ context bindings, bindings.map (·.1) = liveNames g.scope.frames →
        e.eval (environment name context bindings) = Meaning.said <$> Piece.output <$>
          (Template.ofInsertions insertions).trace context bindings := by
  have hfree : ∀ i ∈ insertions, ∀ helper ∈ i.helpers, normalName name ≠ helper.name := by
    intro i hi helper hmem
    rcases (hfits i hi).helpers helper hmem with rfl | rfl
    · exact hlookup
    · exact hdefined
  exact hm.adds_insertions hn (fun i hi => (hfits i hi).sound) hfree
    fun i hi path hmem => hpaths path ((hfits i hi).paths path hmem)

/-- What the rule says of an attribute where a generator stands, whatever the live bindings stand
for.

The parts of the attribute are accepted there, and what they append comes to the text that the rule
gives.  The paths are recorded in order, as required ones exactly if there are any and there is more
to the value than a single marker.  A part that can be left out and a composite of the same path
come to the same text unless what the path reads is missing. -/
structure Ruled (name : String) (g : Generator) (key value : String) (segments : List String) :
    Prop where
  written : ∃ ps h e, parts key (.text value) = .ok ps ∧ g.Adds ps h e ∧
    (∀ context bindings, bindings.map (·.1) = liveNames g.scope.frames →
      e.eval (environment name context bindings) =
        Meaning.said <$> plainText context bindings key segments) ∧
    ∃ blocks refs required, g.scope.Follows blocks refs ∧
      h.scope.Follows blocks (refs ++ (everyOther segments.tail).map fun path =>
        .ofPath blocks path required false) ∧
      (required = true ↔ everyOther segments.tail ≠ [] ∧ ∀ path, segments ≠ ["", path, ""])
  alike : ∀ path, Path.check path = .ok () → ∃ h e h' e',
    g.Adds [.optional key path] h e ∧
    g.Adds [.raw (" " ++ key ++ "="), .composite ["", path, ""]] h' e' ∧
    ∀ context bindings, bindings.map (·.1) = liveNames g.scope.frames →
      readPath context bindings path ≠ (return .none) →
      e.eval (environment name context bindings) =
        e'.eval (environment name context bindings)

/-- The rule holds if the helpers that the code of attributes calls can be reached. -/
theorem ruled_of_ne {name : String} {blocks : Blocks} {refs : List Reference} {g : Generator}
    (hm : g.Midway name blocks refs) (hn : Generator.checkContextName name = .ok ())
    (hlookup : normalName name ≠ Helper.lookup.name)
    (hdefined : normalName name ≠ Helper.ifDefined.name)
    {key value : String} (hflag : key.toList.head? ≠ some '?')
    (hshorthand : key.toList.head? ≠ some ':') {segments : List String}
    (hsegments : (ofText value.toList).alternating = segments)
    (hpaths : ∀ path ∈ everyOther segments.tail, Path.check path = .ok ()) :
    Ruled name g key value segments where
  written := by
    obtain ⟨insertions, hroute, hparts⟩ := exists_route hflag hshorthand value
    rw [hsegments] at hroute
    obtain ⟨h, e, hadds, hfollows, heval⟩ :=
      adds_of_fits hm hn hlookup hdefined hroute.fits hpaths
    obtain ⟨required, hreferences, hrequired⟩ := hroute.references blocks
    rw [hreferences] at hfollows
    refine ⟨_, h, e, hparts, hadds, fun context bindings hbindings => ?_,
      blocks, refs, required, hm.follows, hfollows, hrequired⟩
    calc e.eval (environment name context bindings)
        = Meaning.said <$> Piece.output <$>
            (Template.ofInsertions insertions).trace context bindings :=
          heval context bindings hbindings
      _ = Meaning.said <$> plainText context bindings key segments := by rw [hroute.output]
  alike := by
    intro path hpath
    have hpaths : ∀ q ∈ everyOther ["", path, ""].tail, Path.check q = .ok () :=
      List.forall_mem_singleton.2 hpath
    obtain ⟨h, e, hadds, -, heval⟩ := adds_of_fits hm hn hlookup hdefined
      (List.forall_mem_singleton.2 (fits_optional key path)) hpaths
    obtain ⟨h', e', hadds', -, heval'⟩ := adds_of_fits hm hn hlookup hdefined
      (fits_behindKey key (by simp)) hpaths
    refine ⟨h, e, h', e', hadds, hadds', fun context bindings hbindings hpresent => ?_⟩
    calc e.eval (environment name context bindings)
        = Meaning.said <$> plainText context bindings key ["", path, ""] := by
          rw [heval context bindings hbindings, (Route.single path).output]
      -- What is there is written, as a composite always is.
      _ = Meaning.said <$> writtenText context bindings key ["", path, ""] := by
          rw [plainText_of_present _ _ _ hpresent]
      _ = e'.eval (environment name context bindings) := by
          rw [heval' context bindings hbindings, output_composite]

/-! ## Names that hide what attributes call -/

/-- The code of an attribute that may be left out calls both helpers; a missing context in the place
of one of them cannot be called. -/
theorem run_optional_hidden {helper : Helper} (h : helper = .lookup ∨ helper = .ifDefined) :
    ((Expr.joined ((Template.ofInsertions [.optional "a" "b"]).code helper.name [])).eval
      [(helper.name, .none)]).run [] = .error (.notCallable "NoneType") := by
  rcases h with rfl | rfl
  · rfl
  · rfl

/-- The rule fails where the context's name hides a helper that attributes call. -/
theorem not_ruled_of_eq {name : String} {start : Generator}
    (hstart : Generator.ofContextName name = .ok start) {helper : Helper}
    (h : helper = .lookup ∨ helper = .ifDefined) (hname : normalName name = helper.name) :
    ¬ Ruled name start.started "a" "\x7b\x7bb\x7d\x7d" ["", "b", ""] := by
  rintro ⟨⟨ps, k, e, hparts, hadds, heval, -⟩, -⟩
  have hroute : parts "a" (.text "\x7b\x7bb\x7d\x7d") = .ok [.optional "a" "b"] := by
    with_unfolding_all rfl
  obtain rfl := Except.ok.inj (hparts.symm.trans hroute)
  -- What is appended is the code of the insertion, so that this code is what the rule speaks of.
  have hm := Generator.midway_started hstart
  have hn := (Generator.ofContextName_ok hstart).2
  have hcode := (hm.adds (t := Template.ofInsertions [.optional "a" "b"]) hadds.1 hn).1
  obtain rfl := hadds.unique hcode
  have hlive : liveNames start.started.scope.frames = [] := by
    obtain ⟨rfl, -⟩ := Generator.ofContextName_ok hstart
    rfl
  have hrun := congrArg (fun x : Render Meaning => x.run []) (heval .none [] hlive.symm)
  rw [hlive, hname, environment, hname] at hrun
  cases (run_optional_hidden h).symm.trans hrun

/-- Attributes without a mark follow one rule, wherever they are folded, exactly if the context's
name is read neither as that of the helper that reads a path nor as that of the one that inserts
what is there.  The check of a context's name lets such a name through in another spelling
(`Generator.checkContextName_widen`). -/
theorem plain_rule_iff {name : String} {start : Generator}
    (hstart : Generator.ofContextName name = .ok start) :
    (∀ {before : List Part} {g : Generator},
      Generate.Yields (Generate.parts before) start.started () g →
      ∀ {key value : String}, key.toList.head? ≠ some '?' → key.toList.head? ≠ some ':' →
      ∀ {segments : List String}, (ofText value.toList).alternating = segments →
        (∀ path ∈ everyOther segments.tail, Path.check path = .ok ()) →
        Ruled name g key value segments) ↔
      normalName name ≠ Helper.lookup.name ∧ normalName name ≠ Helper.ifDefined.name := by
  constructor
  · intro hruled
    have hsegments : (ofText "\x7b\x7bb\x7d\x7d".toList).alternating = ["", "b", ""] := by
      with_unfolding_all rfl
    have hpaths : ∀ path ∈ everyOther ["", "b", ""].tail, Path.check path = .ok () :=
      List.forall_mem_singleton.2 rfl
    have hstarted : Generate.Yields (Generate.parts []) start.started () start.started := rfl
    have hflag : "a".toList.head? ≠ some '?' := by decide
    have hshorthand : "a".toList.head? ≠ some ':' := by decide
    have hprobe := hruled hstarted hflag hshorthand hsegments hpaths
    exact ⟨fun he => not_ruled_of_eq hstart (.inl rfl) he hprobe,
      fun he => not_ruled_of_eq hstart (.inr rfl) he hprobe⟩
  · rintro ⟨hlookup, hdefined⟩ before g hbefore key value hflag hshorthand segments hsegments hpaths
    obtain ⟨rfl, hn⟩ := Generator.ofContextName_ok hstart
    obtain ⟨blocks, refs, hm⟩ := (Generator.midway_started hstart).parts hbefore
    exact ruled_of_ne hm hn hlookup hdefined hflag hshorthand hsegments hpaths

/-- In a loop, a composite of a literal and a field of the element, which is escaped. -/
theorem plain_rule_element : ∃ start g h e,
    Generator.ofContextName "context" = .ok start ∧
    Generate.Yields (Generate.parts [.loop "rows" "row"]) start.started () g ∧
    g.Adds [.raw " title=", .composite ["a ", "row.x", ""]] h e ∧
    ∀ context, e.eval (environment "context" context [("row", .dict [(.str "x", .str "<b>")])]) =
      return Meaning.said " title=\"a &lt;b&gt;\"" := by
  have hstart : Generator.ofContextName "context" = .ok ⟨"context", .empty, #[], none⟩ := rfl
  have hname : normalName "context" = "context" := normalName_ascii (by decide)
  have hlookup : normalName "context" ≠ Helper.lookup.name := hname ▸ by decide
  have hdefined : normalName "context" ≠ Helper.ifDefined.name := hname ▸ by decide
  have hsegments : (ofText "a \x7b\x7brow.x\x7d\x7d".toList).alternating = ["a ", "row.x", ""] := by
    with_unfolding_all rfl
  have hpaths : ∀ path ∈ everyOther ["a ", "row.x", ""].tail, Path.check path = .ok () :=
    List.forall_mem_singleton.2 rfl
  have hbefore : Generate.Yields (Generate.parts [.loop "rows" "row"])
      (Generator.mk "context" .empty #[] none).started () _ := rfl
  have hflag : "title".toList.head? ≠ some '?' := by decide
  have hshorthand : "title".toList.head? ≠ some ':' := by decide
  obtain ⟨⟨ps, h, e, hparts, hadds, heval, -⟩, -⟩ :=
    (plain_rule_iff hstart).2 ⟨hlookup, hdefined⟩ hbefore hflag hshorthand hsegments hpaths
  have hroute : parts "title" (.text "a \x7b\x7brow.x\x7d\x7d") =
      .ok [.raw " title=", .composite ["a ", "row.x", ""]] := by
    with_unfolding_all rfl
  obtain rfl := Except.ok.inj (hparts.symm.trans hroute)
  refine ⟨_, _, h, e, hstart, hbefore, hadds, fun context => ?_⟩
  exact (heval context [("row", .dict [(.str "x", .str "<b>")])] rfl).trans rfl

/-- An attribute of a context that is named like the helper that reads a path, in full width: the
rule gives the attribute's text, and the code calls the context. -/
theorem not_ruled_wide_lookup : ∃ start k e,
    Generator.ofContextName "ｌｏｏｋｕｐ" = .ok start ∧
    parts "a" (.text "\x7b\x7bb\x7d\x7d") = .ok [.optional "a" "b"] ∧
    start.started.Adds [.optional "a" "b"] k e ∧
    (e.eval (environment "ｌｏｏｋｕｐ" (.dict [(.str "b", .str "c")]) [])).run [] =
      .error (.notCallable "dict") ∧
    plainText (.dict [(.str "b", .str "c")]) [] "a" ["", "b", ""] = (return " a=\"c\"") := by
  have hspelled : "ｌｏｏｋｕｐ" = widen Helper.lookup.name := by decide
  rw [hspelled]
  obtain ⟨hcheck, hname⟩ := Generator.checkContextName_widen .lookup
  have hstart : Generator.ofContextName (widen Helper.lookup.name) =
      .ok ⟨widen Helper.lookup.name, .empty, #[], none⟩ := by
    unfold Generator.ofContextName
    rw [hcheck]
    rfl
  have hm := Generator.midway_started hstart
  have hy : Generate.Yields (Generate.parts [.optional "a" "b"])
      (Generator.mk (widen Helper.lookup.name) .empty #[] none).started () _ := rfl
  obtain ⟨hadds, -⟩ := hm.adds (t := Template.ofInsertions [.optional "a" "b"]) hy hcheck
  have hroute : parts "a" (.text "\x7b\x7bb\x7d\x7d") = .ok [.optional "a" "b"] := by
    with_unfolding_all rfl
  refine ⟨_, _, _, hstart, hroute, hadds, ?_, rfl⟩
  rw [environment, hname]
  rfl

end Attribute
end HtmlTemplate
