import HtmlTemplate.Proofs.Scan.Reading
import HtmlTemplate.Scan

/-!
# Tiling — a scan cuts its source into spans

One call of the scanner (`Scan.call`) tells that the source is at its end, takes a span off its
front, or stops with a fault.  What a call does depends on the rest of the source alone, and a span
is never empty, so that a scan takes no more calls than the source has characters, and one for the
end.  The spans of a scan that meets no fault are the source again, each of them with the form of
its kind in front of those that follow (`Scan.spans_tile`).
-/

namespace HtmlTemplate
namespace Scan

/-! ## Calls -/

/-- A stretch of a source, the chunk that it is read as, and the parts that are made of it. -/
structure Span where
  chars : List Char
  chunk : Chunk
  parts : List Part

/-- What the scanner does at the rest of a source. -/
inductive Call where
  /-- The source is at its end. -/
  | finished
  /-- A span is taken, and the rest is left. -/
  | took (span : Span) (rest : List Char)
  | refused (fault : Error)

namespace Call

/-- The span that a call takes. -/
def span? : Call → Option Span
  | took span _ => some span
  | _ => none

end Call

section Calls

variable (reader : TagReader) (place : List Char → Interpolation.Locator)

/-- One call of the scanner, at the rest `cs` of a source. -/
def call (cs : List Char) : Call :=
  if cs = [] then .finished
  else
    match Chunk.read cs with
    | .error m => .refused (malformedFault (place m.rest) m)
    | .ok (chunk, rest) =>
      let y := chunkYield reader (place cs) chunk
      match y.fault with
      | some fault => .refused fault
      | none => .took ⟨cs.take (cs.length - rest.length), chunk, y.parts⟩ rest

variable {reader place}

theorem call_of_malformed {cs : List Char} {m : Malformed} (hne : cs ≠ [])
    (hread : Chunk.read cs = .error m) :
    call reader place cs = .refused (malformedFault (place m.rest) m) := by
  rw [call, if_neg hne, hread]

theorem call_of_read {cs rest : List Char} {chunk : Chunk} (hne : cs ≠ [])
    (hread : Chunk.read cs = .ok (chunk, rest)) :
    call reader place cs =
      match (chunkYield reader (place cs) chunk).fault with
      | some fault => .refused fault
      | none => .took ⟨cs.take (cs.length - rest.length), chunk,
          (chunkYield reader (place cs) chunk).parts⟩ rest := by
  rw [call, if_neg hne, hread]

theorem call_eq_finished_iff {cs : List Char} : call reader place cs = .finished ↔ cs = [] := by
  constructor
  · intro h
    refine Decidable.byContradiction fun hne => ?_
    cases hread : Chunk.read cs with
    | error m =>
      rw [call_of_malformed hne hread] at h
      cases h
    | ok r =>
      rw [call_of_read hne hread] at h
      split at h <;> cases h
  · rintro rfl
    rfl

/-- The span that is taken is what stands before the rest, and it has the form of its kind. -/
theorem of_call_took {cs rest : List Char} {span : Span}
    (h : call reader place cs = .took span rest) :
    cs = span.chars ++ rest ∧ span.chars ≠ [] ∧ span.chunk.kind.Fits span.chars rest ∧
      Chunk.read cs = .ok (span.chunk, rest) ∧
      chunkYield reader (place cs) span.chunk = ⟨span.parts, none⟩ := by
  have hne : cs ≠ [] := by
    rintro rfl
    cases h
  cases hread : Chunk.read cs with
  | error m =>
    rw [call_of_malformed hne hread] at h
    cases h
  | ok r =>
    obtain ⟨chunk, rest'⟩ := r
    rw [call_of_read hne hread] at h
    split at h
    · cases h
    · rename_i hfault
      cases h
      obtain ⟨chars, rfl, hfits⟩ := Chunk.read_fits hread
      have htake : (chars ++ rest).take ((chars ++ rest).length - rest.length) = chars := by
        rw [List.length_append, Nat.add_sub_cancel]
        exact List.take_left
      rw [htake]
      refine ⟨rfl, ?_, hfits, rfl, ?_⟩
      · rintro rfl
        exact Nat.lt_irrefl _ (Chunk.read_length hne hread)
      · rw [← hfault]

theorem call_took_length {cs rest : List Char} {span : Span}
    (h : call reader place cs = .took span rest) : rest.length < cs.length := by
  obtain ⟨rfl, hne, -⟩ := of_call_took h
  rw [List.length_append]
  exact Nat.lt_add_of_pos_left (List.length_pos_iff.2 hne)

variable (reader place)

/-- The calls of a whole scan, up to the one that takes nothing. -/
def calls (cs : List Char) : List Call :=
  match h : call reader place cs with
  | .took span rest =>
    have := call_took_length h
    .took span rest :: calls rest
  | last => [last]
termination_by cs.length

/-- The spans that a scan takes. -/
def spans (cs : List Char) : List Span := (calls reader place cs).filterMap Call.span?

variable {reader place}

/-! ## A scan is its calls -/

theorem scanFrom_of_malformed {cs : List Char} {m : Malformed} (hne : cs ≠ [])
    (hread : Chunk.read cs = .error m) :
    scanFrom reader place cs = failed [] [] (malformedFault (place m.rest) m) := by
  rw [scanFrom, dif_neg hne]
  split
  · rename_i h
    cases hread.symm.trans h
    rfl
  · rename_i h
    cases hread.symm.trans h

theorem scanFrom_of_read {cs rest : List Char} {chunk : Chunk} (hne : cs ≠ [])
    (hread : Chunk.read cs = .ok (chunk, rest)) :
    scanFrom reader place cs =
      match (chunkYield reader (place cs) chunk).fault with
      | some fault => failed (chunkYield reader (place cs) chunk).parts (askedTags chunk) fault
      | none => (chunkYield reader (place cs) chunk).before chunk (scanFrom reader place rest) := by
  rw [scanFrom, dif_neg hne]
  split
  · rename_i h
    cases hread.symm.trans h
  · rename_i h
    cases hread.symm.trans h
    rfl

theorem calls_of_took {cs rest : List Char} {span : Span}
    (h : call reader place cs = .took span rest) :
    calls reader place cs = .took span rest :: calls reader place rest := by
  rw [calls]
  split
  · rename_i h'
    cases h.symm.trans h'
    rfl
  · rename_i hlast
    exact absurd h (hlast _ _)

theorem calls_of_finished : calls reader place [] = [.finished] := by
  rw [calls]
  rfl

theorem calls_of_refused {cs : List Char} {fault : Error}
    (h : call reader place cs = .refused fault) : calls reader place cs = [.refused fault] := by
  rw [calls]
  split
  · rename_i h'
    cases h.symm.trans h'
  · rw [h]

theorem spans_of_took {cs rest : List Char} {span : Span}
    (h : call reader place cs = .took span rest) :
    spans reader place cs = span :: spans reader place rest := by
  unfold spans
  rw [calls_of_took h]
  rfl

theorem spans_of_finished : spans reader place [] = [] := by
  unfold spans
  rw [calls_of_finished]
  rfl

theorem spans_of_refused {cs : List Char} {fault : Error}
    (h : call reader place cs = .refused fault) : spans reader place cs = [] := by
  unfold spans
  rw [calls_of_refused h]
  rfl

/-- A scan goes on behind the span that its first call takes. -/
theorem scanFrom_of_took {cs rest : List Char} {span : Span}
    (h : call reader place cs = .took span rest) :
    scanFrom reader place cs =
      Yield.before ⟨span.parts, none⟩ span.chunk (scanFrom reader place rest) := by
  obtain ⟨rfl, hne, -, hread, hyield⟩ := of_call_took h
  rw [scanFrom_of_read (by simp [hne]) hread, hyield]

theorem scanFrom_of_finished : scanFrom reader place [] = done := by
  rw [scanFrom]
  rfl

/-- A scan ends with the call that is refused. -/
theorem scanFrom_of_refused {cs : List Char} {fault : Error}
    (h : call reader place cs = .refused fault) :
    (scanFrom reader place cs).kinds = [] ∧ (scanFrom reader place cs).fault = some fault := by
  have hne : cs ≠ [] := by
    rintro rfl
    cases h
  cases hread : Chunk.read cs with
  | error m =>
    rw [call_of_malformed hne hread] at h
    cases h
    rw [scanFrom_of_malformed hne hread]
    exact ⟨rfl, rfl⟩
  | ok r =>
    obtain ⟨chunk, rest⟩ := r
    rw [call_of_read hne hread] at h
    rw [scanFrom_of_read hne hread]
    split at h
    · cases h
      exact ⟨rfl, rfl⟩
    · cases h

variable (reader place)

/-- What a scan is like: at the end of the source, where a call takes a span, and where it is
refused. -/
theorem scan_induction {P : List Char → Prop} (finished : P [])
    (took : ∀ cs span rest, call reader place cs = .took span rest → P rest → P cs)
    (refused : ∀ cs fault, call reader place cs = .refused fault → P cs) (cs : List Char) :
    P cs := by
  fun_induction calls reader place cs with
  | case1 cs span rest h _ ih => exact took cs span rest h ih
  | case2 cs hlast =>
    cases h : call reader place cs with
    | finished =>
      rw [call_eq_finished_iff] at h
      rwa [h]
    | took span rest => exact absurd h (hlast span rest)
    | refused fault => exact refused cs fault h

/-! ## What the calls of a scan come to -/

/-- Every call but the last takes a character at least. -/
theorem length_calls (cs : List Char) : (calls reader place cs).length ≤ cs.length + 1 := by
  induction cs using scan_induction reader place with
  | finished =>
    rw [calls_of_finished]
    exact Nat.le_refl 1
  | took cs span rest h ih =>
    rw [calls_of_took h, List.length_cons]
    exact Nat.succ_le_succ (Nat.le_trans ih (call_took_length h))
  | refused cs fault h =>
    rw [calls_of_refused h]
    exact Nat.succ_le_succ (Nat.zero_le _)

theorem kinds_scanFrom (cs : List Char) :
    (scanFrom reader place cs).kinds = (spans reader place cs).map (·.chunk.kind) := by
  induction cs using scan_induction reader place with
  | finished =>
    rw [scanFrom_of_finished, spans_of_finished]
    rfl
  | took cs span rest h ih =>
    rw [scanFrom_of_took h, spans_of_took h, List.map_cons, ← ih]
    rfl
  | refused cs fault h =>
    rw [spans_of_refused h]
    exact (scanFrom_of_refused h).1

variable {reader place}

/-- A scan that meets no fault is nothing but its spans. -/
theorem scanFrom_eq_spans {cs : List Char} (hok : (scanFrom reader place cs).fault = none) :
    (scanFrom reader place cs).parts = (spans reader place cs).flatMap Span.parts ∧
      (scanFrom reader place cs).tags = (spans reader place cs).flatMap (askedTags ·.chunk) ∧
      (spans reader place cs).flatMap Span.chars = cs := by
  induction cs using scan_induction reader place with
  | finished =>
    rw [scanFrom_of_finished, spans_of_finished]
    exact ⟨rfl, rfl, rfl⟩
  | took cs span rest h ih =>
    rw [scanFrom_of_took h] at hok ⊢
    obtain ⟨hparts, htags, hchars⟩ := ih hok
    rw [spans_of_took h, List.flatMap_cons, List.flatMap_cons, List.flatMap_cons, ← hparts,
      ← htags, hchars]
    exact ⟨rfl, rfl, (of_call_took h).1.symm⟩
  | refused cs fault h =>
    rw [(scanFrom_of_refused h).2] at hok
    cases hok

/-- Every span has the form of its kind in front of the spans that follow. -/
theorem fits_spans {cs : List Char} (hok : (scanFrom reader place cs).fault = none)
    {before after : List Span} {span : Span}
    (hspans : spans reader place cs = before ++ span :: after) :
    span.chunk.kind.Fits span.chars (after.flatMap Span.chars) := by
  induction cs using scan_induction reader place generalizing before with
  | finished =>
    rw [spans_of_finished] at hspans
    simp at hspans
  | took cs first rest h ih =>
    rw [scanFrom_of_took h] at hok
    rw [spans_of_took h] at hspans
    rcases List.cons_eq_append_iff.1 hspans with ⟨-, hspans⟩ | ⟨before, -, hspans⟩
    · obtain ⟨rfl, rfl⟩ := List.cons.inj hspans
      rw [(scanFrom_eq_spans hok).2.2]
      exact (of_call_took h).2.2.1
    · exact ih hok hspans
  | refused cs fault h =>
    rw [(scanFrom_of_refused h).2] at hok
    cases hok

/-- Every span is taken by some call. -/
theorem exists_call_of_mem {cs : List Char} {span : Span} (hmem : span ∈ spans reader place cs) :
    ∃ cs rest, call reader place cs = .took span rest := by
  induction cs using scan_induction reader place with
  | finished =>
    rw [spans_of_finished] at hmem
    cases hmem
  | took cs first rest h ih =>
    rw [spans_of_took h] at hmem
    rcases List.mem_cons.1 hmem with rfl | hmem
    · exact ⟨cs, rest, h⟩
    · exact ih hmem
  | refused cs fault h =>
    rw [spans_of_refused h] at hmem
    cases hmem

/-- What stands behind a text is no text, as it starts with markup. -/
theorem not_text_of_text {cs : List Char} (hok : (scanFrom reader place cs).fault = none)
    {before after : List Span} {first second : Span}
    (hspans : spans reader place cs = before ++ first :: second :: after)
    (hfirst : first.chunk.kind = .text) : second.chunk.kind ≠ .text := by
  intro hsecond
  have hsplit : spans reader place cs = (before ++ [first]) ++ second :: after := by
    rw [hspans, List.append_assoc, List.singleton_append]
  have hfits := fits_spans hok hspans
  have hfits' := fits_spans hok hsplit
  rw [hfirst] at hfits
  rw [hsecond] at hfits'
  have hmem : second ∈ spans reader place cs := by
    rw [hsplit]
    exact List.mem_append_right _ List.mem_cons_self
  obtain ⟨_, _, hcall⟩ := exists_call_of_mem hmem
  have hne := (of_call_took hcall).2.1
  -- The first text ends at the end of the source or at markup, and neither is in a text.
  rcases hfits.2 with hnil | hmarkup
  · rw [List.flatMap_cons, List.append_eq_nil_iff] at hnil
    exact hne hnil.1
  · rw [List.flatMap_cons] at hmarkup
    exact hfits'.1 [] second.chars rfl hne hmarkup

/-- The scanner tells the end at the end of the source and nowhere else.  Anywhere else a call
stops with a fault or takes at least one character, so that a whole scan takes one call more at
most than the source has characters.  If it meets no fault, its spans are the source without gap
or overlap, and each of them has the form of its kind. -/
theorem spans_tile (reader : TagReader) (place : List Char → Interpolation.Locator)
    (source : List Char) :
    (∀ cs, call reader place cs = .finished ↔ cs = []) ∧
    (∀ cs span rest, call reader place cs = .took span rest →
      cs = span.chars ++ rest ∧ span.chars ≠ []) ∧
    (calls reader place source).length ≤ source.length + 1 ∧
    (scanFrom reader place source).kinds = (spans reader place source).map (·.chunk.kind) ∧
    ((scanFrom reader place source).fault = none →
      (spans reader place source).flatMap Span.chars = source ∧
      (∀ before span after, spans reader place source = before ++ span :: after →
        span.chunk.kind.Fits span.chars (after.flatMap Span.chars)) ∧
      ∀ before first second after,
        spans reader place source = before ++ first :: second :: after →
        first.chunk.kind = .text → second.chunk.kind ≠ .text) := by
  refine ⟨fun cs => call_eq_finished_iff, ?_, length_calls reader place source,
    kinds_scanFrom reader place source, ?_⟩
  · intro cs span rest h
    obtain ⟨hcs, hne, -⟩ := of_call_took h
    exact ⟨hcs, hne⟩
  · intro hok
    exact ⟨(scanFrom_eq_spans hok).2.2, fun _ _ _ => fits_spans hok,
      fun _ _ _ _ => not_text_of_text hok⟩

end Calls

/-- A text, an unclosed comment and two tags. -/
theorem spans_tile_page :
    (scanFrom Resolver.literal.resolve (placeIn [] none)
      "a<p b=\"<\">\n</p><!c".toList).fault = none ∧
    (spans Resolver.literal.resolve (placeIn [] none) "a<p b=\"<\">\n</p><!c".toList).flatMap
      Span.chars = "a<p b=\"<\">\n</p><!c".toList := by
  have hok : (scanFrom Resolver.literal.resolve (placeIn [] none)
      "a<p b=\"<\">\n</p><!c".toList).fault = none := by
    with_unfolding_all rfl
  obtain ⟨-, -, -, -, h⟩ :=
    spans_tile Resolver.literal.resolve (placeIn [] none) "a<p b=\"<\">\n</p><!c".toList
  exact ⟨hok, (h hok).1⟩

end Scan
end HtmlTemplate
