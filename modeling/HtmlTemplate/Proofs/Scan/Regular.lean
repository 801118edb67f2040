import HtmlTemplate.Proofs.Scan.Expression
import HtmlTemplate.Proofs.Template.Acceptance

/-!
# Regular — what parts a scan makes

A scan writes literal texts, parts that stand alone, and composite values, each of them right behind
the literal text that its attribute starts with (`Part.Scanned`).  When neighbouring texts are joined
no text is empty or has another one for its neighbour, and the text in front of a composite value
still ends with the attribute's key (`Part.Scanned.regular`).

Whatever stops a scan is declared (`Scan.declared_of_fault`).
-/

namespace HtmlTemplate

open Text

namespace Pieces

/-- Only a single marker has nothing on both of its sides. -/
theorem single?_of_alternating {p : Pieces} {path : String} (h : p.alternating = ["", path, ""]) :
    p.single? = some path := by
  have hlength : p.marked.length = 1 := by
    have hall := p.length_alternating
    rw [h] at hall
    simp only [List.length_cons, List.length_nil] at hall
    omega
  obtain ⟨marked, tail⟩ := p
  obtain ⟨⟨literal, expression⟩, rfl⟩ := List.length_eq_one_iff.1 hlength
  change [String.ofList literal, String.ofList (strip expression), String.ofList tail] = _ at h
  simp only [List.cons.injEq, String.ofList_eq_empty_iff, and_true] at h
  obtain ⟨rfl, rfl, rfl⟩ := h
  rfl

end Pieces

namespace Part

variable {tags : List Tag} {ps qs : List Part}

/-! ## Parts of a scan -/

/-- Parts that are made of texts, comments and these tags. -/
inductive Scanned (tags : List Tag) : List Part → Prop
  | nil : Scanned tags []
  | text (text : String) {ps : List Part} : Scanned tags ps → Scanned tags (raw text :: ps)
  | lone {part : Part} {ps : List Part} :
    part.isLone = true → Scanned tags ps → Scanned tags (part :: ps)
  /-- An attribute whose value holds a marker, and more than that. -/
  | composite {tag : Tag} {key value : String} {ps : List Part} :
    tag ∈ tags → (key, AttributeValue.text value) ∈ tag.attributes →
    (Pieces.ofText value.toList).single? = none → (Pieces.ofText value.toList).marked ≠ [] →
    Scanned tags ps →
    Scanned tags
      (raw (" " ++ key ++ "=") :: composite (Pieces.ofText value.toList).alternating :: ps)

namespace Scanned

theorem append (hps : Scanned tags ps) (hqs : Scanned tags qs) : Scanned tags (ps ++ qs) := by
  induction hps with
  | nil => exact hqs
  | text t _ ih => exact .text t ih
  | lone h _ ih => exact .lone h ih
  | composite htag hkey hsingle hmarked _ ih => exact .composite htag hkey hsingle hmarked ih

theorem mono {tags' : List Tag} (h : Scanned tags ps) (hsub : ∀ tag ∈ tags, tag ∈ tags') :
    Scanned tags' ps := by
  induction h with
  | nil => exact .nil
  | text t _ ih => exact .text t ih
  | lone h _ ih => exact .lone h ih
  | composite htag hkey hsingle hmarked _ ih =>
    exact .composite (hsub _ htag) hkey hsingle hmarked ih

theorem of_lone (h : ∀ part ∈ ps, part.isLone = true) : Scanned tags ps := by
  induction ps with
  | nil => exact .nil
  | cons part ps ih =>
    obtain ⟨hpart, hps⟩ := List.forall_mem_cons.1 h
    exact .lone hpart (ih hps)

theorem literal (tags : List Tag) (text : List Char) : Scanned tags (Part.literal text) := by
  unfold Part.literal
  split
  · exact .nil
  · exact .text _ .nil

theorem flatMap {α : Type} {l : List α} {f : α → List Part} (h : ∀ a ∈ l, Scanned tags (f a)) :
    Scanned tags (l.flatMap f) := by
  induction l with
  | nil => exact .nil
  | cons a l ih =>
    obtain ⟨ha, hl⟩ := List.forall_mem_cons.1 h
    exact ha.append (ih hl)

end Scanned

/-! ## Regular parts -/

/-- Where a composite value may stand: it has a literal at both ends and a marker in between, and is
the value of an attribute of one of the tags, whose key ends the text in front of it. -/
structure IntroducedBy (tags : List Tag) (before : List Part) (segments : List String) : Prop where
  odd : segments.length % 2 = 1
  long : 3 ≤ segments.length
  mixed : ∀ path, segments ≠ ["", path, ""]
  keyed : ∃ tag ∈ tags, ∃ key value, (key, AttributeValue.text value) ∈ tag.attributes ∧
    segments = (Pieces.ofText value.toList).alternating ∧
    ∃ front text, before = front ++ [raw text] ∧ (" " ++ key ++ "=").toList <:+ text.toList

/-- Parts that the generator knows how to read: each has code, no literal text is empty or stands
beside another, and composite values are introduced. -/
structure Regular (tags : List Tag) (ps : List Part) : Prop where
  builtIn : ∀ part ∈ ps, part.BuiltIn
  nonempty : raw "" ∉ ps
  apart : ∀ before first second after, ps ≠ before ++ raw first :: raw second :: after
  introduced : ∀ before segments after, ps = before ++ composite segments :: after →
    IntroducedBy tags before segments

/-- What introduces a composite value may have more in front of it. -/
theorem IntroducedBy.cons {before : List Part} {segments : List String}
    (h : IntroducedBy tags before segments) (part : Part) :
    IntroducedBy tags (part :: before) segments := by
  obtain ⟨tag, htag, key, value, hkey, hsegments, front, text, rfl, hends⟩ := h.keyed
  exact ⟨h.odd, h.long, h.mixed,
    tag, htag, key, value, hkey, hsegments, part :: front, text, rfl, hends⟩

/-- A value that holds a marker, and more than that, is introduced by its key. -/
theorem IntroducedBy.of_key {tag : Tag} {key value : String} (htag : tag ∈ tags)
    (hkey : (key, AttributeValue.text value) ∈ tag.attributes)
    (hsingle : (Pieces.ofText value.toList).single? = none)
    (hmarked : (Pieces.ofText value.toList).marked ≠ []) (pending : String) :
    IntroducedBy tags [raw (pending ++ (" " ++ key ++ "="))]
      (Pieces.ofText value.toList).alternating := by
  have hlength := (Pieces.ofText value.toList).length_alternating
  have hsome : 0 < (Pieces.ofText value.toList).marked.length := List.length_pos_iff.2 hmarked
  refine ⟨by omega, by omega, fun path halone => ?_, ?_⟩
  · cases hsingle.symm.trans (Pieces.single?_of_alternating halone)
  · refine ⟨tag, htag, key, value, hkey, rfl, [], _, rfl, ?_⟩
    rw [String.toList_append (s := pending)]
    exact List.suffix_append _ _

namespace Regular

theorem nil : Regular tags [] where
  builtIn := nofun
  nonempty := List.not_mem_nil
  apart := fun before _ _ _ h => by cases before <;> cases h
  introduced := fun before _ _ h => by cases before <;> cases h

/-- A part that stands alone may stand anywhere. -/
theorem cons_lone {part : Part} (hpart : part.isLone = true) (h : Regular tags ps) :
    Regular tags (part :: ps) where
  builtIn := by
    refine List.forall_mem_cons.2 ⟨?_, h.builtIn⟩
    cases part <;> trivial
  nonempty := by
    intro hmem
    rcases List.mem_cons.1 hmem with rfl | hmem
    · cases hpart
    · exact h.nonempty hmem
  apart := by
    intro before first second after he
    cases before with
    | nil =>
      obtain ⟨rfl, -⟩ := List.cons.inj he
      cases hpart
    | cons _ before => exact h.apart before first second after (List.cons.inj he).2
  introduced := by
    intro before segments after he
    cases before with
    | nil =>
      obtain ⟨rfl, -⟩ := List.cons.inj he
      cases hpart
    | cons _ before => exact (h.introduced before segments after (List.cons.inj he).2).cons _

/-- A text may stand in front of anything but another text. -/
theorem cons_raw {text : String} (htext : text.isEmpty = false)
    (hhead : ∀ part ∈ ps.head?, part.isRaw = false) (h : Regular tags ps) :
    Regular tags (raw text :: ps) where
  builtIn := List.forall_mem_cons.2 ⟨trivial, h.builtIn⟩
  nonempty := by
    intro hmem
    rcases List.mem_cons.1 hmem with he | hmem
    · cases he
      cases htext
    · exact h.nonempty hmem
  apart := by
    intro before first second after he
    cases before with
    | nil =>
      obtain ⟨-, rfl⟩ := List.cons.inj he
      cases hhead _ rfl
    | cons _ before => exact h.apart before first second after (List.cons.inj he).2
  introduced := by
    intro before segments after he
    cases before with
    | nil => cases he
    | cons _ before => exact (h.introduced before segments after (List.cons.inj he).2).cons _

/-- A composite value stands behind the text that introduces it. -/
theorem cons_composite {text : String} {segments : List String} (htext : text.isEmpty = false)
    (hfirst : IntroducedBy tags [raw text] segments) (h : Regular tags ps) :
    Regular tags (raw text :: composite segments :: ps) where
  builtIn := List.forall_mem_cons.2 ⟨trivial, List.forall_mem_cons.2 ⟨hfirst.odd, h.builtIn⟩⟩
  nonempty := by
    intro hmem
    rcases List.mem_cons.1 hmem with he | hmem
    · cases he
      cases htext
    · rcases List.mem_cons.1 hmem with he | hmem
      · cases he
      · exact h.nonempty hmem
  apart := by
    intro before first second after he
    match before with
    | [] => cases he
    | [_] => cases he
    | _ :: _ :: before =>
      exact h.apart before first second after (List.cons.inj (List.cons.inj he).2).2
  introduced := by
    intro before segments' after he
    match before with
    | [] => cases he
    | [_] =>
      obtain ⟨rfl, he⟩ := List.cons.inj he
      cases he
      exact hfirst
    | _ :: _ :: before =>
      have hrest := (List.cons.inj (List.cons.inj he).2).2
      exact ((h.introduced before segments' after hrest).cons _).cons _

end Regular

/-- Joining neighbouring texts makes the parts of a scan regular. -/
theorem Scanned.regular (h : Scanned tags ps) (pending : String) :
    Regular tags (coalesceFrom pending ps) := by
  -- The text that is pending is written in front of the next part that is none.
  induction h generalizing pending with
  | nil =>
    unfold coalesceFrom
    split
    · exact .nil
    · rename_i hpending
      exact Regular.nil.cons_raw (Bool.eq_false_iff.2 hpending) fun part hmem => by cases hmem
  | text t _ ih => exact ih (pending ++ t)
  | lone hpart _ ih =>
    have hraw := isRaw_of_isLone hpart
    have hrest := (ih "").cons_lone hpart
    rw [coalesceFrom_of_not_raw hraw]
    split
    · exact hrest
    · rename_i hpending
      refine hrest.cons_raw (Bool.eq_false_iff.2 hpending) fun part hmem => ?_
      obtain rfl := Option.some.inj hmem
      exact hraw
  | @composite tag key value ps htag hkey hsingle hmarked _ ih =>
    have hpending : (pending ++ (" " ++ key ++ "=")).isEmpty = false :=
      isEmpty_append pending (by simp [String.isEmpty_eq_false_iff])
    rw [coalesceFrom, coalesceFrom_of_not_raw rfl, if_neg (Bool.eq_false_iff.1 hpending)]
    exact (ih "").cons_composite hpending (.of_key htag hkey hsingle hmarked pending)

end Part

/-! ## Spans -/

/-- The parts of a text or comment. -/
theorem Interpolation.scanned_interleaved (tags : List Tag) (position : Position) (p : Pieces) :
    Part.Scanned tags (interleaved position p) := by
  apply Part.Scanned.append
  · apply Part.Scanned.flatMap
    intro m _
    have hinserted := isLone_inserted position (strip m.2)
    exact (Part.Scanned.literal tags m.1).append (.lone hinserted .nil)
  · exact .literal tags p.tail

/-- The parts of an attribute. -/
theorem Attribute.scanned_parts {tags : List Tag} {tag : Tag} {key : String}
    {value : AttributeValue} {ps : List Part} (htag : tag ∈ tags)
    (hkey : (key, value) ∈ tag.attributes) (h : parts key value = .ok ps) :
    Part.Scanned tags ps := by
  unfold parts at h
  split at h
  · cases h
    unfold flagParts
    split
    · exact .nil
    · split
      · exact .lone rfl .nil
      · exact .text _ .nil
  · unfold shorthandParts at h
    split at h
    · cases h
    · cases h
      exact .lone rfl .nil
  · cases h
    unfold plainParts
    split
    · exact .text _ .nil
    · dsimp only
      split
      · exact .lone rfl .nil
      · rename_i hsingle
        split
        · exact .text _ .nil
        · rename_i hmarked
          exact .composite htag hkey hsingle (mt List.isEmpty_iff.2 hmarked) .nil

/-- The parts of a literal tag. -/
theorem Tag.scanned_of_writtenAs {tag : Tag} {ps : List Part} (h : tag.WrittenAs ps) :
    Part.Scanned [tag] ps := by
  obtain ⟨hgiven, rfl⟩ := h
  have hattributes : Part.Scanned [tag] (tag.attributes.flatMap Attribute.written) :=
    Part.Scanned.flatMap fun a ha =>
      Attribute.scanned_parts List.mem_cons_self ha (hgiven a ha)
  exact .text _ (hattributes.append (.text _ .nil))

namespace Scan

variable {resolver : Resolver} {place : List Char → Interpolation.Locator}

/-- The parts of a span. -/
theorem scanned_of_took (hb : resolver.IsBuiltin) {cs rest : List Char} {span : Span}
    (h : call resolver.resolve place cs = .took span rest) :
    Part.Scanned (askedTags span.chunk) span.parts := by
  have haccounted := accounted_of_took hb.silent h
  obtain ⟨chars, chunk, ps⟩ := span
  cases chunk with
  | text run =>
    obtain ⟨-, -, hparts⟩ := haccounted
    exact hparts ▸ Interpolation.scanned_interleaved _ .body _
  | comment run =>
    obtain ⟨-, -, hparts⟩ := haccounted
    exact hparts ▸ Interpolation.scanned_interleaved _ .comment _
  | tag tag =>
    rcases haccounted with ⟨hresolve, -⟩ | ⟨-, hwritten⟩
    · exact .of_lone ((hb.within_resolve tag).of_ok hresolve ps rfl).2
    · exact Tag.scanned_of_writtenAs hwritten

/-- The parts of a scan without fault. -/
theorem scanned_scanFrom (hb : resolver.IsBuiltin) {cs : List Char}
    (hok : (scanFrom resolver.resolve place cs).fault = none) :
    Part.Scanned (scanFrom resolver.resolve place cs).tags
      (scanFrom resolver.resolve place cs).parts := by
  obtain ⟨hparts, htags, -⟩ := scanFrom_eq_spans hok
  rw [hparts, htags]
  apply Part.Scanned.flatMap
  intro span hspan
  obtain ⟨_, _, hcall⟩ := exists_call_of_mem hspan
  exact (scanned_of_took hb hcall).mono fun tag htag => List.mem_flatMap.2 ⟨span, hspan, htag⟩

/-- The template of a scan without fault is regular. -/
theorem regular_template (hb : resolver.IsBuiltin) {file : Option String} {source : String}
    (hok : (ofSource resolver file source).fault = none) :
    Part.Regular (ofSource resolver file source).tags (ofSource resolver file source).template :=
  (scanned_scanFrom hb hok).regular ""

end Scan

/-! ## Faults -/

namespace Interpolation

variable {position : Position} {locate : Locator}

theorem within_expressionParts (offset : Nat) (expression : List Char) :
    (expressionParts position builtin locate offset expression).Within (fun _ => True)
      Error.Declared := by
  have hbuiltin : (builtin expression).Within (fun _ => True) Error.Declared := by
    unfold builtin
    cases Directive.parts expression with
    | error fault => exact .semantic fault none
    | ok ps => trivial
  unfold expressionParts
  split
  · trivial
  · apply hbuiltin.bind
    intro ps _
    dsimp only
    split
    · exact .unknownDirective _ _
    · trivial

theorem within_tailParts (offset : Nat) (tail : List Char) :
    (tailParts locate offset tail).Within (fun _ => True) Error.Declared := by
  unfold tailParts
  split
  · exact .lexical _ _
  · trivial

theorem within_partsFrom (tail : List Char) (offset : Nat)
    (marked : List (List Char × List Char)) :
    (partsFrom position builtin locate tail offset marked).Within (fun _ => True)
      Error.Declared := by
  induction marked generalizing offset with
  | nil => exact within_tailParts offset tail
  | cons m marked ih =>
    unfold partsFrom
    apply (within_expressionParts _ _).bind
    intro inserted _
    apply (ih _).bind
    intro rest _
    trivial

end Interpolation

namespace Scan

variable {resolver : Resolver} {place : List Char → Interpolation.Locator}

theorem declared_of_attributesYield {ending : String} {attributes : Attributes} {fault : Error}
    (h : (attributesYield ending attributes).fault = some fault) : fault.Declared := by
  induction attributes with
  | nil => cases h
  | cons a attributes ih =>
    unfold attributesYield at h
    split at h
    · exact ih h
    · cases h
      exact .semantic _ none

theorem declared_of_ofExcept {x : Except Error (List Part)} {fault : Error}
    (hx : x.Within (fun _ => True) Error.Declared) (h : (Yield.ofExcept x).fault = some fault) :
    fault.Declared := by
  cases x with
  | ok ps => cases h
  | error e =>
    cases h
    exact hx

/-- The fault of a chunk. -/
theorem declared_of_chunkYield (hb : resolver.IsBuiltin) {locate : Interpolation.Locator}
    {chunk : Chunk} {fault : Error}
    (h : (chunkYield resolver.resolve locate chunk).fault = some fault) : fault.Declared := by
  cases chunk with
  | text run => exact declared_of_ofExcept (Interpolation.within_partsFrom _ _ _) h
  | comment run => exact declared_of_ofExcept (Interpolation.within_partsFrom _ _ _) h
  | tag tag =>
    change (tagYield resolver.resolve tag).fault = some fault at h
    unfold tagYield at h
    split at h
    · cases h
    · exact declared_of_attributesYield h
    · rename_i hresolve
      cases h
      exact (hb.within_resolve tag).of_error hresolve

/-- The fault of a call. -/
theorem declared_of_refused (hb : resolver.IsBuiltin) {cs : List Char} {fault : Error}
    (h : call resolver.resolve place cs = .refused fault) : fault.Declared := by
  have hne : cs ≠ [] := by
    rintro rfl
    cases h
  cases hread : Chunk.read cs with
  | error m =>
    rw [call_of_malformed hne hread] at h
    cases h
    exact .lexical _ _
  | ok r =>
    rw [call_of_read hne hread] at h
    split at h
    · rename_i hfault
      cases h
      exact declared_of_chunkYield hb hfault
    · cases h

/-- The fault that ends a scan. -/
theorem declared_of_fault (hb : resolver.IsBuiltin) {cs : List Char} {fault : Error}
    (h : (scanFrom resolver.resolve place cs).fault = some fault) : fault.Declared := by
  induction cs using scan_induction resolver.resolve place with
  | finished =>
    rw [scanFrom_of_finished] at h
    cases h
  | took cs span rest hcall ih =>
    rw [scanFrom_of_took hcall] at h
    exact ih h
  | refused cs fault' hcall =>
    rw [(scanFrom_of_refused hcall).2] at h
    cases h
    exact declared_of_refused hb hcall

end Scan
end HtmlTemplate
