import HtmlTemplate.Proofs.Scan.Tiling
import HtmlTemplate.Proofs.Tag.Quiet

/-!
# Expression — where the markers of a source go

In a text or comment every marker becomes one part of its own, and what is left of it are the
literals between the markers.  A literal tag is written part by part, and only a value is looked
through for markers: braces in a name or a key stay what they are.  So a whole marker is found in
the literal text of a template only if some literal tag has stray braces
(`Scan.markers_accounted`).

The main induction is on the spans of the source.  It carries the literal text that is still open
at the joint of two spans: no marker starts in it, nor with its last brace at the next span.
-/

namespace HtmlTemplate

open Text Marker

/-! ## Texts and comments -/

namespace Interpolation

/-- The part that stands for an expression. -/
def inserted (position : Position) (expression : List Char) : Part :=
  if expression.head?.any isWordChar then position.insert (String.ofList expression)
  else
    match Directive.parts expression with
    | .ok [part] => part
    | _ => .close

/-- The literals of a text, with a part for each marker between them. -/
def interleaved (position : Position) (p : Pieces) : List Part :=
  p.marked.flatMap (fun (literal, expression) =>
    Part.literal literal ++ [inserted position (strip expression)]) ++ Part.literal p.tail

/-- Every directive is one part, which stands alone. -/
theorem directive_single {expression : List Char} {ps : List Part}
    (h : Directive.parts expression = .ok ps) (hne : ps ≠ []) :
    ∃ part, ps = [part] ∧ part.isLone = true := by
  unfold Directive.parts at h
  split at h
  · cases h
    exact ⟨_, rfl, rfl⟩
  · unfold Directive.loop at h
    split at h
    · cases h
      exact ⟨_, rfl, rfl⟩
    · cases h
      exact ⟨_, rfl, rfl⟩
    · cases h
      exact ⟨_, rfl, rfl⟩
    · cases h
  · cases h
    exact ⟨_, rfl, rfl⟩
  · cases h
    exact ⟨_, rfl, rfl⟩
  · cases h
    exact absurd rfl hne

theorem isLone_inserted (position : Position) (expression : List Char) :
    (inserted position expression).isLone = true := by
  unfold inserted
  split
  · cases position <;> rfl
  · split
    · rename_i part h
      obtain ⟨_, he, hlone⟩ := directive_single h (List.cons_ne_nil _ _)
      cases he
      exact hlone
    · rfl

theorem expressionParts_eq {position : Position} {locate : Locator} {offset : Nat}
    {expression : List Char} {ps : List Part}
    (h : expressionParts position builtin locate offset expression = .ok ps) :
    ps = [inserted position expression] := by
  unfold expressionParts at h
  unfold inserted
  split at h
  · rename_i hword
    cases h
    rw [if_pos hword]
  · rename_i hword
    rw [if_neg hword]
    obtain ⟨ps', hread, h⟩ := Except.bind_eq_ok.1 h
    have hd : Directive.parts expression = .ok ps' := Except.mapError_eq_ok.1 hread
    split at h
    · cases h
    · rename_i hne
      cases h
      obtain ⟨part, rfl, -⟩ := directive_single hd (by simpa using hne)
      rw [hd]

theorem tailParts_eq {locate : Locator} {offset : Nat} {tail : List Char} {ps : List Part}
    (h : tailParts locate offset tail = .ok ps) :
    hasOpening tail = false ∧ ps = Part.literal tail := by
  unfold tailParts at h
  unfold hasOpening
  split at h
  · cases h
  · rename_i hnone
    cases h
    exact ⟨by rw [hnone]; rfl, rfl⟩

theorem partsFrom_eq {position : Position} {locate : Locator} {tail : List Char} {offset : Nat}
    {marked : List (List Char × List Char)} {ps : List Part}
    (h : partsFrom position builtin locate tail offset marked = .ok ps) :
    hasOpening tail = false ∧ ps = interleaved position ⟨marked, tail⟩ := by
  induction marked generalizing offset ps with
  | nil => exact tailParts_eq h
  | cons first marked ih =>
    obtain ⟨literal, expression⟩ := first
    unfold partsFrom at h
    obtain ⟨first, hfirst, h⟩ := Except.bind_eq_ok.1 h
    obtain ⟨rest, hrest, h⟩ := Except.bind_eq_ok.1 h
    cases h
    obtain ⟨htail, rfl⟩ := ih hrest
    refine ⟨htail, ?_⟩
    rw [expressionParts_eq hfirst]
    simp [interleaved]

/-- In the place of each marker of a text stands the one part that it is. -/
theorem parts_eq {position : Position} {locate : Locator} {cs : List Char} {ps : List Part}
    (h : parts position builtin locate cs = .ok ps) :
    hasOpening (Pieces.ofText cs).tail = false ∧
      ps = interleaved position (Pieces.ofText cs) :=
  partsFrom_eq h

/-- A text is joined to what stands before it up to its last literal. -/
theorem joinFrom_interleaved (position : Position) {p : Pieces} {pending : String}
    (hfirst : ∀ first ∈ p.literals.head?, Meets pending.toList first)
    (hliterals : ∀ literal ∈ p.literals, ¬ Complete literal) (htail : hasOpening p.tail = false) :
    Part.Unmarked (Part.joinFrom pending (interleaved position p)).1 ∧
      hasOpening (Part.joinFrom pending (interleaved position p)).2.toList = false ∧
      p.tail <:+ (Part.joinFrom pending (interleaved position p)).2.toList := by
  obtain ⟨marked, tail⟩ := p
  -- What is open in front of a marker ends there, so that the next literal starts a new text.
  induction marked generalizing pending with
  | nil =>
    have hjoin : Part.joinFrom pending (interleaved position ⟨[], tail⟩) =
        ([], pending ++ String.ofList tail) := by
      have h := Part.joinFrom_literal pending tail []
      rwa [List.append_nil] at h
    have hmeets : Meets pending.toList tail := hfirst tail rfl
    rw [hjoin, String.toList_append, String.toList_ofList]
    exact ⟨fun _ h => absurd h List.not_mem_nil, hmeets.hasOpening_append htail,
      List.suffix_append _ _⟩
  | cons first marked ih =>
    obtain ⟨literal, expression⟩ := first
    have hraw := Part.isRaw_of_isLone (isLone_inserted position (strip expression))
    have hjoin : Part.joinFrom pending
          (interleaved position ⟨(literal, expression) :: marked, tail⟩) =
        Part.joinFrom (pending ++ String.ofList literal)
          (inserted position (strip expression) :: interleaved position ⟨marked, tail⟩) := by
      rw [← Part.joinFrom_literal]
      simp [interleaved]
    have hpending : ¬ Complete (pending ++ String.ofList literal).toList := by
      rw [String.toList_append, String.toList_ofList]
      exact (hfirst literal rfl).not_complete_append (hliterals literal List.mem_cons_self)
    have hnil : ∀ first ∈ (⟨marked, tail⟩ : Pieces).literals.head?, Meets "".toList first :=
      fun first _ => Meets.nil first
    have hrest := ih hnil (fun l hl => hliterals l (List.mem_cons_of_mem _ hl)) htail
    rw [hjoin]
    refine ⟨Part.unmarked_joinFrom_part hraw hpending hrest.1, ?_⟩
    rw [Part.joinFrom_of_not_raw hraw]
    exact hrest.2

/-- A whole text is joined to what stands before it; what stays open ends as the text does. -/
theorem joinFrom_ofText (position : Position) {cs : List Char} {pending : String}
    (hmeets : Meets pending.toList cs) (htail : hasOpening (Pieces.ofText cs).tail = false) :
    let joined := Part.joinFrom pending (interleaved position (Pieces.ofText cs))
    Part.Unmarked joined.1 ∧ hasOpening joined.2.toList = false ∧
      ∀ c, cs.getLast? = some c → c ≠ '}' → joined.2.toList.getLast? = some c := by
  have hfirst : ∀ first ∈ (Pieces.ofText cs).literals.head?, Meets pending.toList first := by
    intro first hmem
    have hstart := Pieces.head_literals hmem
    rw [Pieces.text_ofText] at hstart
    exact hmeets.of_start hstart
  obtain ⟨hunmarked, hopen, front, hfront⟩ := joinFrom_interleaved position hfirst
    (fun _ => Pieces.not_complete_literal) htail
  refine ⟨hunmarked, hopen, fun c hlast hc => ?_⟩
  have htext : (Pieces.ofText cs).text.getLast? = some c := by
    rwa [Pieces.text_ofText]
  rw [← hfront, List.getLast?_append, Pieces.getLast?_tail htext hc]
  rfl

/-! ### Expressions that stand for parts, with any reader -/

section Passing

/-- Whether an expression starts like a value: with a letter, a digit or an underscore. -/
def IsValue (expression : List Char) : Prop := ∃ c ∈ expression.head?, isWordChar c = true

/-- Whether an expression stands for parts: for a value, or for something that the reader knows. -/
def Passes (reader : DirectiveReader) (expression : List Char) : Prop :=
  IsValue expression ∨ ∃ ps, reader expression = .ok ps ∧ ps ≠ []

/-- The parts of an expression that stands for some. -/
def resolved (position : Position) (reader : DirectiveReader) (expression : List Char) :
    List Part :=
  if expression.head?.any isWordChar then [position.insert (String.ofList expression)]
  else (reader expression).toOption.getD []

variable {position : Position} {reader : DirectiveReader} {locate : Locator}

theorem any_iff_isValue {expression : List Char} :
    expression.head?.any isWordChar = true ↔ IsValue expression := by
  simp [IsValue, Option.any_eq_true]

theorem expressionParts_of_passes {expression : List Char} (h : Passes reader expression)
    (offset : Nat) : expressionParts position reader locate offset expression =
      .ok (resolved position reader expression) := by
  unfold expressionParts resolved
  split
  · rfl
  · rename_i hvalue
    obtain ⟨ps, hread, hne⟩ := h.resolve_left (mt any_iff_isValue.2 hvalue)
    have hnonempty : ps.isEmpty = false := by simpa using hne
    rw [hread]
    simp [bind, Except.bind, hnonempty, pure, Except.pure, Except.toOption]

/-- Expressions that stand for parts are gone through one after another. -/
theorem partsFrom_append {tail : List Char} {before : List (List Char × List Char)}
    (h : ∀ m ∈ before, Passes reader (strip m.2)) (offset : Nat)
    (after : List (List Char × List Char)) :
    partsFrom position reader locate tail offset (before ++ after) =
      (partsFrom position reader locate tail
        (offset + (⟨before, []⟩ : Pieces).text.length) after).map fun rest =>
          before.flatMap (fun m => Part.literal m.1 ++ resolved position reader (strip m.2)) ++
            rest := by
  induction before generalizing offset with
  | nil =>
    cases hafter : partsFrom position reader locate tail offset after <;>
      simp [Pieces.text, hafter, Except.map]
  | cons first before ih =>
    obtain ⟨literal, expression⟩ := first
    obtain ⟨hfirst, h⟩ := List.forall_mem_cons.1 h
    have hlength : offset + (⟨(literal, expression) :: before, []⟩ : Pieces).text.length =
        offset + literal.length + expression.length + 4 +
          (⟨before, []⟩ : Pieces).text.length := by
      simp only [Pieces.text, List.flatMap_cons, List.length_append, List.length_cons,
        List.length_nil]
      omega
    rw [List.cons_append, partsFrom, expressionParts_of_passes hfirst, ih h, hlength]
    cases partsFrom position reader locate tail
      (offset + literal.length + expression.length + 4 + (⟨before, []⟩ : Pieces).text.length)
      after <;> simp [bind, Except.bind, Except.map, pure, Except.pure]

end Passing

end Interpolation

/-! ## Tags -/

namespace Attribute

/-- Braces of an attribute that none of its rules looks for: in its key, or in a value that holds
no whole marker. -/
def Stray (key : String) (value : AttributeValue) : Prop :=
  hasOpening key.toList = true ∨
    ∃ text, value = .text text ∧ (Pieces.ofText text.toList).marked = [] ∧
      hasOpening text.toList = true

/-- A key without a mark is written by the plain rules. -/
theorem parts_of_unmarked {key : String} (hflag : key.toList.head? ≠ some '?')
    (hshorthand : key.toList.head? ≠ some ':') (value : AttributeValue) :
    parts key value = .ok (plainParts key value) := by
  unfold parts
  split
  · rename_i name hkey
    exact absurd (congrArg List.head? hkey) hflag
  · rename_i name hkey
    exact absurd (congrArg List.head? hkey) hshorthand
  · rfl

/-- What an attribute is written with as it stands starts with a blank, and opening braces in it
are stray ones. -/
theorem raw_of_parts {key : String} {value : AttributeValue} {ps : List Part}
    (h : parts key value = .ok ps) {text : String} (hmem : .raw text ∈ ps) :
    ∃ rest, text.toList = ' ' :: rest ∧ (hasOpening rest = true → Stray key value) := by
  unfold parts at h
  split at h
  · rename_i name hkey
    cases h
    unfold flagParts at hmem
    split at hmem
    · cases hmem
    · split at hmem
      · cases List.mem_singleton.1 hmem
      · cases List.mem_singleton.1 hmem
        refine ⟨name, by simp, fun h => Or.inl ?_⟩
        rw [hkey]
        exact hasOpening_of_cons h
  · unfold shorthandParts at h
    split at h
    · cases h
    · cases h
      cases List.mem_singleton.1 hmem
  · cases h
    unfold plainParts at hmem
    split at hmem
    · cases List.mem_singleton.1 hmem
      exact ⟨key.toList, by simp, Or.inl⟩
    · rename_i value
      dsimp only at hmem
      split at hmem
      · cases List.mem_singleton.1 hmem
      · split at hmem
        · rename_i hmarked
          cases List.mem_singleton.1 hmem
          refine ⟨key.toList ++ '=' :: '"' :: (value.toList ++ ['"']), by simp, fun h => ?_⟩
          rcases hasOpening_beside (by decide) h with h | h
          · exact Or.inl h
          · rcases hasOpening_beside (by decide) (hasOpening_behind (by decide) h) with h | h
            · exact Or.inr ⟨value, rfl, List.isEmpty_iff.1 hmarked, h⟩
            · cases h
        · rcases List.mem_cons.1 hmem with he | hmem
          · cases he
            refine ⟨key.toList ++ ['='], by simp, fun h => ?_⟩
            rcases hasOpening_beside (by decide) h with h | h
            · exact Or.inl h
            · cases h
          · cases List.mem_singleton.1 hmem

/-- The parts of an attribute, none if it has a fault. -/
def written (a : String × AttributeValue) : List Part := (parts a.1 a.2).toOption.getD []

end Attribute

/-- Braces of a literal tag that are looked for nowhere: in its name, or stray in an attribute. -/
def Tag.Stray (tag : Tag) : Prop :=
  hasOpening tag.name.toList = true ∨ ∃ a ∈ tag.attributes, Attribute.Stray a.1 a.2

/-- The parts of a literal tag: its opening, those of each attribute, and its ending. -/
def Tag.WrittenAs (tag : Tag) (ps : List Part) : Prop :=
  (∀ a ∈ tag.attributes, Attribute.parts a.1 a.2 = .ok (Attribute.written a)) ∧
    ps = .raw tag.opening :: (tag.attributes.flatMap Attribute.written ++ [.raw tag.ending])

namespace Scan

theorem attributesYield_eq {ending : String} {attributes : Attributes} {ps : List Part}
    (h : attributesYield ending attributes = ⟨ps, none⟩) :
    (∀ a ∈ attributes, Attribute.parts a.1 a.2 = .ok (Attribute.written a)) ∧
      ps = attributes.flatMap Attribute.written ++ [.raw ending] := by
  induction attributes generalizing ps with
  | nil =>
    cases h
    exact ⟨fun _ h => absurd h List.not_mem_nil, rfl⟩
  | cons a attributes ih =>
    obtain ⟨key, value⟩ := a
    unfold attributesYield at h
    split at h
    · rename_i first hfirst
      have hwritten : Attribute.written (key, value) = first := by
        rw [Attribute.written, hfirst]
        rfl
      cases hrest : attributesYield ending attributes with
      | mk rest fault =>
        rw [hrest] at h
        obtain ⟨rfl, rfl⟩ := Yield.mk.inj h
        obtain ⟨hgiven, rfl⟩ := ih hrest
        rw [List.forall_mem_cons, List.flatMap_cons, hwritten, List.append_assoc]
        exact ⟨⟨hfirst, hgiven⟩, rfl⟩
    · cases h

theorem writtenAs_of_literalYield {tag : Tag} {ps : List Part}
    (h : literalYield tag = ⟨ps, none⟩) : tag.WrittenAs ps := by
  unfold literalYield at h
  cases hrest : attributesYield tag.ending tag.attributes with
  | mk rest fault =>
    rw [hrest] at h
    obtain ⟨rfl, rfl⟩ := Yield.mk.inj h
    obtain ⟨hgiven, rfl⟩ := attributesYield_eq hrest
    exact ⟨hgiven, rfl⟩

end Scan

namespace Tag

theorem head_opening (tag : Tag) : ∃ rest, tag.opening.toList = '<' :: rest ∧
    (hasOpening rest = true → hasOpening tag.name.toList = true) := by
  unfold opening
  split
  · exact ⟨'/' :: tag.name.toList, by simp, hasOpening_behind (by decide)⟩
  · exact ⟨tag.name.toList, by simp, id⟩

/-- No marker starts in what a tag without stray braces is written with, nor with its first
character. -/
theorem raw_of_writtenAs {tag : Tag} {ps : List Part} (h : tag.WrittenAs ps) (hstray : ¬ tag.Stray)
    {text : String} (hmem : .raw text ∈ ps) :
    hasOpening text.toList = false ∧ text.toList.head? ≠ some '{' := by
  obtain ⟨hgiven, rfl⟩ := h
  have hspaced : ∀ (c : Char) (rest : List Char), c ≠ '{' → text.toList = c :: rest →
      (hasOpening rest = true → tag.Stray) →
      hasOpening text.toList = false ∧ text.toList.head? ≠ some '{' := by
    intro c rest hc htext hrest
    rw [htext]
    exact ⟨Bool.eq_false_iff.2 fun h => hstray (hrest (hasOpening_behind hc h)),
      fun h => hc (Option.some.inj h)⟩
  rcases List.mem_cons.1 hmem with he | hmem
  · cases he
    obtain ⟨rest, hrest, hname⟩ := tag.head_opening
    exact hspaced '<' rest (by decide) hrest fun h => Or.inl (hname h)
  rcases List.mem_append.1 hmem with hmem | hmem
  · obtain ⟨a, ha, hmem⟩ := List.mem_flatMap.1 hmem
    obtain ⟨rest, hrest, hkey⟩ := Attribute.raw_of_parts (hgiven a ha) hmem
    exact hspaced ' ' rest (by decide) hrest fun h => Or.inr ⟨a, ha, hkey h⟩
  · cases List.mem_singleton.1 hmem
    unfold ending
    split
    · exact ⟨rfl, by decide⟩
    · exact ⟨rfl, by decide⟩

/-- A tag without stray braces is joined to what stands before it up to its `>`. -/
theorem joinFrom_writtenAs {tag : Tag} {ps : List Part} (h : tag.WrittenAs ps)
    (hstray : ¬ tag.Stray) {pending : String} (hpending : hasOpening pending.toList = false) :
    Part.Unmarked (Part.joinFrom pending ps).1 ∧
      hasOpening (Part.joinFrom pending ps).2.toList = false ∧
      (Part.joinFrom pending ps).2.toList.getLast? = some '>' := by
  obtain ⟨hunmarked, hopen⟩ := Part.joinFrom_plain (fun _ => raw_of_writtenAs h hstray) hpending
  refine ⟨hunmarked, hopen, ?_⟩
  have hending : tag.ending.toList.getLast? = some '>' := by
    unfold ending
    split <;> rfl
  rw [h.2, ← List.cons_append, Part.joinFrom_append]
  change (_ ++ tag.ending).toList.getLast? = _
  rw [String.toList_append, List.getLast?_append, hending]
  rfl

end Tag

/-! ## Spans -/

namespace Scan

/-- What becomes of a span: a text or comment with a part for each of its markers, a directive tag
without any literal text, or a literal tag with its attributes by their rules. -/
def Span.Accounted (reader : TagReader) (span : Span) : Prop :=
  match span.chunk with
  | .text cs =>
    cs = span.chars ∧ hasOpening (Pieces.ofText cs).tail = false ∧
      span.parts = Interpolation.interleaved .body (Pieces.ofText cs)
  | .comment cs =>
    cs = span.chars ∧ hasOpening (Pieces.ofText cs).tail = false ∧
      span.parts = Interpolation.interleaved .comment (Pieces.ofText cs)
  | .tag tag =>
    reader tag = .ok (some span.parts) ∧ Part.Quiet span.parts ∨
      reader tag = .ok none ∧ tag.WrittenAs span.parts

section Spans

variable {reader : TagReader} {place : List Char → Interpolation.Locator}

theorem ofExcept_eq {e : Except Error (List Part)} {ps : List Part}
    (h : Yield.ofExcept e = ⟨ps, none⟩) : e = .ok ps := by
  cases e with
  | error fault => cases h
  | ok ps' =>
    cases h
    rfl

/-- Every span that is taken is accounted for. -/
theorem accounted_of_took (hsilent : TagReader.Silent reader) {cs rest : List Char} {span : Span}
    (h : call reader place cs = .took span rest) : span.Accounted reader := by
  obtain ⟨hcs, -, -, hread, hyield⟩ := of_call_took h
  obtain ⟨chars, chunk, ps⟩ := span
  cases chunk with
  | text run =>
    have hrun := hcs.symm.trans (Chunk.read_verbatim (Or.inl hread))
    obtain ⟨htail, hparts⟩ := Interpolation.parts_eq (ofExcept_eq hyield)
    exact ⟨(List.append_cancel_right hrun).symm, htail, hparts⟩
  | comment run =>
    have hrun := hcs.symm.trans (Chunk.read_verbatim (Or.inr hread))
    obtain ⟨htail, hparts⟩ := Interpolation.parts_eq (ofExcept_eq hyield)
    exact ⟨(List.append_cancel_right hrun).symm, htail, hparts⟩
  | tag tag =>
    change tagYield reader tag = ⟨ps, none⟩ at hyield
    unfold tagYield at hyield
    split at hyield
    · rename_i hreader
      cases hyield
      exact Or.inl ⟨hreader, hsilent tag _ hreader⟩
    · rename_i hreader
      exact Or.inr ⟨hreader, writtenAs_of_literalYield hyield⟩
    · cases hyield

/-- No whole marker stands in the literal text up to the end of a span, and none starts in the text
that is open there. -/
theorem meets_of_took (hsilent : TagReader.Silent reader) {cs rest : List Char} {span : Span}
    (h : call reader place cs = .took span rest)
    (hstray : ∀ tag ∈ askedTags span.chunk, reader tag = .ok none → ¬ tag.Stray)
    {pending : String} (hmeets : Meets pending.toList cs) :
    Part.Unmarked (Part.joinFrom pending span.parts).1 ∧
      Meets (Part.joinFrom pending span.parts).2.toList rest := by
  have haccounted := accounted_of_took hsilent h
  obtain ⟨rfl, -, hfits, -⟩ := of_call_took h
  have hchars := hmeets.of_start (List.prefix_append span.chars rest)
  obtain ⟨chars, chunk, ps⟩ := span
  cases chunk with
  | text run =>
    -- A text ends where markup starts, and markup does not start with a brace.
    obtain ⟨rfl, htail, rfl⟩ := haccounted
    obtain ⟨hunmarked, hopen, -⟩ := Interpolation.joinFrom_ofText .body hchars htail
    refine ⟨hunmarked, Meets.of_head hopen ?_⟩
    rcases hfits.2 with hnil | ⟨c, tail, hmarkup, -⟩
    · rw [hnil]
      exact nofun
    · rw [hmarkup]
      exact fun hc => nomatch Option.some.inj hc
  | comment run =>
    -- A comment may have text behind it, but only if it ends with a `>`.
    obtain ⟨rfl, htail, rfl⟩ := haccounted
    obtain ⟨hunmarked, hopen, hlast⟩ := Interpolation.joinFrom_ofText .comment hchars htail
    refine ⟨hunmarked, hopen, fun hbrace => ?_⟩
    obtain ⟨body, -, hclosed | ⟨-, hnil⟩⟩ := hfits
    · change run = _ at hclosed
      have hclose := hlast '>' (hclosed ▸ List.getLast?_concat) (by decide)
      exact nomatch Option.some.inj (hclose.symm.trans hbrace)
    · rw [hnil]
      exact nofun
  | tag tag =>
    rcases haccounted with ⟨-, hquiet⟩ | ⟨hreader, hwritten⟩
    · obtain ⟨hunmarked, -⟩ := Part.joinFrom_plain
        (fun text (hmem : .raw text ∈ ps) => nomatch hquiet.2 _ hmem) hmeets.1
      refine ⟨hunmarked, ?_⟩
      rw [hquiet.joinFrom]
      exact Meets.nil rest
    · obtain ⟨hunmarked, hopen, hclose⟩ := Tag.joinFrom_writtenAs hwritten
        (hstray tag List.mem_cons_self hreader) hmeets.1
      exact ⟨hunmarked, hopen, fun hbrace => nomatch Option.some.inj (hclose.symm.trans hbrace)⟩

/-- A scan that asks about no literal tag with stray braces finds no whole marker in literal
text. -/
theorem unmarked_scanFrom (hsilent : TagReader.Silent reader) {cs : List Char}
    (hok : (scanFrom reader place cs).fault = none)
    (hstray : ∀ tag ∈ (scanFrom reader place cs).tags, reader tag = .ok none → ¬ tag.Stray)
    {pending : String} (hmeets : Meets pending.toList cs) :
    Part.Unmarked (Part.coalesceFrom pending (scanFrom reader place cs).parts) := by
  -- The text that is open carries over from span to span: no marker may start in it.
  induction cs using scan_induction reader place generalizing pending with
  | finished =>
    rw [scanFrom_of_finished]
    intro text hmem hcomplete
    have htext : text = pending := by
      change .raw text ∈ Part.coalesceFrom pending [] at hmem
      unfold Part.coalesceFrom at hmem
      split at hmem
      · cases hmem
      · exact Part.raw.inj (List.mem_singleton.1 hmem)
    rw [htext] at hcomplete
    exact Bool.eq_false_iff.1 hmeets.1 hcomplete.hasOpening
  | took cs span rest h ih =>
    rw [scanFrom_of_took h] at hok hstray ⊢
    obtain ⟨hunmarked, hrest⟩ := meets_of_took hsilent h
      (fun tag htag => hstray tag (List.mem_append_left _ htag)) hmeets
    have hafter := ih hok (fun tag htag => hstray tag (List.mem_append_right _ htag)) hrest
    intro text hmem
    change .raw text ∈ Part.coalesceFrom pending (span.parts ++ _) at hmem
    rw [Part.coalesceFrom_append] at hmem
    exact (List.mem_append.1 hmem).elim (hunmarked text) (hafter text)
  | refused cs fault h =>
    rw [(scanFrom_of_refused h).2] at hok
    cases hok

end Spans

section Source

variable {resolver : Resolver} {file : Option String} {source : String}

/-- The parts of a literal tag are among those of the scan, in one piece. -/
theorem exists_parts_of_tag (hok : (ofSource resolver file source).fault = none) {tag : Tag}
    (hmem : tag ∈ (ofSource resolver file source).tags) (hleft : resolver.resolve tag = .ok none) :
    ∃ before after,
      (ofSource resolver file source).parts = before ++ ((literalYield tag).parts ++ after) := by
  obtain ⟨hparts, htags, -⟩ := scanFrom_eq_spans hok
  unfold ofSource at hmem ⊢
  rw [htags] at hmem
  obtain ⟨span, hspan, htag⟩ := List.mem_flatMap.1 hmem
  obtain ⟨before, after, hspans⟩ := List.append_of_mem hspan
  obtain ⟨cs, rest, hcall⟩ := exists_call_of_mem hspan
  have hyield := (of_call_took hcall).2.2.2.2
  have hspanParts : span.parts = (literalYield tag).parts := by
    obtain ⟨chars, chunk, ps⟩ := span
    cases chunk with
    | text run => cases htag
    | comment run => cases htag
    | tag tag' =>
      obtain rfl := List.mem_singleton.1 htag
      change tagYield resolver.resolve tag = _ at hyield
      unfold tagYield at hyield
      rw [hleft] at hyield
      exact (congrArg Yield.parts hyield).symm
  refine ⟨before.flatMap Span.parts, after.flatMap Span.parts, ?_⟩
  rw [hparts, hspans, List.flatMap_append, List.flatMap_cons, hspanParts]

/-- What is written of a literal tag is found in the literal text of the template. -/
theorem exists_raw_of_tag (hok : (ofSource resolver file source).fault = none) {tag : Tag}
    (hmem : tag ∈ (ofSource resolver file source).tags) (hleft : resolver.resolve tag = .ok none)
    {text : String} (hraw : .raw text ∈ Part.coalesce (literalYield tag).parts) :
    ∃ longer, .raw longer ∈ (ofSource resolver file source).template ∧
      text.toList <:+: longer.toList := by
  obtain ⟨before, after, hparts⟩ := exists_parts_of_tag hok hmem hleft
  obtain ⟨longer, hlonger, hinfix⟩ :=
    Part.exists_raw_of_coalesceFrom (Part.joinFrom "" before).2 after hraw
  refine ⟨longer, ?_, hinfix⟩
  rw [template, hparts, Part.coalesce, Part.coalesceFrom_append]
  rw [String.append_empty] at hlonger
  exact List.mem_append_right _ hlonger

/-- Every marker of a source is accounted for, unless it stands in the braces of a literal tag.

The spans of a source that a built-in resolver scans without fault are the source, and what they
become is the template, its neighbouring literals joined: a text or comment has one part in the
place of each of its markers, a directive tag no literal text, and a literal tag its attributes by
their rules.  If a literal text of the template holds a whole marker all the same, then some literal
tag has stray braces; and if what is written of a literal tag holds one, so does the template. -/
theorem markers_accounted (hb : resolver.IsBuiltin)
    (hok : (ofSource resolver file source).fault = none) :
    (∃ spans : List Span, spans.flatMap Span.chars = source.toList ∧
      (ofSource resolver file source).template = Part.coalesce (spans.flatMap Span.parts) ∧
      ∀ span ∈ spans, span.Accounted resolver.resolve) ∧
    (∀ text, .raw text ∈ (ofSource resolver file source).template → Complete text.toList →
      ∃ tag ∈ (ofSource resolver file source).tags,
        resolver.resolve tag = .ok none ∧ tag.Stray) ∧
    ∀ tag ∈ (ofSource resolver file source).tags, resolver.resolve tag = .ok none →
      ∀ text, .raw text ∈ Part.coalesce (literalYield tag).parts → Complete text.toList →
        ∃ longer, .raw longer ∈ (ofSource resolver file source).template ∧
          Complete longer.toList := by
  obtain ⟨hparts, -, hchars⟩ := scanFrom_eq_spans hok
  refine ⟨⟨_, hchars, congrArg Part.coalesce hparts, ?_⟩, ?_, ?_⟩
  · intro span hspan
    obtain ⟨cs, rest, hcall⟩ := exists_call_of_mem hspan
    exact accounted_of_took hb.silent hcall
  · intro text hraw hcomplete
    refine Classical.byContradiction fun hnone => ?_
    have hstray : ∀ tag ∈ (ofSource resolver file source).tags,
        resolver.resolve tag = .ok none → ¬ tag.Stray :=
      fun tag hmem hleft hstray => hnone ⟨tag, hmem, hleft, hstray⟩
    have hmeets : Meets "".toList source.toList := Meets.nil _
    exact unmarked_scanFrom hb.silent hok hstray hmeets text hraw hcomplete
  · intro tag hmem hleft text hraw hcomplete
    obtain ⟨longer, hlonger, hinfix⟩ := exists_raw_of_tag hok hmem hleft hraw
    exact ⟨longer, hlonger, hcomplete.mono hinfix⟩

end Source

/-- A name with braces, beside a value and a text with markers. -/
theorem markers_accounted_name :
    Resolver.builtin.IsBuiltin ∧
      (ofSource Resolver.builtin none
        "<p\x7b\x7bn\x7d\x7d a=\x7b\x7bx\x7d\x7d>\x7b\x7by\x7d\x7d").fault = none ∧
      ∃ longer, .raw longer ∈ (ofSource Resolver.builtin none
        "<p\x7b\x7bn\x7d\x7d a=\x7b\x7bx\x7d\x7d>\x7b\x7by\x7d\x7d").template ∧
        Complete longer.toList := by
  have hb : Resolver.builtin.IsBuiltin := rfl
  have hscan : ofSource Resolver.builtin none
      "<p\x7b\x7bn\x7d\x7d a=\x7b\x7bx\x7d\x7d>\x7b\x7by\x7d\x7d" =
      ⟨[.tag, .text], [.raw "<p\x7b\x7bn\x7d\x7d", .optional "a" "x", .raw ">", .body "y"],
        [⟨"p\x7b\x7bn\x7d\x7d", [("a", .text "\x7b\x7bx\x7d\x7d")], false, false⟩], none⟩ := by
    with_unfolding_all rfl
  have hleft : Resolver.builtin.resolve
      ⟨"p\x7b\x7bn\x7d\x7d", [("a", .text "\x7b\x7bx\x7d\x7d")], false, false⟩ = .ok none := by
    with_unfolding_all rfl
  have hraw : Part.coalesce (literalYield
      ⟨"p\x7b\x7bn\x7d\x7d", [("a", .text "\x7b\x7bx\x7d\x7d")], false, false⟩).parts =
      [.raw "<p\x7b\x7bn\x7d\x7d", .optional "a" "x", .raw ">"] := by
    with_unfolding_all rfl
  have hok := congrArg Scan.fault hscan
  have htags := congrArg Scan.tags hscan
  exact ⟨hb, hok, (markers_accounted hb hok).2.2 _ (htags ▸ List.mem_cons_self) hleft _
    (hraw ▸ List.mem_cons_self) ⟨['<', 'p'], ['n'], [], by decide, rfl⟩⟩

/-- A marker in the name of a tag is literal text. -/
theorem literal_marker_in_name :
    (ofSource Resolver.builtin none "<h\x7b\x7blevel\x7d\x7d>").fault = none ∧
      .raw "<h\x7b\x7blevel\x7d\x7d>" ∈
        (ofSource Resolver.builtin none "<h\x7b\x7blevel\x7d\x7d>").template ∧
      Complete "<h\x7b\x7blevel\x7d\x7d>".toList := by
  have hscan : ofSource Resolver.builtin none "<h\x7b\x7blevel\x7d\x7d>" =
      ⟨[.tag], [.raw "<h\x7b\x7blevel\x7d\x7d", .raw ">"],
        [⟨"h\x7b\x7blevel\x7d\x7d", [], false, false⟩], none⟩ := by
    with_unfolding_all rfl
  rw [hscan]
  exact ⟨rfl, List.mem_cons_self, ['<', 'h'], "level".toList, ['>'], by decide, rfl⟩

end Scan
end HtmlTemplate
