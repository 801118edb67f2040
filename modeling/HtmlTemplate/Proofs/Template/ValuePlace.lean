import HtmlTemplate.Proofs.Scan.Expression
import HtmlTemplate.Proofs.Tag.Directive
import HtmlTemplate.Proofs.Template.Admission
import HtmlTemplate.Proofs.Template.Runnable

/-!
# ValuePlace — a path is read alike wherever it stands

A value is inserted in body text, in a comment, or in an attribute: as its whole value, between
texts, or as a flag.  The marker of a path gives the part of its place, and the code of the part
calls a helper on what the path reads (`ValuePlace.reads_iff`).  Texts and comments know a value by
its first character, and there a name that starts with `$` is taken for a directive, which no other
place does.
-/

namespace HtmlTemplate

open Text

/-- A place where a value is inserted, with what stands around it. -/
inductive ValuePlace where
  | body (before after : List Char)
  | comment (before after : List Char)
  /-- The whole value of a tag's only attribute. -/
  | whole (name key : List Char)
  /-- Between texts of a tag's only attribute. -/
  | within (name key before after : List Char)
  /-- The whole value of a tag's only attribute, which is there if the value is true. -/
  | flag (name key : List Char)
  deriving DecidableEq, Repr

namespace ValuePlace

/-! ## Sources and parts -/

/-- The marker of a path and what follows it. -/
def marked (path : String) (rest : List Char) : List Char :=
  '{' :: '{' :: (path.toList ++ '}' :: '}' :: rest)

/-- A tag with one attribute between quotes. -/
def written (name key value : List Char) : WrittenTag :=
  ⟨false, name, [⟨[' '], key, .quoted value⟩], [], false⟩

/-- The place with the marker of a path in it. -/
def source (path : String) : ValuePlace → List Char
  | body before after => before ++ marked path after
  | comment before after => '<' :: '!' :: (before ++ marked path (after ++ ['>']))
  | whole name key => (written name key (marked path [])).text
  | within name key before after => (written name key (before ++ marked path after)).text
  | flag name key => (written name ('?' :: key) (marked path [])).text

/-- The literal text in front of the value. -/
def front : ValuePlace → List Char
  | body before _ => before
  | comment before _ => '<' :: '!' :: before
  | whole name _ => '<' :: name
  | within name key _ _ => '<' :: (name ++ ' ' :: (key ++ ['=']))
  | flag name _ => '<' :: name

/-- The literal text behind the value. -/
def back : ValuePlace → List Char
  | body _ after => after
  | comment _ after => after ++ ['>']
  | _ => ['>']

/-- What is inserted for a path. -/
def insertion (path : String) : ValuePlace → Insertion
  | body _ _ => .body path
  | comment _ _ => .comment path
  | whole _ key => .optional (String.ofList key) path
  | within _ _ before after => .composite [String.ofList before, path, String.ofList after]
  | flag _ key => .flag (String.ofList key) path

/-- The parts of the place: what is inserted, between literal texts. -/
def parts (path : String) (place : ValuePlace) : List Part :=
  Part.literal place.front ++ (place.insertion path).part :: Part.literal place.back

/-- The code of literal text, if there is any. -/
def literalCode (text : List Char) : List Expr :=
  if text.isEmpty then [] else [.literal (String.ofList text)]

/-- The call of a helper on what is read, whose code is `value`. -/
def insertionCode (value : Expr) : ValuePlace → List Expr
  | body _ _ => [Expr.helperCall .renderBody [value]]
  | comment _ _ => [Expr.helperCall .ifDefined [value]]
  | whole _ key => [Expr.helperCall .ifDefined [value, attributeCode (String.ofList key)]]
  | within _ _ before after =>
    [.literal ("\"" ++ String.ofList before), Expr.helperCall .ifDefined [value],
      .literal (String.ofList after ++ "\"")]
  | flag _ key =>
    [Expr.helperCall .ifCheck [value, .function none (.literal (" " ++ String.ofList key))]]

/-- The code of the place. -/
def code (value : Expr) (place : ValuePlace) : List Expr :=
  literalCode place.front ++ (place.insertionCode value ++ literalCode place.back)

/-! ## Well-formed places -/

/-- A name and a key that are read as such, of a tag that is no directive and of an attribute
without a mark. -/
structure Keyed (config : Config) (name key : List Char) : Prop where
  named : ∃ c ∈ name.head?, isWordChar c = true
  nameChars : ∀ c ∈ name, isBlank c = false ∧ c ≠ '>'
  noSlash : name.getLast? ≠ some '/'
  unclaimed : ∀ tag : Tag, tag.name = String.ofList name → config.resolver.resolve tag = .ok none
  keyed : key ≠ []
  keyChars : ∀ c ∈ key, isBlank c = false ∧ c ≠ '/' ∧ c ≠ '>' ∧ c ≠ '='
  unmarked : ∀ c ∈ key.head?, c ≠ '?' ∧ c ≠ ':'

/-- Whether nothing around the value starts a marker or ends the place, and a composite has text
around the value. -/
def Fits (config : Config) : ValuePlace → Prop
  | body before after => ∀ c ∈ before ++ after, c ≠ '{' ∧ c ≠ '<'
  | comment before after => ∀ c ∈ before ++ after, c ≠ '{' ∧ c ≠ '>'
  | whole name key => Keyed config name key
  | within name key before after =>
    Keyed config name key ∧ before ++ after ≠ [] ∧
      ∀ c ∈ before ++ after, c ≠ '{' ∧ c ≠ '"' ∧ c ≠ '\n'
  | flag name key => Keyed config name key

/-- Whether the value stands in body text or a comment. -/
def isText : ValuePlace → Bool
  | body _ _ => true
  | comment _ _ => true
  | _ => false

end ValuePlace

/-! ## Texts with one marker -/

open ValuePlace

/-- A path has no characters of markup, and none that ends a value. -/
theorem Path.WellSpelled.not_mem {path : String} (h : WellSpelled path) {c : Char}
    (hc : c ∈ ['{', '}', '<', '>', '"', '\n']) : c ∉ path.toList := by
  have hsigns : (['{', '}', '<', '>', '"', '\n'].all fun c => !isNameChar c && c != '.') = true :=
    rfl
  obtain ⟨hname, hdot⟩ := Bool.and_eq_true_iff.1 (List.all_eq_true.1 hsigns c hc)
  exact h.isPlain.not_mem (by simpa using hname) (by simpa using hdot)

namespace ValuePlace

/-- No marker of a path holds markup or ends a value. -/
theorem not_mem_marked {path : String} (hpath : Path.WellSpelled path) {c : Char}
    (hc : c ∈ ['<', '>', '"', '\n']) {rest : List Char} (hrest : c ∉ rest) :
    c ∉ marked path rest := by
  have hsigns : (['<', '>', '"', '\n'].all fun c => c != '{' && c != '}') = true := rfl
  obtain ⟨hopen, hclose⟩ := Bool.and_eq_true_iff.1 (List.all_eq_true.1 hsigns c hc)
  have hcs := hpath.not_mem (List.mem_cons_of_mem '{' (List.mem_cons_of_mem '}' hc))
  rw [bne_iff_ne] at hopen hclose
  simp [marked, hopen, hclose, hcs, hrest]

theorem ofText_marked {before after : List Char} {path : String}
    (hbefore : '{' ∉ before) (hafter : '{' ∉ after) (hpath : Path.WellSpelled path) :
    Pieces.ofText (before ++ marked path after) = ⟨[(before, path.toList)], after⟩ := by
  unfold marked
  rw [Pieces.ofText_literal_marker (Marker.hasOpening_of_not_mem hbefore)
      (fun h => hbefore (List.mem_of_getLast? h))
      (Marker.readExpression_of_not_mem (hpath.not_mem (by decide)) (hpath.not_mem (by decide)) _),
    Pieces.ofText_of_not_mem hafter]

end ValuePlace

namespace Interpolation

/-- The marker of a path inserts its value, unless the path starts with `$`. -/
theorem parts_marked (position : Position) (locate : Locator) {before after : List Char}
    {path : String} (hbefore : '{' ∉ before) (hafter : '{' ∉ after)
    (hpath : Path.WellSpelled path) :
    Interpolation.parts position builtin locate (before ++ marked path after) =
      if path.toList.head? = some '$' then
        .error (.template (.unknownDirective path) (locate before.length))
      else .ok (Part.literal before ++ position.insert path :: Part.literal after) := by
  have hstrip : strip path.toList = path.toList := hpath.isPlain.writable.stripped
  have htail : ∀ offset, tailParts locate offset after = .ok (Part.literal after) := by
    intro offset
    have hnone := Marker.hasOpening_of_not_mem hafter
    rw [Marker.hasOpening, Option.isSome_eq_false_iff, Option.isNone_iff_eq_none] at hnone
    rw [tailParts, hnone]
  have hexpression : ∀ offset, expressionParts position builtin locate offset path.toList =
      if path.toList.head? = some '$' then
        .error (.template (.unknownDirective path) (locate offset))
      else .ok [position.insert path] := by
    intro offset
    obtain ⟨c, hhead, hname⟩ := Path.head_of_segments hpath.segment
    obtain ⟨tail, hcs⟩ := List.head?_eq_some_iff.1 hhead
    rw [hhead]
    by_cases hdollar : c = '$'
    · subst hdollar
      have hexpression : path = String.ofList ('$' :: tail) := by rw [← hcs, String.ofList_toList]
      rw [if_pos rfl, hcs, hexpression]
      rfl
    · have hword : isWordChar c = true := by simpa [Path.isNameChar, hdollar] using hname
      have hany : path.toList.head?.any isWordChar = true := by rw [hhead]; exact hword
      rw [if_neg (by simpa using hdollar), expressionParts, if_pos hany, String.ofList_toList]
  unfold Interpolation.parts
  rw [ofText_marked hbefore hafter hpath]
  simp only [partsFrom, hstrip, hexpression, htail]
  split
  · simp [bind, Except.bind]
  · simp [bind, Except.bind, pure, Except.pure]

end Interpolation

namespace Chunk

theorem readComment_close {cs : List Char} (h : '>' ∉ cs) (rest : List Char) :
    readComment (cs ++ '>' :: rest) = (cs ++ ['>'], rest) := by
  induction cs with
  | nil => rfl
  | cons c cs ih =>
    rw [List.mem_cons, not_or] at h
    have hne : (c == '>') = false := beq_false_of_ne (Ne.symm h.1)
    rw [List.cons_append, readComment, hne, ih h.2]
    rfl

theorem read_comment {cs : List Char} (h : '>' ∉ cs) :
    read ('<' :: '!' :: (cs ++ ['>'])) = .ok (.comment ('<' :: '!' :: (cs ++ ['>'])), []) := by
  have hopen : '>' ∉ '<' :: '!' :: cs := by simp [h]
  have hstart : startsMarkup ('<' :: '!' :: (cs ++ ['>'])) = true := rfl
  rw [read, if_pos hstart, ← List.cons_append, ← List.cons_append, readComment_close hopen []]

end Chunk

/-! ## Sources of one chunk -/

/-- What a source comes to that is one chunk. -/
theorem Compiled.templateOf_of_read (config : Config) {source : List Char} {chunk : Chunk}
    (hne : source ≠ []) (hread : Chunk.read source = .ok (chunk, [])) :
    ∃ place, templateOf config (String.ofList source) =
      match (Scan.chunkYield config.resolver.resolve place chunk).fault with
      | some fault => .error fault
      | none =>
        .ok (Part.coalesce (Scan.chunkYield config.resolver.resolve place chunk).parts) := by
  refine ⟨Scan.placeIn source config.sourceFile source, ?_⟩
  have hdone : Scan.scanFrom config.resolver.resolve (Scan.placeIn source config.sourceFile) [] =
      Scan.done := by rw [Scan.scanFrom, dif_pos rfl]
  unfold templateOf Scan.ofSource
  rw [String.toList_ofList, Scan.scanFrom_of_read hne hread, hdone]
  cases Scan.chunkYield config.resolver.resolve (Scan.placeIn source config.sourceFile source)
    chunk with
  | mk ps fault =>
    cases fault with
    | some fault => rfl
    | none => exact congrArg (fun ps => Except.ok (Part.coalesce ps)) (List.append_nil ps)

/-! ## Literal texts around a value -/

namespace Part

theorem coalesceFrom_literal (pending : String) (text : List Char) (ps : List Part) :
    coalesceFrom pending (literal text ++ ps) =
      coalesceFrom (pending ++ String.ofList text) ps := by
  unfold literal
  split
  · rename_i hempty
    rw [List.isEmpty_iff.1 hempty, List.nil_append]
    exact congrArg (coalesceFrom · ps) String.append_empty.symm
  · rfl

/-- Literal texts around a part are left as they are. -/
theorem coalesceFrom_between {part : Part} (h : part.isRaw = false) (front back : List Char) :
    coalesceFrom (String.ofList front) (part :: literal back) =
      literal front ++ part :: literal back := by
  have hback : coalesceFrom "" (literal back) = literal back := by
    have hliteral := coalesceFrom_literal "" back []
    rw [List.append_nil, String.empty_append] at hliteral
    rw [hliteral]
    simp [coalesceFrom, literal]
  rw [coalesceFrom_of_not_raw h, hback]
  cases front with
  | nil => rfl
  | cons c front =>
    have hne : (String.ofList (c :: front)).isEmpty = false := by
      simp [String.isEmpty_eq_false_iff]
    rw [hne]
    rfl

end Part

namespace ValuePlace

variable {config : Config} {path : String} {place : ValuePlace}

/-! ## Texts and comments -/

/-- A chunk with a marker gives a value between literal texts, unless the path starts with `$`. -/
theorem templateOf_marked {source front back : List Char} {chunk : Chunk}
    {position : Interpolation.Position} (hne : source ≠ [])
    (hread : Chunk.read source = .ok (chunk, []))
    (hchunk : ∀ reader locate, Scan.chunkYield reader locate chunk = .ofExcept
      (Interpolation.parts position Interpolation.builtin locate (front ++ marked path back)))
    (hfront : '{' ∉ front) (hback : '{' ∉ back) (hpath : Path.WellSpelled path) :
    (path.toList.head? ≠ some '$' → Compiled.templateOf config (String.ofList source) =
      .ok (Part.literal front ++ position.insert path :: Part.literal back)) ∧
    (path.toList.head? = some '$' → ∃ location, Compiled.templateOf config (String.ofList source) =
      .error (.template (.unknownDirective path) location)) := by
  obtain ⟨locate, htemplate⟩ := Compiled.templateOf_of_read config hne hread
  rw [hchunk, Interpolation.parts_marked position locate hfront hback hpath] at htemplate
  constructor
  · intro hdollar
    have hraw : (position.insert path).isRaw = false := by cases position <;> rfl
    rw [if_neg hdollar] at htemplate
    rw [htemplate, Part.coalesce, Scan.Yield.ofExcept, Part.coalesceFrom_literal,
      String.empty_append, Part.coalesceFrom_between hraw]
  · intro hdollar
    rw [if_pos hdollar] at htemplate
    exact ⟨_, htemplate⟩

theorem templateOf_text (hplace : place.isText = true) (hfits : place.Fits config)
    (hpath : Path.WellSpelled path) :
    (path.toList.head? ≠ some '$' →
      Compiled.templateOf config (String.ofList (place.source path)) = .ok (place.parts path)) ∧
    (path.toList.head? = some '$' → ∃ location,
      Compiled.templateOf config (String.ofList (place.source path)) =
        .error (.template (.unknownDirective path) location)) := by
  cases place with
  | body before after =>
    obtain ⟨hbefore, hafter⟩ := List.forall_mem_append.1 hfits
    have hne : before ++ marked path after ≠ [] :=
      List.append_ne_nil_of_right_ne_nil _ (List.cons_ne_nil _ _)
    have hread := Chunk.read_before hne
      (List.not_mem_append (fun h => (hbefore _ h).2 rfl)
        (not_mem_marked hpath (by decide) fun h => (hafter _ h).2 rfl)) (Or.inl rfl)
    rw [List.append_nil] at hread
    exact templateOf_marked hne hread (fun _ _ => rfl) (fun h => (hbefore _ h).1 rfl)
      (fun h => (hafter _ h).1 rfl) hpath
  | comment before after =>
    obtain ⟨hbefore, hafter⟩ := List.forall_mem_append.1 hfits
    have hclose : '>' ∉ before ++ marked path after :=
      List.not_mem_append (fun h => (hbefore _ h).2 rfl)
        (not_mem_marked hpath (by decide) fun h => (hafter _ h).2 rfl)
    have hread := Chunk.read_comment hclose
    have hsource : '<' :: '!' :: (before ++ marked path after ++ ['>']) =
        '<' :: '!' :: (before ++ marked path (after ++ ['>'])) := by
      simp [marked]
    rw [hsource] at hread
    have hfront : '{' ∉ '<' :: '!' :: before := by
      simpa using fun h => (hbefore _ h).1 rfl
    have hback : '{' ∉ after ++ ['>'] := by
      simpa using fun h => (hafter _ h).1 rfl
    exact templateOf_marked (List.cons_ne_nil _ _) hread (fun _ _ => rfl) hfront hback hpath
  | whole _ _ => cases hplace
  | within _ _ _ _ => cases hplace
  | flag _ _ => cases hplace

/-! ## Attributes -/

theorem templateOf_written {name key value : List Char} {ps : List Part}
    (hvalid : (written name key value).Valid)
    (hunclaimed : ∀ tag : Tag, tag.name = String.ofList name →
      config.resolver.resolve tag = .ok none)
    (hparts : Attribute.parts (String.ofList key) (.text (String.ofList value)) = .ok ps) :
    Compiled.templateOf config (String.ofList (written name key value).text) =
      .ok (Part.coalesceFrom (String.ofList ('<' :: name)) (ps ++ Part.literal ['>'])) := by
  have hread := Chunk.read_written hvalid []
  rw [List.append_nil] at hread
  have hne : (written name key value).text ≠ [] := List.cons_ne_nil _ _
  obtain ⟨place, htemplate⟩ := Compiled.templateOf_of_read config hne hread
  have hyield : Scan.chunkYield config.resolver.resolve place (.tag (written name key value).tag) =
      ⟨.raw ("<" ++ String.ofList name) :: (ps ++ [.raw ">"]), none⟩ := by
    have htag : (written name key value).tag =
      ⟨String.ofList name, [(String.ofList key, .text (String.ofList value))], false, false⟩ := rfl
    rw [Scan.chunkYield, Scan.tagYield, hunclaimed _ rfl, htag]
    simp only [Scan.literalYield, Scan.attributesYield, hparts, Scan.Yield.after, Tag.opening,
      Tag.ending]
    rfl
  have hopening : "" ++ ("<" ++ String.ofList name) = String.ofList ('<' :: name) := by
    apply String.toList_inj.1
    simp
  rw [htemplate, hyield, ← hopening]
  rfl

theorem Keyed.valid {name key value : List Char} (h : Keyed config name key) {mark : List Char}
    (hmark : mark = [] ∨ mark = ['?']) (hquote : '"' ∉ value) (hline : '\n' ∉ value) :
    (written name (mark ++ key) value).Valid := by
  obtain ⟨c, hc, hword⟩ := h.named
  have hmarkChars : ∀ c ∈ mark, isBlank c = false ∧ c ≠ '/' ∧ c ≠ '>' ∧ c ≠ '=' := by
    rcases hmark with rfl | rfl
    · exact fun _ h => absurd h List.not_mem_nil
    · exact List.forall_mem_singleton.2 (by decide)
  have hattribute : WrittenAttribute.Valid ⟨[' '], mark ++ key, .quoted value⟩ :=
    ⟨List.cons_ne_nil _ _, List.forall_mem_singleton.2 rfl,
      List.append_ne_nil_of_right_ne_nil _ h.keyed,
      List.forall_mem_append.2 ⟨hmarkChars, h.keyChars⟩, hquote, hline⟩
  have hnamed : name ≠ [] := by
    rintro rfl
    cases hc
  exact ⟨hnamed, h.nameChars, h.noSlash, fun _ => ⟨c, hc, hword⟩,
    List.forall_mem_singleton.2 hattribute, fun _ h => absurd h List.not_mem_nil⟩

theorem Keyed.parts {name key : List Char} (h : Keyed config name key) (value : AttributeValue) :
    Attribute.parts (String.ofList key) value =
      .ok (Attribute.plainParts (String.ofList key) value) := by
  apply Attribute.parts_of_unmarked
  · rw [String.toList_ofList]
    exact fun hmark => (h.unmarked '?' hmark).1 rfl
  · rw [String.toList_ofList]
    exact fun hmark => (h.unmarked ':' hmark).2 rfl

theorem single?_marked (hpath : Path.WellSpelled path) :
    (Pieces.ofText (marked path [])).single? = some path := by
  have hnone : '{' ∉ ([] : List Char) := List.not_mem_nil
  have hcut := ofText_marked hnone hnone hpath
  rw [List.nil_append] at hcut
  rw [hcut]
  simp only [Pieces.single?, hpath.isPlain.writable.stripped, String.ofList_toList]

/-- A marker with text around it is not the whole value. -/
theorem single?_around {before expression after : List Char} (haround : before ++ after ≠ []) :
    Pieces.single? ⟨[(before, expression)], after⟩ = none := by
  unfold Pieces.single?
  split
  · rename_i hmarked hafter
    obtain ⟨rfl, -⟩ := Prod.mk.inj (List.cons.inj hmarked).1
    exact absurd hafter haround
  · rfl

/-- A value with text around a marker gives a composite behind its key. -/
theorem templateOf_within {name key before after : List Char}
    (hfits : (within name key before after).Fits config) (hpath : Path.WellSpelled path) :
    Compiled.templateOf config (String.ofList ((within name key before after).source path)) =
      .ok ((within name key before after).parts path) := by
  obtain ⟨hkeyed, haround, hchars⟩ := hfits
  obtain ⟨hbefore, hafter⟩ := List.forall_mem_append.1 hchars
  have hvalid := hkeyed.valid (Or.inl rfl)
    (List.not_mem_append (fun h => (hbefore _ h).2.1 rfl)
      (not_mem_marked hpath (by decide) fun h => (hafter _ h).2.1 rfl))
    (List.not_mem_append (fun h => (hbefore _ h).2.2 rfl)
      (not_mem_marked hpath (by decide) fun h => (hafter _ h).2.2 rfl))
  have hcut : Pieces.ofText (before ++ marked path after) = ⟨[(before, path.toList)], after⟩ :=
    ofText_marked (fun h => (hbefore _ h).1 rfl) (fun h => (hafter _ h).1 rfl) hpath
  have hparts : Attribute.parts (String.ofList key)
      (.text (String.ofList (before ++ marked path after))) =
        .ok [.raw (" " ++ String.ofList key ++ "="),
          .composite [String.ofList before, path, String.ofList after]] := by
    rw [hkeyed.parts, Attribute.plainParts]
    simp only [String.toList_ofList, hcut, single?_around haround, Pieces.alternating,
      List.flatMap_cons, List.flatMap_nil, hpath.isPlain.writable.stripped, String.ofList_toList]
    rfl
  have hfront : String.ofList ('<' :: name) ++ (" " ++ String.ofList key ++ "=") =
      String.ofList ('<' :: (name ++ ' ' :: (key ++ ['=']))) := by
    apply String.toList_inj.1
    simp
  have hjoined : Part.coalesceFrom
      (String.ofList ('<' :: name) ++ (" " ++ String.ofList key ++ "="))
      (.composite [String.ofList before, path, String.ofList after] :: Part.literal ['>']) =
        (within name key before after).parts path := by
    rw [hfront]
    exact Part.coalesceFrom_between rfl _ _
  exact (templateOf_written hvalid hkeyed.unclaimed hparts).trans (congrArg Except.ok hjoined)

/-- An attribute with a marker gives its parts. -/
theorem templateOf_attribute (hplace : place.isText = false) (hfits : place.Fits config)
    (hpath : Path.WellSpelled path) :
    Compiled.templateOf config (String.ofList (place.source path)) = .ok (place.parts path) := by
  have hnone : ∀ {c : Char}, c ∉ ([] : List Char) := List.not_mem_nil
  have hquote : '"' ∉ marked path [] := not_mem_marked hpath (by decide) hnone
  have hline : '\n' ∉ marked path [] := not_mem_marked hpath (by decide) hnone
  have hsingle := single?_marked hpath
  cases place with
  | body _ _ => cases hplace
  | comment _ _ => cases hplace
  | whole name key =>
    have hvalid := Keyed.valid hfits (Or.inl rfl) hquote hline
    have hparts : Attribute.parts (String.ofList key) (.text (String.ofList (marked path []))) =
        .ok [.optional (String.ofList key) path] := by
      rw [Keyed.parts hfits, Attribute.plainParts]
      simp only [String.toList_ofList, hsingle]
    exact (templateOf_written hvalid hfits.unclaimed hparts).trans
      (congrArg Except.ok (Part.coalesceFrom_between rfl _ _))
  | within name key before after => exact templateOf_within hfits hpath
  | flag name key =>
    have hvalid := Keyed.valid hfits (Or.inr rfl) hquote hline
    have hparts : Attribute.parts (String.ofList ('?' :: key))
        (.text (String.ofList (marked path []))) = .ok [.flag (String.ofList key) path] := by
      unfold Attribute.parts Attribute.flagParts
      simp only [String.toList_ofList, hsingle]
    exact (templateOf_written hvalid hfits.unclaimed hparts).trans
      (congrArg Except.ok (Part.coalesceFrom_between rfl _ _))

/-! ## Templates and code -/

/-- Literal text, if there is any, in front of a template. -/
def literalTemplate (text : List Char) (rest : Template) : Template :=
  if text.isEmpty then rest else .insert (.raw (String.ofList text)) rest

/-- The template of the place. -/
def template (path : String) (place : ValuePlace) : Template :=
  literalTemplate place.front (.insert (place.insertion path) (literalTemplate place.back .done))

theorem parts_literalTemplate (text : List Char) (rest : Template) :
    (literalTemplate text rest).parts = Part.literal text ++ rest.parts := by
  unfold literalTemplate Part.literal
  split <;> rfl

theorem parts_template : (place.template path).parts = place.parts path := by
  rw [template, parts_literalTemplate, Template.parts, parts_literalTemplate, Template.parts,
    List.append_nil, parts]

theorem code_literalTemplate (name : String) (text : List Char) (rest : Template) :
    (literalTemplate text rest).code name [] = literalCode text ++ rest.code name [] := by
  unfold literalTemplate literalCode
  split <;> rfl

theorem code_insertion (name : String) : (place.insertion path).code name [] =
    place.insertionCode (Expr.access name (Path.segments path)) := by
  obtain ⟨head, rest, hsegments⟩ := Path.exists_segments path
  have hpath : pathCode name [] path = Expr.access name (Path.segments path) := by
    rw [pathCode, hsegments]
    exact if_neg List.not_mem_nil
  cases place with
  | within _ _ before after =>
    have hopen : ("\"" ++ String.ofList before).isEmpty = false := by
      simp [String.isEmpty_eq_false_iff]
    have hclose : (String.ofList after ++ "\"").isEmpty = false := by
      simp [String.isEmpty_eq_false_iff]
    rw [insertion, Insertion.code, quoteSegments_cons, closeQuote_cons_cons, closeQuote_cons_cons,
      closeQuote_singleton, segmentCode, if_neg (by simp [hopen]), segmentCode, segmentCode,
      if_neg (by simp [hclose]), segmentCode, hpath]
    rfl
  | body _ _ | comment _ _ | whole _ _ | flag _ _ =>
    rw [insertion, Insertion.code, hpath]
    rfl

theorem code_template (name : String) :
    (place.template path).code name [] = place.code (Expr.access name (Path.segments path)) := by
  rw [template, code_literalTemplate, Template.code, code_literalTemplate, Template.code,
    List.append_nil, code_insertion, code]

theorem admitted_literalTemplate {name : String} {text : List Char} {rest : Template} {depth : Nat}
    (h : rest.AdmittedAt name depth) : (literalTemplate text rest).AdmittedAt name depth := by
  have hspelled : (Part.raw (String.ofList text)).Spelled name :=
    (Part.spelled_iff fun _ _ => Part.noConfusion).2 fun _ hmem => absurd hmem List.not_mem_nil
  unfold literalTemplate
  split
  · exact h
  · exact ⟨hspelled, h⟩

theorem sound_literalTemplate {text : List Char} {rest : Template} (h : rest.Sound) :
    (literalTemplate text rest).Sound := by
  unfold literalTemplate
  split
  · exact h
  · exact ⟨trivial, h⟩

theorem loop_not_mem_parts (other binding : String) :
    Part.loop other binding ∉ place.parts path := by
  have hliteral : ∀ text, Part.loop other binding ∉ Part.literal text := by
    intro text
    unfold Part.literal
    split <;> simp
  have hinsertion : Part.loop other binding ≠ (place.insertion path).part := by
    cases place <;> exact Part.noConfusion
  exact List.not_mem_append (hliteral _)
    (List.not_mem_cons_of_ne_of_not_mem hinsertion (hliteral _))

/-- A place with a path is compiled to its code. -/
theorem exists_compiled (place : ValuePlace) (hpath : Path.WellSpelled path) {name : String}
    (hn : Generator.checkContextName name = .ok ()) :
    ∃ c, Compiled.ofParts name (place.parts path) = .ok c ∧ c.code =
      .ok (Expr.joined (place.code (Expr.access (normalName name) (Path.segments path)))) := by
  have hspelled : (place.insertion path).part.Spelled name := by
    refine (Part.spelled_iff fun _ _ h => by cases place <;> cases h).2 ?_
    cases place <;> exact List.forall_mem_singleton.2 hpath
  have hadmitted : (place.template path).AdmittedAt name 0 :=
    admitted_literalTemplate ⟨hspelled, admitted_literalTemplate trivial⟩
  have hinsertion : (place.insertion path).Sound := by
    cases place <;> simp [insertion, Insertion.Sound]
  have hsound : (place.template path).Sound :=
    sound_literalTemplate ⟨hinsertion, sound_literalTemplate trivial⟩
  obtain ⟨c, hc⟩ := (Compiled.exists_iff (place.template path)).2
    ⟨hn, Template.builtIn_of_sound hsound, hadmitted⟩
  have hcode := Compiled.code_bindable hc fun other => by
    rw [parts_template]
    exact loop_not_mem_parts other _
  rw [parts_template] at hc
  rw [code_template] at hcode
  exact ⟨c, hc, hcode⟩

/-- A path is read alike in every place, unless it starts with `$` and stands in a text.

In attributes the marker of a path that passes its check always gives the part of its place, and is
compiled to code that calls a helper on what the path reads from the context.  In body text and in
comments this holds exactly if the path does not start with `$`; there a marker of such a path is
refused as a directive that is not known. -/
theorem reads_iff (hfits : place.Fits config) (hpath : Path.check path = .ok ())
    (hn : Generator.checkContextName config.contextName = .ok ()) :
    ((∃ c, Compiled.templateOf config (String.ofList (place.source path)) = .ok (place.parts path) ∧
        Compiled.ofSource config (String.ofList (place.source path)) = .ok c ∧
        c.code = .ok (Expr.joined
          (place.code (Expr.access (normalName config.contextName) (Path.segments path))))) ↔
      (place.isText = true → path.toList.head? ≠ some '$')) ∧
    (place.isText = true → path.toList.head? = some '$' → ∃ location,
      Compiled.ofSource config (String.ofList (place.source path)) =
        .error (.template (.unknownDirective path) location)) := by
  rw [Path.check_eq_ok_iff] at hpath
  have hrefused : place.isText = true → path.toList.head? = some '$' → ∃ location,
      Compiled.ofSource config (String.ofList (place.source path)) =
        .error (.template (.unknownDirective path) location) := by
    intro hplace hdollar
    obtain ⟨location, htemplate⟩ := (templateOf_text hplace hfits hpath).2 hdollar
    refine ⟨location, ?_⟩
    unfold Compiled.ofSource
    rw [htemplate]
    rfl
  refine ⟨⟨?_, ?_⟩, hrefused⟩
  · rintro ⟨c, -, hc, -⟩ hplace hdollar
    obtain ⟨location, herror⟩ := hrefused hplace hdollar
    rw [herror] at hc
    cases hc
  · intro hdollar
    have htemplate : Compiled.templateOf config (String.ofList (place.source path)) =
        .ok (place.parts path) := by
      cases hplace : place.isText with
      | true => exact (templateOf_text hplace hfits hpath).1 (hdollar hplace)
      | false => exact templateOf_attribute hplace hfits hpath
    obtain ⟨c, hc, hcode⟩ := place.exists_compiled hpath hn
    exact ⟨c, htemplate, Compiled.ofSource_of_parts htemplate hc, hcode⟩

theorem keyed_plain : Keyed {} ['a'] ['k'] where
  named := ⟨'a', rfl, rfl⟩
  nameChars := List.forall_mem_singleton.2 (by decide)
  noSlash := by decide
  unclaimed tag hname := by
    have hleading : Resolver.defaultLeading.toList.isPrefixOf? ['a'] = none := rfl
    unfold Config.resolver Resolver.builtin Resolver.resolve
    simp only [Option.getD_none, hname, String.toList_ofList, hleading]
  keyed := List.cons_ne_nil _ _
  keyChars := List.forall_mem_singleton.2 (by decide)
  unmarked := fun c hc => by
    obtain rfl := Option.some.inj hc
    decide

/-- A path that starts with `$`, behind a text in an attribute. -/
theorem reads_dollar_attribute :
    Path.check "$a" = .ok () ∧ Generator.checkContextName "context" = .ok () ∧
      ∃ c, Compiled.ofSource {} ("<a k=\"x" ++ inBraces "$a" ++ "\">") = .ok c ∧
        c.code = .ok (Expr.joined [.literal "<a k=", .literal "\"x",
          Expr.helperCall .ifDefined [Expr.access "context" ["$a"]], .literal "\"",
            .literal ">"]) := by
  have hfits : (within ['a'] ['k'] ['x'] []).Fits {} :=
    ⟨keyed_plain, List.cons_ne_nil _ _, List.forall_mem_singleton.2 (by decide)⟩
  have hpath : Path.check "$a" = .ok () := by decide
  have hn : Generator.checkContextName "context" = .ok () := by decide
  have hname : normalName "context" = "context" := normalName_ascii (by decide)
  obtain ⟨c, -, hc, hcode⟩ := (reads_iff hfits hpath hn).1.2 fun h => by cases h
  refine ⟨hpath, hn, c, ?_, ?_⟩
  · exact hc
  · rw [hname] at hcode
    exact hcode

/-- In body text the same path is refused. -/
theorem not_reads_dollar_body : Path.check "$a" = .ok () ∧
    ∃ location, Compiled.ofSource {} (inBraces "$a") =
      .error (.template (.unknownDirective "$a") location) := by
  refine ⟨by decide, _, by with_unfolding_all rfl⟩

end ValuePlace

end HtmlTemplate
