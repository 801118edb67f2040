import HtmlTemplate.Proofs.Scan.Joining
import HtmlTemplate.Proofs.Tag.Directive

/-!
# Directives — tags and markers are two spellings of one language

Directive tags that stand side by side give the parts that markers give which say the same, in
whichever of its forms each value is written (`Scan.template_eq_markers`).
-/

namespace HtmlTemplate

open Text

/-! ## What markers stand for -/

namespace BlockDirective

/-- What stands between the braces of a marker. -/
def expression : BlockDirective → List Char
  | loop path none => '>' :: path.toList
  | loop path (some binding) => '>' :: (path.toList ++ ' ' :: binding.toList)
  | test path false => '~' :: path.toList
  | test path true => '~' :: '!' :: path.toList
  | otherwise => ['|']
  | close => ['<']

def marker (d : BlockDirective) : List Char := '{' :: '{' :: (d.expression ++ ['}', '}'])

variable {contextName : String} {d : BlockDirective}

/-- The characters of an expression are those of a directive's sign, of paths and a blank. -/
theorem not_mem_expression (hd : d.Accepted contextName) {c : Char}
    (hsign : c ∉ ['>', '~', '!', ' ', '|', '<']) (hname : Path.isNameChar c = false)
    (hdot : c ≠ '.') : c ∉ d.expression := by
  have hpath : ∀ {path : String}, Path.check path = .ok () → c ∉ path.toList :=
    fun h => (Path.check_eq_ok_iff.1 h).isPlain.not_mem hname hdot
  simp only [List.mem_cons, List.not_mem_nil, or_false, not_or] at hsign
  obtain ⟨hloop, htest, hinverted, hblank, helse, hclose⟩ := hsign
  cases d with
  | loop path binding =>
    cases binding with
    | none => simp [expression, hloop, hpath hd.1]
    | some b =>
      have hsegment := (Binding.isOk_check_iff.1 (hd.2 b rfl)).segment
      have hb : c ∉ b.toList := (Path.isPlain_of_segment hsegment).not_mem hname hdot
      simp [expression, hloop, hblank, hpath hd.1, hb]
  | test path inverted => cases inverted <;> simp [expression, htest, hinverted, hpath hd]
  | otherwise => simp [expression, helse]
  | close => simp [expression, hclose]

/-- There are no blanks at the ends of an expression. -/
theorem strip_expression (hd : d.Accepted contextName) : strip d.expression = d.expression := by
  have hpath : ∀ {path : String}, Path.check path = .ok () → ∀ c ∈ path.toList, isBlank c = false :=
    fun h => (Path.check_eq_ok_iff.1 h).isPlain.not_blank
  cases d with
  | loop path binding =>
    cases binding with
    | none => exact strip_of_no_blank (List.forall_mem_cons.2 ⟨rfl, hpath hd.1⟩)
    | some b =>
      have hsegment := (Binding.isOk_check_iff.1 (hd.2 b rfl)).segment
      have hb := (Path.isPlain_of_segment hsegment).not_blank
      have hne : b.toList ≠ [] := mt String.toList_eq_nil_iff.1 hsegment.1
      rw [expression, List.append_cons]
      exact strip_cons_append rfl _ hne hb
  | test path inverted =>
    cases inverted with
    | false => exact strip_of_no_blank (List.forall_mem_cons.2 ⟨rfl, hpath hd⟩)
    | true =>
      exact strip_of_no_blank
        (List.forall_mem_cons.2 ⟨rfl, List.forall_mem_cons.2 ⟨rfl, hpath hd⟩⟩)
  | otherwise => rfl
  | close => rfl

/-- The expression of a directive is read as its part. -/
theorem parts_expression (hd : d.Accepted contextName) :
    Directive.parts d.expression = .ok [d.part] := by
  have hne : ∀ {path : String}, Path.check path = .ok () → path.toList ≠ [] := fun h =>
    mt String.toList_eq_nil_iff.1 (Path.check_eq_ok_iff.1 h).ne_empty
  have hpath : ∀ {path : String}, Path.check path = .ok () → ∀ c ∈ path.toList, isBlank c = false :=
    fun h => (Path.check_eq_ok_iff.1 h).isPlain.not_blank
  cases d with
  | loop path binding =>
    obtain ⟨hp, hbinding⟩ := hd
    cases binding with
    | none =>
      rw [expression, Directive.parts, words_single (hne hp) (hpath hp), Directive.loop,
        String.ofList_toList]
      rfl
    | some b =>
      have hsegment := (Binding.isOk_check_iff.1 (hbinding b rfl)).segment
      have hb := (Path.isPlain_of_segment hsegment).not_blank
      have hb' : b.toList ≠ [] := mt String.toList_eq_nil_iff.1 hsegment.1
      rw [expression, Directive.parts, words_pair rfl (hne hp) (hpath hp) hb' hb, Directive.loop,
        String.ofList_toList, String.ofList_toList]
      rfl
  | test path inverted =>
    have hstrip : strip path.toList = path.toList := strip_of_no_blank (hpath hd)
    cases inverted with
    | false =>
      have htest : Directive.test path.toList = (path.toList, false) := by
        unfold Directive.test
        split
        · rename_i rest heq
          have hbang : '!' ∉ path.toList :=
            (Path.check_eq_ok_iff.1 hd).isPlain.not_mem rfl (by decide)
          exact absurd (heq ▸ List.mem_cons_self) hbang
        · rw [hstrip]
      rw [expression, Directive.parts, htest]
      simp only [String.ofList_toList]
      rfl
    | true =>
      rw [expression, Directive.parts, Directive.test, hstrip]
      simp only [String.ofList_toList]
      rfl
  | otherwise => rfl
  | close => rfl

end BlockDirective

namespace Interpolation

open BlockDirective

variable {contextName : String} {position : Position} {locate : Locator}

/-- The expression of a directive gives its part, wherever it stands. -/
theorem expressionParts_directive {d : BlockDirective} (hd : d.Accepted contextName)
    (offset : Nat) :
    expressionParts position builtin locate offset (strip d.expression) = .ok [d.part] := by
  have hword : d.expression.head?.any isWordChar = false := by
    cases d with
    | loop path binding => cases binding <;> rfl
    | test path inverted => cases inverted <;> rfl
    | otherwise => rfl
    | close => rfl
  rw [strip_expression hd, expressionParts, if_neg (by simp [hword]), builtin, parts_expression hd]
  rfl

/-- Markers that stand side by side are cut out one after another. -/
theorem ofText_markers {ds : List BlockDirective} (hds : ∀ d ∈ ds, d.Accepted contextName) :
    Pieces.ofText (ds.flatMap marker) = ⟨ds.map fun d => ([], d.expression), []⟩ := by
  induction ds with
  | nil => rw [List.flatMap_nil, Pieces.ofText, List.map_nil]
  | cons d ds ih =>
    obtain ⟨hd, hds⟩ := List.forall_mem_cons.1 hds
    have hmarker : (d :: ds).flatMap marker =
        '{' :: '{' :: (d.expression ++ '}' :: '}' :: ds.flatMap marker) := by
      simp [marker]
    rw [hmarker, Pieces.ofText_marker (Marker.readExpression_of_not_mem
      (not_mem_expression hd (by decide) rfl (by decide))
      (not_mem_expression hd (by decide) rfl (by decide)) _), ih hds]
    rfl

/-- Markers that stand side by side give the parts of their directives. -/
theorem parts_markers {ds : List BlockDirective} (hds : ∀ d ∈ ds, d.Accepted contextName) :
    parts position builtin locate (ds.flatMap marker) = .ok (ds.map part) := by
  have hfrom : ∀ offset, partsFrom position builtin locate [] offset
      (ds.map fun d => ([], d.expression)) = .ok (ds.map part) := by
    induction ds with
    | nil => exact fun offset => rfl
    | cons d ds ih =>
      obtain ⟨hd, hds⟩ := List.forall_mem_cons.1 hds
      intro offset
      rw [List.map_cons, partsFrom, expressionParts_directive hd]
      simp only [bind, Except.bind, ih hds]
      rfl
  unfold parts
  rw [ofText_markers hds]
  exact hfrom 0

end Interpolation

namespace Scan

open BlockDirective

/-- Tags that stand side by side give the parts of the directives that they spell. -/
theorem scanFrom_directives {contextName : String} {ds : List BlockDirective}
    {ts : List WrittenTag} (hspells : List.Forall₂ Spells ds ts)
    (hds : ∀ d ∈ ds, d.Accepted contextName) (place : List Char → Interpolation.Locator) :
    scanFrom Resolver.builtin.resolve place (ts.flatMap WrittenTag.text) =
      ⟨ts.map fun _ => .tag, ds.map part, ts.map WrittenTag.tag, none⟩ := by
  induction hspells with
  | nil => rw [List.flatMap_nil, scanFrom, dif_pos rfl]; rfl
  | @cons d t ds ts hspell _ ih =>
    obtain ⟨hd, hds⟩ := List.forall_mem_cons.1 hds
    have hread := Chunk.read_written (hspell.valid hd) (ts.flatMap WrittenTag.text)
    have hne : t.text ++ ts.flatMap WrittenTag.text ≠ [] := List.cons_ne_nil _ _
    rw [List.flatMap_cons, scanFrom_of_read hne hread, ih hds]
    have hyield : ∀ place, chunkYield Resolver.builtin.resolve place (.tag t.tag) =
        ⟨[d.part], none⟩ := by
      intro place
      rw [chunkYield, tagYield, hspell.resolve hd]
    rw [hyield]
    rfl

/-- The parts of directives are left as they are when literals are joined. -/
theorem coalesce_directives (ds : List BlockDirective) :
    Part.coalesce (ds.map part) = ds.map part := by
  induction ds with
  | nil => rfl
  | cons d ds ih =>
    have hraw : d.part.isRaw = false := by cases d <;> rfl
    have hempty : "".isEmpty = true := rfl
    unfold Part.coalesce at ih ⊢
    rw [List.map_cons, Part.coalesceFrom_of_not_raw hraw, if_pos hempty, ih]

/-- Tags and markers are two spellings of one language.  Tags that stand side by side are scanned
without a fault, if they spell directives of accepted paths and bindings, whatever the forms of
their values.  The parts are those that the markers of the directives are split into, in a text or
in a comment: the ones of the directives, one after another. -/
theorem template_eq_markers {ts : List WrittenTag} (hspells : List.Forall₂ Spells ds ts)
    (hds : ∀ d ∈ ds, d.Accepted contextName) (file : Option String)
    (position : Interpolation.Position) (locate : Interpolation.Locator) :
    let scan := ofSource Resolver.builtin file (String.ofList (ts.flatMap WrittenTag.text))
    scan.fault = none ∧ scan.template = ds.map part ∧
      Interpolation.parts position Interpolation.builtin locate (ds.flatMap marker) =
        .ok scan.template := by
  have hscan : ofSource Resolver.builtin file (String.ofList (ts.flatMap WrittenTag.text)) =
      ⟨ts.map fun _ => .tag, ds.map part, ts.map WrittenTag.tag, none⟩ := by
    unfold ofSource
    rw [String.toList_ofList]
    exact scanFrom_directives hspells hds _
  have htemplate : (ofSource Resolver.builtin file
      (String.ofList (ts.flatMap WrittenTag.text))).template = ds.map part := by
    rw [hscan]
    exact coalesce_directives ds
  refine ⟨congrArg Scan.fault hscan, htemplate, ?_⟩
  rw [htemplate]
  exact Interpolation.parts_markers hds

/-- Values in every form, with an empty binding and an inverted test among them. -/
theorem template_eq_markers_sample :
    let scan := ofSource Resolver.builtin none ("<hc:loop iter=\x7b\x7b xs \x7d\x7d v=\"x \">" ++
      "<hc:loop iter=a.b v=\"\"><hc:if i=\" \x7b\x7b!\tx.ok\x7d\x7d\">" ++
      "<hc:else/></hc:if></hc:loop></hc:loop>")
    scan.fault = none ∧ Interpolation.parts .body Interpolation.builtin (fun _ => none)
      ("\x7b\x7b>xs x\x7d\x7d\x7b\x7b>a.b\x7d\x7d\x7b\x7b~!x.ok\x7d\x7d" ++
        "\x7b\x7b|\x7d\x7d\x7b\x7b<\x7d\x7d\x7b\x7b<\x7d\x7d\x7b\x7b<\x7d\x7d").toList =
          .ok scan.template := by
  have hnone : ∀ c ∈ ([] : List Char), isBlank c = true := fun _ h => absurd h List.not_mem_nil
  have hfits : ∀ (form : ValueForm) (value : String), form.Fits value.toList →
      AttributeForm.Fits ⟨[' '], form⟩ value.toList := fun form value h =>
    ⟨List.cons_ne_nil _ _, List.forall_mem_singleton.2 rfl, h⟩
  have outer : Spells (.loop "xs" (some "x")) _ :=
    .boundLoop (hfits (.braced [' '] [' ']) "xs" (by decide))
      (hfits (.quoted [] [' ']) "x" (by decide)) hnone
  have inner : Spells (.loop "a.b" none) _ :=
    .unboundLoop (hfits .bare "a.b" (by decide)) (hfits (.quoted [] []) "" (by decide)) hnone
  have hgap : IsPadding ['\t'] := by decide
  have test : Spells (.test "x.ok" true) _ :=
    .invertedTest hgap (hfits (.quotedBraces [' '] [] [] []) "!\tx.ok" (by decide)) hnone
  have hspells := List.Forall₂.cons outer (.cons inner (.cons test (.cons (.otherwise hnone)
    (.cons (.closeTest hnone) (.cons (.closeLoop hnone) (.cons (.closeLoop hnone) .nil))))))
  have hds : ∀ d ∈ [BlockDirective.loop "xs" (some "x"), .loop "a.b" none, .test "x.ok" true,
      .otherwise, .close, .close, .close], d.Accepted "context" := by decide +kernel
  obtain ⟨hfault, -, hparts⟩ := template_eq_markers hspells hds none .body (fun _ => none)
  exact ⟨hfault, hparts⟩

end Scan

end HtmlTemplate
