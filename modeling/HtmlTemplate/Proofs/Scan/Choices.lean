import HtmlTemplate.Compile
import HtmlTemplate.Proofs.Scan.Joining
import HtmlTemplate.Proofs.Tag.Claimed

/-!
# Choices — blocks with two bodies, written with tags

A text that gives the same parts wherever a tag follows it may stand as a body (`Scan.ReadsAs`).
Between the tags of a block, two such texts give the parts of the block
(`Compiled.templateOf_choiceSource`).
-/

namespace HtmlTemplate

open Text

/-! ## Bodies -/

namespace Scan

/-- Whether a scan finds some parts, then what another one finds, and ends like that. -/
structure Leads (scan : Scan) (ps : List Part) (rest : Scan) : Prop where
  parts : scan.parts = ps ++ rest.parts
  fault : scan.fault = rest.fault

theorem Leads.trans {scan middle rest : Scan} {ps qs : List Part} (h : Leads scan ps middle)
    (h' : Leads middle qs rest) : Leads scan (ps ++ qs) rest where
  parts := by rw [h.parts, h'.parts, List.append_assoc]
  fault := h.fault.trans h'.fault

/-- Whether a text gives some parts, and no fault, wherever a tag follows it. -/
def ReadsAs (reader : TagReader) (cs : List Char) (ps : List Part) : Prop :=
  ∀ (place : List Char → Interpolation.Locator) (t : WrittenTag) (rest : List Char), t.Valid →
    Leads (scanFrom reader place (cs ++ (t.text ++ rest))) ps
      (scanFrom reader place (t.text ++ rest))

variable {reader : TagReader} {place : List Char → Interpolation.Locator}

theorem leads_of_read {cs rest : List Char} {chunk : Chunk} {ps : List Part} (hne : cs ≠ [])
    (hread : Chunk.read cs = .ok (chunk, rest))
    (hyield : chunkYield reader (place cs) chunk = ⟨ps, none⟩) :
    Leads (scanFrom reader place cs) ps (scanFrom reader place rest) := by
  rw [scanFrom_of_read hne hread, hyield]
  exact ⟨rfl, rfl⟩

/-- A tag that is claimed gives its parts. -/
theorem leads_tag {t : WrittenTag} (ht : t.Valid) {ps : List Part}
    (hresolve : reader t.tag = .ok (some ps)) (rest : List Char) :
    Leads (scanFrom reader place (t.text ++ rest)) ps (scanFrom reader place rest) := by
  refine leads_of_read (List.cons_ne_nil _ _) (Chunk.read_written ht rest) ?_
  rw [chunkYield, tagYield, hresolve]

end Scan

namespace WrittenTag

theorem Valid.markupAt {t : WrittenTag} (ht : t.Valid) (rest : List Char) :
    MarkupAt (t.text ++ rest) := by
  cases hclose : t.isClose with
  | true => exact ⟨'/', t.name ++ t.afterName ++ rest, by simp [text, hclose], Or.inl rfl⟩
  | false =>
    obtain ⟨c, hc, hword⟩ := ht.opening hclose
    obtain ⟨tail, htail⟩ := List.head?_eq_some_iff.1 hc
    exact ⟨c, tail ++ t.afterName ++ rest, by simp [text, hclose, htail], Or.inr (Or.inr hword)⟩

end WrittenTag

namespace Scan

/-- A text without tags gives what its markers and the literal text around them give. -/
theorem readsAs_text {reader : TagReader} {cs : List Char} {ps : List Part} (hne : cs ≠ [])
    (htags : '<' ∉ cs)
    (hparts : ∀ place, Interpolation.parts .body Interpolation.builtin place cs = .ok ps) :
    ReadsAs reader cs ps := by
  intro place t rest ht
  refine leads_of_read (fun h => hne (List.append_eq_nil_iff.1 h).1)
    (Chunk.read_before hne htags (Or.inr (ht.markupAt rest))) ?_
  rw [chunkYield, hparts]
  rfl

/-- Literal text gives itself. -/
theorem readsAs_literal (reader : TagReader) {cs : List Char} (hne : cs ≠ []) (htags : '<' ∉ cs)
    (hmarkers : '{' ∉ cs) : ReadsAs reader cs [.raw (String.ofList cs)] := by
  have hnone := Marker.hasOpening_of_not_mem hmarkers
  rw [Marker.hasOpening, Option.isSome_eq_false_iff, Option.isNone_iff_eq_none] at hnone
  refine readsAs_text hne htags fun place => ?_
  unfold Interpolation.parts
  rw [Pieces.ofText_of_not_mem hmarkers]
  simp [Interpolation.partsFrom, Interpolation.tailParts, hnone, Part.literal, hne]

end Scan

/-! ## Tags of a block -/

/-- The tag that opens a block over the elements of something. -/
def iterTag (name value : String) : WrittenTag :=
  ⟨false, ("hc:" ++ name).toList, [⟨[' '], "iter".toList, .bare value.toList⟩], [], false⟩

def otherwiseTag : WrittenTag := ⟨false, "hc:else".toList, [], [], true⟩

def closeTag (name : String) : WrittenTag := ⟨true, ("hc:" ++ name).toList, [], [], false⟩

/-- A block over the elements of something, with two bodies. -/
def choiceSource (name value first second : String) : String :=
  "<hc:" ++ name ++ " iter=" ++ value ++ ">" ++ first ++ "<hc:else/>" ++ second ++
    "</hc:" ++ name ++ ">"

theorem toList_choiceSource (name value first second : String) :
    (choiceSource name value first second).toList =
      (iterTag name value).text ++ (first.toList ++ (otherwiseTag.text ++ (second.toList ++
        ((closeTag name).text ++ [])))) := by
  have hiter : (iterTag name value).text = ("<hc:" ++ name ++ " iter=" ++ value ++ ">").toList := by
    simp only [iterTag, WrittenTag.text, WrittenTag.afterName, WrittenTag.ending,
      WrittenAttribute.text, WrittenValue.text, String.toList_append, List.flatMap_cons,
      List.flatMap_nil, List.append_assoc]
    rfl
  have hclose : (closeTag name).text = ("</hc:" ++ name ++ ">").toList := by
    simp only [closeTag, WrittenTag.text, WrittenTag.afterName, WrittenTag.ending,
      String.toList_append, List.flatMap_nil, List.append_assoc]
    rfl
  have hotherwise : otherwiseTag.text = "<hc:else/>".toList := rfl
  rw [hiter, hclose, hotherwise, List.append_nil]
  unfold choiceSource
  simp only [String.toList_append, List.append_assoc]

section Tags

variable {name value : String}

theorem iterTag_tag : (iterTag name value).tag =
    ⟨"hc:" ++ name, [("iter", .text value)], false, false⟩ := by
  simp only [iterTag, WrittenTag.tag, WrittenTag.settings, List.map_cons, List.map_nil,
    WrittenAttribute.setting, WrittenValue.meant, String.ofList_toList]
  rfl

theorem leading_mem (hname : name ∈ ["loop", "if"]) :
    "hc:" ++ name ∈ ["hc:loop", "hc:if", "hc:else"] := by
  simp only [List.mem_cons, List.not_mem_nil, or_false] at hname
  rcases hname with rfl | rfl <;> decide

theorem iterTag_valid (hname : name ∈ ["loop", "if"]) (hvalue : Writable value.toList)
    (hblank : ∀ c ∈ value.toList, isBlank c = false) : (iterTag name value).Valid := by
  have hfits : AttributeForm.Fits ⟨[' '], .bare⟩ value.toList :=
    ⟨List.cons_ne_nil _ _, List.forall_mem_singleton.2 rfl, hblank⟩
  have hiter : "iter" ∈ ["iter", "v", "i"] := by decide
  exact WrittenTag.valid_directive (leading_mem hname)
    (List.forall_mem_singleton.2 (AttributeForm.valid_written hiter hfits hvalue))
    (List.forall_mem_nil _)

/-- The value of the attribute stands for itself. -/
theorem standsFor_writable (hvalue : Writable value.toList) : Options.StandsFor value value := by
  have hplain : ¬ ['{', '{'] <:+: value.toList := fun h =>
    hvalue.chars '{' (h.subset List.mem_cons_self) (by decide)
  have hstrip : stripText value = value := by
    rw [stripText, hvalue.stripped, String.ofList_toList]
  have hstands := Options.StandsFor.plain hplain
  rwa [hstrip] at hstands

theorem takesAll_iter (more : List String) (hvalue : Writable value.toList) :
    Options.TakesAll ("iter" :: more) [("iter", .text value)] :=
  List.forall_mem_singleton.2 ⟨value, List.mem_cons_self, value, rfl, standsFor_writable hvalue⟩

theorem gives_iter (hvalue : Writable value.toList) :
    Options.Gives [("iter", .text value)] "iter" value :=
  ⟨value, rfl, standsFor_writable hvalue⟩

theorem resolve_iterTag {parts : List Part}
    (h : Tag.Directs ⟨"hc:" ++ name, [("iter", .text value)], false, false⟩ name parts) :
    Resolver.builtin.resolve (iterTag name value).tag = .ok (some parts) := by
  rw [iterTag_tag]
  exact Resolver.resolve_of_directs rfl h

/-- A loop without a name for its elements binds the default one. -/
theorem resolve_loopTag (hvalue : Writable value.toList) :
    Resolver.builtin.resolve (iterTag "loop" value).tag =
      .ok (some [.loop value Part.defaultBinding]) := by
  refine resolve_iterTag (.loop rfl (takesAll_iter ["v"] hvalue) (gives_iter hvalue)
    (.default ?_))
  rintro binding ⟨text, hlookup, -⟩
  cases hlookup

theorem resolve_testTag (hvalue : Writable value.toList)
    (hhead : value.toList.head? ≠ some '!') :
    Resolver.builtin.resolve (iterTag "if" value).tag =
      .ok (some [.conditional value false true]) := by
  have hkey : "iter" ∈ ["i", "iter"] := by decide
  exact resolve_iterTag (.test rfl hkey (takesAll_iter [] hvalue) (gives_iter hvalue) hhead)

theorem resolve_invertedTag {path : String} (hpath : Writable path.toList)
    (hvalue : Writable ("!" ++ path).toList) :
    Resolver.builtin.resolve (iterTag "if" ("!" ++ path)).tag =
      .ok (some [.conditional path true true]) := by
  have hkey : "iter" ∈ ["i", "iter"] := by decide
  have hhead : ("!" ++ path).toList = '!' :: path.toList := String.toList_append ..
  have hdirects := resolve_iterTag
    (.invertedTest rfl hkey (takesAll_iter [] hvalue) (gives_iter hvalue) hhead)
  rwa [hpath.stripped, String.ofList_toList] at hdirects

theorem otherwiseTag_valid : otherwiseTag.Valid :=
  WrittenTag.valid_directive (by decide) (List.forall_mem_nil _) (List.forall_mem_nil _)

theorem resolve_otherwiseTag :
    Resolver.builtin.resolve otherwiseTag.tag = .ok (some [.otherwise]) :=
  Resolver.resolve_of_directs rfl (.otherwise rfl rfl rfl)

theorem closeTag_valid (hname : name ∈ ["loop", "if"]) : (closeTag name).Valid :=
  WrittenTag.valid_directive (leading_mem hname) (List.forall_mem_nil _) (List.forall_mem_nil _)

theorem resolve_closeTag (hname : name ∈ ["loop", "if"]) :
    Resolver.builtin.resolve (closeTag name).tag = .ok (some [.close]) :=
  Resolver.resolve_of_directs String.ofList_toList (.close hname rfl rfl)

end Tags

/-! ## Blocks -/

/-- Literal texts are not joined over a part that is none. -/
theorem Part.coalesce_around {p : Part} (h : p.isRaw = false) (ps qs : List Part) :
    coalesce (ps ++ p :: qs) = coalesce ps ++ p :: coalesce qs := by
  have hfront := coalesceFrom_append "" ps []
  rw [List.append_nil] at hfront
  unfold coalesce
  rw [coalesceFrom_append, coalesceFrom_of_not_raw h, hfront, coalesceFrom]
  split <;> simp

theorem Part.coalesce_behind {p : Part} (h : p.isRaw = false) (ps : List Part) :
    coalesce (p :: ps) = p :: coalesce ps := coalesce_around h [] ps

/-- A block with two bodies gives its part and, between what turns and closes it, the parts of the
bodies. -/
theorem Compiled.templateOf_choiceSource {config : Config}
    (hconfig : config.resolver = Resolver.builtin) {name value first second : String}
    (hname : name ∈ ["loop", "if"]) (hvalue : Writable value.toList)
    (hblank : ∀ c ∈ value.toList, isBlank c = false) {p : Part} {ps qs : List Part}
    (hresolve : Resolver.builtin.resolve (iterTag name value).tag = .ok (some [p]))
    (hp : p.isRaw = false) (hfirst : Scan.ReadsAs Resolver.builtin.resolve first.toList ps)
    (hsecond : Scan.ReadsAs Resolver.builtin.resolve second.toList qs) :
    templateOf config (choiceSource name value first second) =
      .ok (p :: Part.coalesce ps ++ .otherwise :: Part.coalesce qs ++ [.close]) := by
  have hscan : ∀ place, Scan.Leads
      (Scan.scanFrom Resolver.builtin.resolve place (choiceSource name value first second).toList)
      ([p] ++ (ps ++ ([.otherwise] ++ (qs ++ [.close])))) Scan.done := by
    intro place
    have hdone : Scan.scanFrom Resolver.builtin.resolve place [] = Scan.done := by
      rw [Scan.scanFrom, dif_pos rfl]
    -- Each tag and each body is read in front of all that follows, down to the end of the source.
    rw [toList_choiceSource, ← hdone]
    exact (Scan.leads_tag (iterTag_valid hname hvalue hblank) hresolve _).trans
      ((hfirst place _ _ otherwiseTag_valid).trans
        ((Scan.leads_tag otherwiseTag_valid resolve_otherwiseTag _).trans
          ((hsecond place _ _ (closeTag_valid hname)).trans
            (Scan.leads_tag (closeTag_valid hname) (resolve_closeTag hname) _))))
  have hturn : Part.isRaw .otherwise = false := rfl
  have hclose : Part.isRaw .close = false := rfl
  obtain ⟨hparts, hfault⟩ := hscan (Scan.placeIn (choiceSource name value first second).toList
    config.sourceFile)
  have hjoined : Part.coalesce ([p] ++ (ps ++ ([.otherwise] ++ (qs ++ [.close]))) ++ []) =
      p :: Part.coalesce ps ++ .otherwise :: Part.coalesce qs ++ [.close] :=
    calc Part.coalesce ([p] ++ (ps ++ ([.otherwise] ++ (qs ++ [.close]))) ++ [])
        = Part.coalesce (p :: (ps ++ .otherwise :: (qs ++ [.close]))) := by simp
      _ = p :: Part.coalesce (ps ++ .otherwise :: (qs ++ [.close])) := Part.coalesce_behind hp _
      _ = p :: (Part.coalesce ps ++ .otherwise :: Part.coalesce (qs ++ [.close])) := by
          rw [Part.coalesce_around hturn]
      _ = p :: (Part.coalesce ps ++ .otherwise :: (Part.coalesce qs ++ [.close])) := by
          rw [Part.coalesce_around hclose]
          rfl
      _ = p :: Part.coalesce ps ++ .otherwise :: Part.coalesce qs ++ [.close] := by simp
  unfold templateOf Scan.ofSource Scan.template
  rw [hconfig]
  simp only [hfault, hparts, Scan.done]
  exact congrArg Except.ok hjoined

end HtmlTemplate
