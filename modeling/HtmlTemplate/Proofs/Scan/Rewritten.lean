import HtmlTemplate.Proofs.Scan.Rounds
import HtmlTemplate.Proofs.Scan.Unclosed
import HtmlTemplate.Proofs.Tag.Directive
import Mathlib.Data.List.Flatten
import Mathlib.Data.List.Nodup
import Mathlib.Data.List.Perm.Subperm
import Mathlib.Data.List.TakeWhile

/-!
# Rewritten — a tag that is written as it stands, scanned again

A tag that no reader claims, and that none of the rules for marks and markers is about, becomes one
literal text: its opening, its attributes with every value between quotes, and its ending.  A scan
of this text finds the same tag unless a value has a quote in it, where the value is then cut, or
the `>` comes right behind a slash at the end of the name, which is then read as `/>`
(`Scan.rewritten_iff`).

That a value which is cut does not come back further on is shown by counting equals signs.  Each
value of the tag needs one in front of it and those within it, and the text has no more than these;
but what is cut off has needed one already.
-/

namespace HtmlTemplate

open Text Marker

namespace Attributes

variable {attributes : Attributes} {key : String} {value : AttributeValue}

theorem mem_of_mem_set {a : String × AttributeValue} (h : a ∈ set key value attributes) :
    a = (key, value) ∨ a ∈ attributes := by
  induction attributes with
  | nil => exact Or.inl (List.mem_singleton.1 h)
  | cons first rest ih =>
    obtain ⟨k, v⟩ := first
    unfold set at h
    split at h
    · rename_i hk
      subst hk
      rcases List.mem_cons.1 h with rfl | h
      · exact Or.inl rfl
      · exact Or.inr (List.mem_cons_of_mem _ h)
    · rcases List.mem_cons.1 h with rfl | h
      · exact Or.inr List.mem_cons_self
      · exact (ih h).imp_right (List.mem_cons_of_mem _)

theorem set_of_not_mem (h : key ∉ attributes.map (·.1)) :
    set key value attributes = attributes ++ [(key, value)] := by
  induction attributes with
  | nil => rfl
  | cons first rest ih =>
    obtain ⟨k, v⟩ := first
    obtain ⟨hk, hrest⟩ := not_or.1 (mt List.mem_cons.2 h)
    rw [set, if_neg (Ne.symm hk), ih hrest, List.cons_append]

theorem ofList_concat (settings : List (String × AttributeValue))
    (setting : String × AttributeValue) :
    ofList (settings ++ [setting]) = set setting.1 setting.2 (ofList settings) := by
  simp [ofList]

/-- Every attribute has been set. -/
theorem mem_of_mem_ofList {settings : List (String × AttributeValue)} {a : String × AttributeValue}
    (h : a ∈ ofList settings) : a ∈ settings := by
  induction settings using List.reverseRecOn with
  | nil => cases h
  | append_singleton settings setting ih =>
    rw [ofList_concat] at h
    rcases mem_of_mem_set h with rfl | h
    · exact List.mem_append_right _ (List.mem_singleton_self _)
    · exact List.mem_append_left _ (ih h)

/-- No key is there twice. -/
theorem nodup_ofList (settings : List (String × AttributeValue)) :
    ((ofList settings).map (·.1)).Nodup := by
  induction settings using List.reverseRecOn with
  | nil => exact List.nodup_nil
  | append_singleton settings setting ih =>
    rw [ofList_concat, map_fst_set]
    split
    · exact ih
    · rename_i hkey
      exact (List.perm_append_singleton setting.1 _).nodup_iff.2 (List.nodup_cons.2 ⟨hkey, ih⟩)

/-- Attributes are what they are when each of them is set in turn. -/
theorem ofList_of_nodup (h : (attributes.map (·.1)).Nodup) : ofList attributes = attributes := by
  induction attributes using List.reverseRecOn with
  | nil => rfl
  | append_singleton attributes a ih =>
    rw [List.map_append, List.nodup_append] at h
    obtain ⟨hbefore, -, hdisjoint⟩ := h
    have hkey : a.1 ∉ attributes.map (·.1) := fun hmem =>
      hdisjoint a.1 hmem a.1 (List.mem_singleton_self _) rfl
    rw [ofList_concat, ih hbefore, set_of_not_mem hkey]

end Attributes

/-! ## What can be read -/

namespace Attribute

/-- None of the rules for marks and markers is about the attribute. -/
structure Plain (a : String × AttributeValue) : Prop where
  flag : a.1.toList.head? ≠ some '?'
  shorthand : a.1.toList.head? ≠ some ':'
  value : ∀ value, a.2 = .text value → hasOpening value.toList = false

/-- What is true of a plain attribute that has been read. -/
structure Legible (a : String × AttributeValue) : Prop where
  key : ∀ c ∈ a.1.toList, Chunk.isKeyChar c = true
  named : a.2 = .present → a.1 ≠ ""
  line : ∀ value, a.2 = .text value → '\n' ∉ value.toList

/-- Whether the value has a quote in it. -/
def Quoting (a : String × AttributeValue) : Prop := ∃ value, a.2 = .text value ∧ '"' ∈ value.toList

end Attribute

/-- What is true of a tag that has been read, if its attributes are plain. -/
structure Tag.Legible (tag : Tag) : Prop where
  name : ∀ c ∈ tag.name.toList, Chunk.isTagNameChar c = true
  opening : tag.isClose = false → ∃ c ∈ tag.name.toList.head?, isWordChar c = true
  nodup : (tag.attributes.map (·.1)).Nodup
  attributes : ∀ a ∈ tag.attributes, Attribute.Legible a

namespace Chunk

/-- A quoted value reaches up to the next quote, on one line. -/
theorem readQuotedValue_eq {cs value rest : List Char}
    (h : readQuotedValue cs = some (value, rest)) :
    cs = value ++ '"' :: rest ∧ '\n' ∉ value := by
  induction cs generalizing value with
  | nil => cases h
  | cons c cs ih =>
    unfold readQuotedValue at h
    split at h
    · rename_i hc
      obtain rfl := beq_iff_eq.1 hc
      cases h
      exact ⟨rfl, List.not_mem_nil⟩
    · split at h
      · cases h
      · rename_i hline
        obtain ⟨⟨v, r⟩, hv, h⟩ := Option.map_eq_some_iff.1 h
        cases h
        obtain ⟨rfl, hrest⟩ := ih hv
        have hc : '\n' ≠ c := fun he => hline (beq_iff_eq.2 he.symm)
        exact ⟨rfl, List.not_mem_cons_of_ne_of_not_mem hc hrest⟩

/-- What a value can be: a marker with its braces, a text between quotes, a run without blanks, or
nothing. -/
theorem readValue_cases (cs : List Char) :
    (∃ e, (readValue cs).1 = '{' :: '{' :: e ∧ cs = (readValue cs).1 ++ (readValue cs).2) ∨
    (cs = '"' :: ((readValue cs).1 ++ '"' :: (readValue cs).2) ∧ '\n' ∉ (readValue cs).1) ∨
    (cs = (readValue cs).1 ++ (readValue cs).2 ∧ ∀ c ∈ (readValue cs).1, isBareChar c = true) := by
  unfold readValue
  split
  · rename_i tail
    split
    · rename_i e rest he
      refine Or.inl ⟨e ++ ['}', '}'], rfl, ?_⟩
      rw [Marker.readExpression_eq he]
      simp
    · exact Or.inr (Or.inr ⟨rfl, fun _ h => absurd h List.not_mem_nil⟩)
  · rename_i tail
    split
    · rename_i value rest hvalue
      obtain ⟨rfl, hline⟩ := readQuotedValue_eq hvalue
      exact Or.inr (Or.inl ⟨rfl, hline⟩)
    · exact Or.inr (Or.inr ⟨rfl, fun _ h => absurd h List.not_mem_nil⟩)
  · exact Or.inr (Or.inr ⟨List.takeWhile_append_dropWhile.symm, fun _ => List.mem_takeWhile_imp⟩)

/-- A value without opening braces is on one line. -/
theorem newline_not_mem_readValue {cs : List Char} (h : hasOpening (readValue cs).1 = false) :
    '\n' ∉ (readValue cs).1 := by
  rcases readValue_cases cs with ⟨e, he, -⟩ | ⟨-, hline⟩ | ⟨-, hbare⟩
  · rw [he] at h
    cases h
  · exact hline
  · exact fun hmem => absurd (hbare '\n' hmem) (by decide)

/-- What a round sets can be read. -/
theorem legible_of_round {cs : List Char} {r : Round} (h : round? cs = some r)
    {a : String × AttributeValue} (ha : r.setting? = some a) (hplain : Attribute.Plain a) :
    Attribute.Legible a := by
  have hkey : ∀ c ∈ (String.ofList ((cs.dropWhile isBlank).takeWhile isKeyChar)).toList,
      isKeyChar c = true := by
    rw [String.toList_ofList]
    exact fun _ => List.mem_takeWhile_imp
  unfold round? at h
  dsimp only at h
  split at h
  · rename_i after hafter
    cases h
    cases ha
    have htext : AttributeValue.text (String.ofList (readValue after).1) ≠ .present :=
      AttributeValue.noConfusion
    refine ⟨hkey, fun he => absurd he htext, fun value hvalue => ?_⟩
    have hbraces := hplain.value value hvalue
    cases hvalue
    rw [String.toList_ofList] at hbraces ⊢
    exact newline_not_mem_readValue hbraces
  · split at h
    · cases h
      rw [Option.ite_none_left_eq_some] at ha
      obtain ⟨hnamed, ha⟩ := ha
      cases ha
      refine ⟨hkey, fun _ => ?_, fun value he => AttributeValue.noConfusion he⟩
      rwa [String.isEmpty_iff] at hnamed
    · cases h

/-- Every attribute of a tag is set by one of its rounds. -/
theorem exists_round {cs rest : List Char} {tag : Tag} (h : readTag cs = .ok (tag, rest))
    {a : String × AttributeValue} (ha : a ∈ tag.attributes) :
    ∃ r, round? r.start = some r ∧ r.setting? = some a := by
  obtain ⟨hattributes, hrounds⟩ := readTag_rounds h
  rw [hattributes] at ha
  obtain ⟨r, hr, hset⟩ := List.mem_filterMap.1 (Attributes.mem_of_mem_ofList ha)
  rw [(hrounds (List.ne_nil_of_mem hr)).1] at hr
  exact ⟨r, round?_of_mem hr, hset⟩

theorem isTagNameChar_of_isWordChar {c : Char} (h : isWordChar c = true) :
    isTagNameChar c = true := by
  have hblank : isBlank c = false := Path.isBlank_of_isNameChar (by rw [Path.isNameChar, h]; rfl)
  have hclose : c ≠ '>' := by
    rintro rfl
    cases h
  simp [isTagNameChar, hblank, hclose]

/-- The name of a tag is the run behind the `<`, less the slash of `/>`. -/
theorem name_of_readTag {cs rest : List Char} {tag : Tag} (h : readTag cs = .ok (tag, rest)) :
    tag.isClose = (readSlash cs).1 ∧
      ((readSlash cs).2.takeWhile isTagNameChar = tag.name.toList ∨
        (readSlash cs).2.takeWhile isTagNameChar = tag.name.toList ++ ['/']) := by
  unfold readTag at h
  dsimp only at h
  split at h
  · rename_i name after hself
    cases h
    refine ⟨rfl, Or.inr ?_⟩
    unfold selfClosed? at hself
    split at hself
    · rename_i hrev _
      cases hself
      rw [String.toList_ofList, ← List.reverse_cons, ← hrev, List.reverse_reverse]
    · cases hself
  · split at h
    · cases h
      exact ⟨rfl, Or.inl (String.toList_ofList).symm⟩
    · cases h

/-- The name of a tag that does not start with `</` starts with a word character. -/
theorem head_name_of_read {cs rest : List Char} {tag : Tag}
    (h : read cs = .ok (.tag tag, rest)) (hopen : tag.isClose = false) :
    ∃ c ∈ tag.name.toList.head?, isWordChar c = true := by
  obtain ⟨hclose, hname⟩ := name_of_readTag (readTag_of_read h).2
  obtain ⟨chars, rfl, c, body, hc, rfl⟩ := read_fits h
  simp only [List.cons_append, List.tail_cons] at hclose hname
  have hslash : c ≠ '/' := by
    rintro rfl
    rw [hopen] at hclose
    cases hclose
  have hword : isWordChar c = true := hc.resolve_left hslash
  rw [readSlash_of_ne hslash, List.takeWhile_cons_of_pos (isTagNameChar_of_isWordChar hword)]
    at hname
  refine ⟨c, ?_, hword⟩
  rcases hname with hname | hname
  · rw [← hname]
    rfl
  · -- The name is not empty, as the slash behind it is no word character.
    rcases List.cons_eq_append_iff.1 hname with ⟨-, he⟩ | ⟨name, hname, -⟩
    · exact absurd (List.cons.inj he).1.symm hslash
    · rw [hname]
      rfl

/-- What is read is legible. -/
theorem legible_of_read {cs rest : List Char} {tag : Tag} (h : read cs = .ok (.tag tag, rest))
    (hplain : ∀ a ∈ tag.attributes, Attribute.Plain a) : tag.Legible where
  name := by
    intro c hc
    apply List.mem_takeWhile_imp (l := (readSlash cs.tail).2)
    rcases (name_of_readTag (readTag_of_read h).2).2 with hname | hname
    · rw [hname]
      exact hc
    · rw [hname]
      exact List.mem_append_left _ hc
  opening := head_name_of_read h
  nodup := by
    rw [(readTag_rounds (readTag_of_read h).2).1]
    exact Attributes.nodup_ofList _
  attributes := by
    intro a ha
    obtain ⟨r, hr, hset⟩ := exists_round (readTag_of_read h).2 ha
    exact legible_of_round hr hset (hplain a ha)

end Chunk

/-! ## What is written -/

namespace Attribute

/-- The text of a plain attribute, with the blank in front of it. -/
def markup : String × AttributeValue → List Char
  | (key, .present) => ' ' :: key.toList
  | (key, .text value) => ' ' :: (key.toList ++ '=' :: '"' :: (value.toList ++ ['"']))

/-- A plain attribute is written as it stands. -/
theorem parts_plain {a : String × AttributeValue} (h : Plain a) :
    parts a.1 a.2 = .ok [.raw (String.ofList (markup a))] := by
  obtain ⟨key, value⟩ := a
  obtain ⟨hflag, hshorthand, hvalue⟩ := h
  rw [parts_of_unmarked hflag hshorthand]
  cases value with
  | present => simp [plainParts, markup]
  | text value =>
    have hmarked : ¬ Complete value.toList := by
      intro hcomplete
      have hbraces := hcomplete.hasOpening
      rw [hvalue value rfl] at hbraces
      cases hbraces
    rw [plainParts, Pieces.ofText_of_not_complete hmarked]
    simp [Pieces.single?, markup, ← String.toList_inj]

end Attribute

/-- The text of a tag with plain attributes. -/
def Tag.markup (tag : Tag) : List Char :=
  tag.opening.toList ++ (tag.attributes.flatMap Attribute.markup ++ tag.ending.toList)

namespace Scan

theorem attributesYield_plain (ending : String) {attributes : Attributes}
    (h : ∀ a ∈ attributes, Attribute.Plain a) :
    attributesYield ending attributes =
      ⟨attributes.map (fun a => .raw (String.ofList (Attribute.markup a))) ++ [.raw ending],
        none⟩ := by
  induction attributes with
  | nil => rfl
  | cons a attributes ih =>
    obtain ⟨ha, h⟩ := List.forall_mem_cons.1 h
    rw [attributesYield, Attribute.parts_plain ha, ih h]
    rfl

theorem coalesceFrom_plain (pending : String) {ending : String} (hending : ending.isEmpty = false)
    (attributes : Attributes) :
    Part.coalesceFrom pending
        (attributes.map (fun a => .raw (String.ofList (Attribute.markup a))) ++ [.raw ending]) =
      [.raw (String.ofList
        (pending.toList ++ (attributes.flatMap Attribute.markup ++ ending.toList)))] := by
  induction attributes generalizing pending with
  | nil =>
    have hne : (pending ++ ending).isEmpty = false := Part.isEmpty_append pending hending
    change Part.coalesceFrom (pending ++ ending) [] = _
    rw [Part.coalesceFrom, hne]
    simp
  | cons a attributes ih =>
    rw [List.map_cons, List.cons_append, Part.coalesceFrom, ih]
    simp

/-- A tag with plain attributes is written as one literal text. -/
theorem literalYield_plain {tag : Tag} (h : ∀ a ∈ tag.attributes, Attribute.Plain a) :
    (literalYield tag).fault = none ∧
      Part.coalesce (literalYield tag).parts = [.raw (String.ofList tag.markup)] := by
  have hending : tag.ending.isEmpty = false := by
    unfold Tag.ending
    split <;> rfl
  have hyield : literalYield tag = ⟨.raw tag.opening ::
      (tag.attributes.map (fun a => .raw (String.ofList (Attribute.markup a))) ++
        [.raw tag.ending]), none⟩ := by
    rw [literalYield, attributesYield_plain _ h]
    rfl
  rw [hyield]
  refine ⟨rfl, ?_⟩
  change Part.coalesceFrom ("" ++ tag.opening) _ = _
  rw [coalesceFrom_plain _ hending, String.empty_append]
  rfl

/-! ## One tag and nothing else -/

/-- Whether a scan found one tag, and nothing else. -/
structure Single (scan : Scan) (tag : Tag) : Prop where
  kinds : scan.kinds = [.tag]
  tags : scan.tags = [tag]
  fault : scan.fault = none

/-- A scan without fault that finds nothing has nothing to scan. -/
theorem eq_nil_of_kinds {reader : TagReader} {place : List Char → Interpolation.Locator}
    {cs : List Char} (hkinds : (scanFrom reader place cs).kinds = [])
    (hfault : (scanFrom reader place cs).fault = none) : cs = [] := by
  rw [kinds_scanFrom, List.map_eq_nil_iff] at hkinds
  have hchars := (scanFrom_eq_spans hfault).2.2
  rw [hkinds] at hchars
  exact hchars.symm

/-- One tag and nothing else is read off the source, which nothing is left of. -/
theorem Single.read {file : Option String} {source : String} {tag : Tag}
    (h : (ofSource .literal file source).Single tag) :
    Chunk.read source.toList = .ok (.tag tag, []) ∧
      (ofSource .literal file source).parts = (literalYield tag).parts := by
  obtain ⟨hkinds, htags, hfault⟩ := h
  unfold ofSource at *
  cases hcall : call Resolver.literal.resolve (placeIn source.toList file) source.toList with
  | finished =>
    rw [call_eq_finished_iff.1 hcall, scanFrom_of_finished] at hkinds
    cases hkinds
  | refused fault =>
    rw [(scanFrom_of_refused hcall).1] at hkinds
    cases hkinds
  | took span rest =>
    -- What stands behind the first span gives no kinds and no fault, so there is nothing.
    obtain ⟨-, -, -, hread, hyield⟩ := of_call_took hcall
    rw [scanFrom_of_took hcall] at hkinds htags hfault ⊢
    obtain ⟨hkind, hrest⟩ := List.cons.inj hkinds
    obtain rfl := eq_nil_of_kinds hrest hfault
    rw [scanFrom_of_finished] at htags ⊢
    obtain ⟨chars, chunk, parts⟩ := span
    cases chunk with
    | text cs => cases hkind
    | comment cs => cases hkind
    | tag found =>
      obtain ⟨rfl, -⟩ := List.cons.inj htags
      have hparts : literalYield found = ⟨parts, none⟩ := hyield
      rw [hparts]
      exact ⟨hread, List.append_nil parts⟩

/-- What is read off a source whole is found and nothing else, if it can be written. -/
theorem Single.of_read {source : String} {tag : Tag}
    (hread : Chunk.read source.toList = .ok (.tag tag, []))
    (hfault : (literalYield tag).fault = none) (file : Option String) :
    (ofSource .literal file source).Single tag := by
  have hne : source.toList ≠ [] := by
    intro hnil
    rw [hnil] at hread
    cases hread
  have hyield : ∀ place, (chunkYield Resolver.literal.resolve place (.tag tag)).fault = none :=
    fun _ => hfault
  rw [ofSource, scanFrom_of_read hne hread, hyield, scanFrom_of_finished]
  exact ⟨rfl, rfl, rfl⟩

end Scan

/-! ## Reading what is written -/

namespace Chunk

/-- Where a key or a value of a written tag is at its end. -/
theorem stops_markup (attributes : Attributes) {rest : List Char} (hrest : Stops rest) :
    Stops (attributes.flatMap Attribute.markup ++ rest) := by
  cases attributes with
  | nil => exact hrest
  | cons a attributes =>
    obtain ⟨key, value⟩ := a
    cases value with
    | present => exact ⟨' ', _, rfl, Or.inl rfl⟩
    | text value => exact ⟨' ', _, rfl, Or.inl rfl⟩

/-- The round at a key without a value. -/
theorem round?_key {blanks key rest : List Char} (hb : ∀ c ∈ blanks, isBlank c = true)
    (hk : ∀ c ∈ key, isKeyChar c = true) (hkey : key ≠ []) (hrest : Stops rest) :
    round? (blanks ++ (key ++ rest)) =
      some ⟨blanks ++ (key ++ rest), some (String.ofList key, .present), rest⟩ := by
  obtain ⟨hstop, hequals⟩ := hrest.not_isKeyChar
  have hdrop : (blanks ++ (key ++ rest)).dropWhile isBlank = key ++ rest :=
    dropWhile_blanks hb hk fun h => absurd h hkey
  have hlength : rest.length < (blanks ++ (key ++ rest)).length := by
    have hpos := List.length_pos_iff.2 hkey
    simp only [List.length_append]
    omega
  have hnamed : (String.ofList key).isEmpty = false := by
    simp [String.isEmpty_eq_false_iff, hkey]
  unfold round?
  dsimp only
  rw [hdrop, dropWhile_run hk hstop, takeWhile_run hk hstop]
  split
  · exact absurd rfl hequals
  · rw [if_pos hlength, hnamed]
    rfl

/-- The round at an attribute without a quote in its value. -/
theorem round?_markup {a : String × AttributeValue} (ha : Attribute.Legible a)
    (hquote : ¬ Attribute.Quoting a) {rest : List Char} (hrest : Stops rest) :
    round? (Attribute.markup a ++ rest) = some ⟨Attribute.markup a ++ rest, some a, rest⟩ := by
  obtain ⟨key, value⟩ := a
  obtain ⟨hkey, hnamed, hline⟩ := ha
  have hblank : ∀ c ∈ [' '], isBlank c = true := List.forall_mem_singleton.2 rfl
  cases value with
  | present =>
    have hne : key.toList ≠ [] := mt String.toList_eq_nil_iff.1 (hnamed rfl)
    have hround := round?_key hblank hkey hne hrest
    rwa [String.ofList_toList] at hround
  | text value =>
    have hvalue : '"' ∉ value.toList := fun h => hquote ⟨value, rfl, h⟩
    have htext : Attribute.markup (key, .text value) ++ rest =
        [' '] ++ (key.toList ++ '=' :: '"' :: (value.toList ++ '"' :: rest)) := by
      simp [Attribute.markup]
    rw [htext, round?_value hblank hkey, readValue_quote hvalue, if_neg (hline value rfl),
      String.ofList_toList, String.ofList_toList]

/-- The round at an attribute with a quote in its value, which is cut there. -/
theorem round?_quoting {key value : String} (hkey : ∀ c ∈ key.toList, isKeyChar c = true)
    (hline : '\n' ∉ value.toList) (hquote : '"' ∈ value.toList) (rest : List Char) :
    ∃ r cut, round? (Attribute.markup (key, .text value) ++ rest) = some r ∧
      r.setting? = some (key, .text cut) ∧ cut ≠ value := by
  obtain ⟨cut, after, hvalue, hcut⟩ := List.eq_append_cons_of_mem hquote
  have hblank : ∀ c ∈ [' '], isBlank c = true := List.forall_mem_singleton.2 rfl
  have htext : Attribute.markup (key, .text value) ++ rest =
      [' '] ++ (key.toList ++ '=' :: '"' :: (cut ++ '"' :: (after ++ '"' :: rest))) := by
    simp [Attribute.markup, hvalue]
  have hcutline : '\n' ∉ cut := fun h => hline (hvalue ▸ List.mem_append_left _ h)
  refine ⟨_, String.ofList cut, by rw [htext, round?_value hblank hkey], ?_, ?_⟩
  · rw [readValue_quote hcut, if_neg hcutline, String.ofList_toList]
  · rintro rfl
    rw [String.toList_ofList] at hquote
    exact hcut hquote

/-- The rounds in which a written tag is read, if no value has a quote in it, set its attributes and
leave the ending. -/
theorem rounds_markup {attributes : Attributes}
    (hlegible : ∀ a ∈ attributes, Attribute.Legible a)
    (hquote : ∀ a ∈ attributes, ¬ Attribute.Quoting a) {rest : List Char} (hrest : Stops rest) :
    let cs := attributes.flatMap Attribute.markup ++ rest
    settingsOf (rounds cs) = attributes ++ settingsOf (rounds rest) ∧
      endOf cs (rounds cs) = endOf rest (rounds rest) := by
  induction attributes with
  | nil => exact ⟨rfl, rfl⟩
  | cons a attributes ih =>
    obtain ⟨ha, hlegible⟩ := List.forall_mem_cons.1 hlegible
    obtain ⟨haquote, hquote⟩ := List.forall_mem_cons.1 hquote
    obtain ⟨hsettings, hend⟩ := ih hlegible hquote
    have hround := round?_markup ha haquote (stops_markup attributes hrest)
    dsimp only
    rw [List.flatMap_cons, List.append_assoc, rounds_of_some hround, endOf_cons, hend]
    exact ⟨congrArg (a :: ·) hsettings, rfl⟩

/-- If some value has a quote in it, a round sets a key to less than its value. -/
theorem exists_cut {attributes : Attributes} (hlegible : ∀ a ∈ attributes, Attribute.Legible a)
    (hquote : ∃ a ∈ attributes, Attribute.Quoting a) {rest : List Char} (hrest : Stops rest) :
    ∃ key value cut, (key, .text value) ∈ attributes ∧ cut ≠ value ∧
      (key, .text cut) ∈ settingsOf (rounds (attributes.flatMap Attribute.markup ++ rest)) := by
  induction attributes with
  | nil =>
    obtain ⟨_, h, -⟩ := hquote
    cases h
  | cons a attributes ih =>
    obtain ⟨ha, hlegible⟩ := List.forall_mem_cons.1 hlegible
    rw [List.flatMap_cons, List.append_assoc]
    by_cases haquote : Attribute.Quoting a
    · -- The cut value is set right here, whatever the rest of it is taken for.
      obtain ⟨key, _⟩ := a
      obtain ⟨value, rfl, hmem⟩ := haquote
      obtain ⟨r, cut, hr, hset, hne⟩ := round?_quoting ha.key (ha.line value rfl) hmem
        (attributes.flatMap Attribute.markup ++ rest)
      refine ⟨key, value, cut, List.mem_cons_self, hne, ?_⟩
      rw [rounds_of_some hr, settingsOf, List.filterMap_cons_some hset]
      exact List.mem_cons_self
    · -- The first attribute is read as it is, and the one with the quote stands behind it.
      have hquote' : ∃ a ∈ attributes, Attribute.Quoting a := by
        obtain ⟨b, hb, hbquote⟩ := hquote
        rcases List.mem_cons.1 hb with rfl | hb
        · exact absurd hbquote haquote
        · exact ⟨b, hb, hbquote⟩
      obtain ⟨key, value, cut, hmem, hne, hset⟩ := ih hlegible hquote'
      refine ⟨key, value, cut, List.mem_cons_of_mem _ hmem, hne, ?_⟩
      rw [rounds_of_some (round?_markup ha haquote (stops_markup attributes hrest))]
      exact List.mem_cons_of_mem _ hset

/-! ## Counting equals signs -/

theorem count_key {key : List Char} (hkey : ∀ c ∈ key, isKeyChar c = true) :
    key.count '=' = 0 :=
  List.count_eq_zero.2 fun h => absurd (hkey '=' h) (by decide)

/-- The equals signs that a value is read from are in the value or behind it. -/
theorem count_readValue (cs : List Char) :
    (readValue cs).1.count '=' + (readValue cs).2.count '=' = cs.count '=' := by
  rcases readValue_cases cs with ⟨-, -, hcs⟩ | ⟨hcs, -⟩ | ⟨hcs, -⟩
  · rw [← List.count_append, ← hcs]
  · have hcount := congrArg (List.count '=') hcs
    rw [List.count_cons_of_ne (by decide), List.count_append, List.count_cons_of_ne (by decide)]
      at hcount
    exact hcount.symm
  · rw [← List.count_append, ← hcs]

theorem count_markup_text (key value : String) :
    (Attribute.markup (key, .text value)).count '=' =
      key.toList.count '=' + value.toList.count '=' + 1 := by
  simp [Attribute.markup]
  omega

/-- What a round sets is written with equals signs that the round has taken. -/
theorem count_round {cs : List Char} {r : Round} (h : round? cs = some r) :
    ((settingsOf [r]).flatMap Attribute.markup).count '=' + r.rest.count '=' ≤ cs.count '=' := by
  have hfound : (cs.dropWhile isBlank).dropWhile isKeyChar <:+ cs :=
    (List.dropWhile_suffix _).trans (List.dropWhile_suffix _)
  have hcount := hfound.sublist.count_le '='
  have hkey : ((cs.dropWhile isBlank).takeWhile isKeyChar).count '=' = 0 :=
    count_key fun _ => List.mem_takeWhile_imp
  unfold round? at h
  dsimp only at h
  split at h
  · rename_i after hafter
    cases h
    -- The key has no equals sign, and the one behind it has been taken.
    rw [hafter, List.count_cons_self] at hcount
    have hvalue := count_readValue after
    change (Attribute.markup (_, _) ++ []).count '=' + (readValue after).2.count '=' ≤ _
    rw [List.append_nil, count_markup_text, String.toList_ofList, String.toList_ofList, hkey]
    omega
  · split at h
    · cases h
      cases (String.ofList ((cs.dropWhile isBlank).takeWhile isKeyChar)).isEmpty <;>
        simpa [settingsOf, Attribute.markup, hkey] using hcount
    · cases h

/-- The settings of rounds are written with no more equals signs than there are. -/
theorem count_rounds (cs : List Char) :
    ((settingsOf (rounds cs)).flatMap Attribute.markup).count '=' ≤ cs.count '=' := by
  fun_induction rounds cs with
  | case1 => exact Nat.zero_le _
  | case2 cs r h _ ih =>
    have hround := count_round h
    rw [settingsOf_cons, List.flatMap_append, List.count_append]
    omega

/-- Attributes that are all in a list, each of them once, are written with no more equals signs. -/
theorem count_markup_le {attributes settings : List (String × AttributeValue)}
    (h : attributes.Subperm settings) :
    (attributes.flatMap Attribute.markup).count '=' ≤
      (settings.flatMap Attribute.markup).count '=' := by
  obtain ⟨sublist, hperm, hsub⟩ := h
  rw [← (hperm.flatMap_right Attribute.markup).count_eq]
  exact (hsub.flatMap Attribute.markup).count_le '='

/-! ## Tags that are written and read -/

/-- The text of a tag less its `<`. -/
theorem tail_markup (tag : Tag) : tag.markup = '<' :: tag.markup.tail ∧
    tag.markup.tail = (if tag.isClose then ['/'] else []) ++
      (tag.name.toList ++ (tag.attributes.flatMap Attribute.markup ++ tag.ending.toList)) := by
  unfold Tag.markup Tag.opening
  cases tag.isClose <;> simp

/-- Whether the `>` of the ending comes right behind a slash at the end of the name. -/
def SlashEnds (tag : Tag) : Prop :=
  tag.name.toList.getLast? = some '/' ∧ tag.attributes = [] ∧ tag.isSelfClosing = false

/-- What stands behind the name: a blank, or the `>` of the ending. -/
theorem behindName_cases (tag : Tag) :
    ((tag.attributes = [] → tag.isSelfClosing = true) ∧
      ∃ tail, tag.attributes.flatMap Attribute.markup ++ tag.ending.toList = ' ' :: tail) ∨
    ((tag.attributes = [] ∧ tag.isSelfClosing = false) ∧
      tag.attributes.flatMap Attribute.markup ++ tag.ending.toList = ['>']) := by
  obtain ⟨name, attributes, isClose, isSelfClosing⟩ := tag
  cases attributes with
  | nil =>
    cases isSelfClosing with
    | true => exact Or.inl ⟨fun _ => rfl, ['/', '>'], by simp [Tag.ending]⟩
    | false => exact Or.inr ⟨⟨rfl, rfl⟩, by simp [Tag.ending]⟩
  | cons a attributes =>
    obtain ⟨key, value⟩ := a
    cases value with
    | present => exact Or.inl ⟨fun he => absurd he (List.cons_ne_nil _ _), _, rfl⟩
    | text value => exact Or.inl ⟨fun he => absurd he (List.cons_ne_nil _ _), _, rfl⟩

/-- The name takes the slash of `/>` only where the two come together. -/
theorem selfClosed?_markup (tag : Tag) :
    (selfClosed? tag.name.toList
      (tag.attributes.flatMap Attribute.markup ++ tag.ending.toList)).isSome = true ↔
        SlashEnds tag := by
  unfold SlashEnds
  rcases behindName_cases tag with ⟨hself, tail, hbehind⟩ | ⟨⟨hnone, hself⟩, hbehind⟩
  · -- Behind a blank stands no `>` for a slash of the name to go with.
    have hopen : selfClosed? tag.name.toList (' ' :: tail) = none := by
      unfold selfClosed?
      split
      · rename_i he
        cases he
      · rfl
    rw [hbehind, hopen]
    refine iff_of_false Bool.false_ne_true ?_
    rintro ⟨-, hnone, hopen⟩
    rw [hself hnone] at hopen
    cases hopen
  · rw [hbehind]
    by_cases hslash : tag.name.toList.getLast? = some '/'
    · obtain ⟨name, hname⟩ := List.getLast?_eq_some_iff.1 hslash
      rw [hname, selfClosed?_of_slash]
      exact iff_of_true rfl ⟨by simp, hnone, hself⟩
    · rw [selfClosed?_of_noSlash hslash]
      exact iff_of_false Bool.false_ne_true fun h => hslash h.1

theorem stops_ending (tag : Tag) : Stops tag.ending.toList := by
  unfold Tag.ending
  cases tag.isSelfClosing with
  | true => exact ⟨' ', _, rfl, Or.inl rfl⟩
  | false => exact ⟨'>', _, rfl, Or.inr (Or.inr rfl)⟩

/-- At the ending of a tag there are blanks at most to take before it is read. -/
theorem rounds_ending (tag : Tag) : settingsOf (rounds tag.ending.toList) = [] ∧
    readEnding (endOf tag.ending.toList (rounds tag.ending.toList)) =
      some (tag.isSelfClosing, []) := by
  unfold Tag.ending
  cases tag.isSelfClosing with
  | true =>
    have hblank : round? " />".toList = some ⟨" />".toList, none, "/>".toList⟩ := by decide
    have hend : rounds "/>".toList = [] := rounds_of_none (by decide)
    rw [if_pos rfl, rounds_of_some hblank, hend]
    exact ⟨rfl, rfl⟩
  | false =>
    have hend : rounds ">".toList = [] := rounds_of_none (by decide)
    rw [if_neg Bool.false_ne_true, hend]
    exact ⟨rfl, rfl⟩

/-- The name of a written tag ends before anything that stands behind it. -/
theorem readName_markup {tag : Tag} (h : tag.Legible) :
    (readSlash tag.markup.tail).1 = tag.isClose ∧
      (readSlash tag.markup.tail).2.takeWhile isTagNameChar = tag.name.toList ∧
      behindName tag.markup.tail =
        tag.attributes.flatMap Attribute.markup ++ tag.ending.toList := by
  have hstop : (tag.attributes.flatMap Attribute.markup ++ tag.ending.toList).head?.any
      isTagNameChar = false := by
    rcases behindName_cases tag with ⟨-, tail, hbehind⟩ | ⟨-, hbehind⟩
    · rw [hbehind]
      rfl
    · rw [hbehind]
      rfl
  unfold behindName
  rw [(tail_markup tag).2, readSlash_written h.opening]
  exact ⟨rfl, takeWhile_run h.name hstop, dropWhile_run h.name hstop⟩

/-- A written tag is read again if no value has a quote in it and no slash meets the ending. -/
theorem readTag_markup {tag : Tag} (h : tag.Legible)
    (hquote : ∀ a ∈ tag.attributes, ¬ Attribute.Quoting a) (hslash : ¬ SlashEnds tag) :
    readTag tag.markup.tail = .ok (tag, []) := by
  obtain ⟨hclose, hname, hbehind⟩ := readName_markup h
  have hopen := Option.not_isSome_iff_eq_none.1 (mt (selfClosed?_markup tag).1 hslash)
  obtain ⟨hsettings, hend⟩ := rounds_markup h.attributes hquote (stops_ending tag)
  obtain ⟨hnone, hending⟩ := rounds_ending tag
  rw [hnone, List.append_nil] at hsettings
  -- The rounds set the attributes again, and as no key is there twice, that makes the same ones.
  have hattributes := Attributes.ofList_of_nodup h.nodup
  unfold Attributes.ofList at hattributes
  unfold behindName at hbehind
  unfold readTag
  dsimp only
  rw [hclose, hname, hbehind, hopen]
  dsimp only
  rw [readAttributes_rounds, hsettings, hend, hending]
  dsimp only
  rw [hattributes, String.ofList_toList]

/-- The slash that meets the ending is not read as the end of the name. -/
theorem not_slashEnds_of_readTag {tag : Tag} (h : tag.Legible)
    (hread : readTag tag.markup.tail = .ok (tag, [])) : ¬ SlashEnds tag := by
  intro hslash
  obtain ⟨hclose, hname, hbehind⟩ := readName_markup h
  have hself := (selfClosed?_markup tag).2 hslash
  rw [Option.isSome_iff_exists] at hself
  obtain ⟨⟨name, after⟩, hself⟩ := hself
  unfold behindName at hbehind
  unfold readTag at hread
  dsimp only at hread
  rw [hclose, hname, hbehind, hself] at hread
  -- A tag that ends with `/>` would have been read.
  obtain ⟨he, -⟩ := Prod.mk.inj (Except.ok.inj hread)
  have hopen := hslash.2.2
  rw [← he] at hopen
  cases hopen

/-- A value that is cut leaves too few equals signs for the attributes. -/
theorem not_quoting_of_readTag {tag : Tag} (h : tag.Legible)
    (hread : readTag tag.markup.tail = .ok (tag, [])) :
    ∀ a ∈ tag.attributes, ¬ Attribute.Quoting a := by
  intro a ha hquoting
  obtain ⟨-, -, hbehind⟩ := readName_markup h
  obtain ⟨hattributes, hrounds⟩ := readTag_rounds hread
  have hsome : tagRounds tag.markup.tail ≠ [] := by
    intro hnil
    rw [hattributes, hnil] at ha
    cases ha
  rw [(hrounds hsome).1, hbehind] at hattributes
  obtain ⟨key, value, cut, hvalue, hne, hcut⟩ :=
    exists_cut h.attributes ⟨a, ha, hquoting⟩ (stops_ending tag)
  generalize hset : settingsOf (rounds
    (tag.attributes.flatMap Attribute.markup ++ tag.ending.toList)) = settings at hattributes hcut
  -- The settings hold the attributes and, besides them, the cut value.
  have hnot : (key, .text cut) ∉ tag.attributes := by
    intro hmem
    have hsame := List.inj_on_of_nodup_map h.nodup hmem hvalue rfl
    exact hne (AttributeValue.text.inj (Prod.mk.inj hsame).2)
  have hnodup : ((key, .text cut) :: tag.attributes).Nodup :=
    List.nodup_cons.2 ⟨hnot, List.Nodup.of_map _ h.nodup⟩
  have hsub : (key, .text cut) :: tag.attributes ⊆ settings := by
    refine List.cons_subset.2 ⟨hcut, fun a ha => ?_⟩
    rw [hattributes] at ha
    exact Attributes.mem_of_mem_ofList ha
  have hless := count_markup_le (List.subperm_of_subset hnodup hsub)
  have hmost := count_rounds (tag.attributes.flatMap Attribute.markup ++ tag.ending.toList)
  have hending : tag.ending.toList.count '=' = 0 := by
    unfold Tag.ending
    split <;> rfl
  rw [hset, List.count_append, hending] at hmost
  rw [List.flatMap_cons, List.count_append, count_markup_text] at hless
  omega

/-- The text of a tag is read as the tag if neither a quote nor a slash is in the way. -/
theorem read_markup_iff {tag : Tag} (h : tag.Legible) :
    read tag.markup = .ok (.tag tag, []) ↔
      (∀ a ∈ tag.attributes, ¬ Attribute.Quoting a) ∧ ¬ SlashEnds tag := by
  constructor
  · intro hread
    have htag := (readTag_of_read hread).2
    exact ⟨not_quoting_of_readTag h htag, not_slashEnds_of_readTag h htag⟩
  · rintro ⟨hquote, hslash⟩
    have htag := readTag_markup h hquote hslash
    obtain ⟨hmarkup, htail⟩ := tail_markup tag
    rw [htail] at hmarkup htag
    rw [hmarkup]
    exact read_of_readTag h.opening htag

end Chunk

namespace Scan

/-- A tag that is scanned and written is the same tag when it is scanned again, unless a quote or a
slash is in the way.

Let a source be one tag and nothing else, let no reader claim it, and let its attributes be plain:
none starts with a mark, and no value holds opening braces.  Then its template is one literal text.
A scan of this text finds the same tag and nothing else, with its name, its attributes and how it
starts and ends, if and only if no value has a quote in it, as only a bare one can, and the `>` does
not come right behind a slash at the end of the name. -/
theorem rewritten_iff {file : Option String} {source : String} {tag : Tag}
    (hsingle : (ofSource .literal file source).Single tag)
    (hplain : ∀ a ∈ tag.attributes, Attribute.Plain a) :
    ∃ markup, (ofSource .literal file source).template = [.raw markup] ∧
      ∀ file', (ofSource .literal file' markup).Single tag ↔
        (∀ key value, (key, .text value) ∈ tag.attributes → '"' ∉ value.toList) ∧
        (tag.name.toList.getLast? = some '/' → tag.attributes = [] →
          tag.isSelfClosing = true) := by
  obtain ⟨hread, hparts⟩ := hsingle.read
  obtain ⟨hfault, hmarkup⟩ := literalYield_plain hplain
  have hlegible := Chunk.legible_of_read hread hplain
  refine ⟨String.ofList tag.markup, ?_, fun file' => ?_⟩
  · rw [template, hparts, hmarkup]
  · have hagain : (ofSource .literal file' (String.ofList tag.markup)).Single tag ↔
        Chunk.read (String.ofList tag.markup).toList = .ok (.tag tag, []) :=
      ⟨fun h => h.read.1, fun h => Single.of_read h hfault file'⟩
    rw [hagain, String.toList_ofList, Chunk.read_markup_iff hlegible]
    refine and_congr ⟨fun h key value ha hmem => h _ ha ⟨value, rfl, hmem⟩, ?_⟩ ?_
    · rintro h ⟨key, _⟩ ha ⟨value, rfl, hmem⟩
      exact h key value ha hmem
    · unfold Chunk.SlashEnds
      rw [not_and, not_and]
      simp only [Bool.not_eq_false]

/-- A name that ends with a slash, in front of attributes, one of which has no name. -/
theorem rewritten_attributes : ∃ tag,
    (ofSource .literal none "<a/ b=1 =c d>").Single tag ∧
      (ofSource .literal none "<a/ b=1 =c d>").template = [.raw "<a/ b=\"1\" =\"c\" d>"] ∧
      (ofSource .literal none "<a/ b=\"1\" =\"c\" d>").Single tag := by
  have hsingle : (ofSource .literal none "<a/ b=1 =c d>").Single
      ⟨"a/", [("b", .text "1"), ("", .text "c"), ("d", .present)], false, false⟩ :=
    ⟨by with_unfolding_all rfl, by with_unfolding_all rfl, by with_unfolding_all rfl⟩
  have hplain : ∀ a ∈ [("b", AttributeValue.text "1"), ("", .text "c"), ("d", .present)],
      Attribute.Plain a :=
    List.forall_mem_cons.2 ⟨⟨by decide, by decide, by rintro _ ⟨⟩; decide⟩,
      List.forall_mem_cons.2 ⟨⟨by decide, by decide, by rintro _ ⟨⟩; decide⟩,
        List.forall_mem_singleton.2 ⟨by decide, by decide, by rintro _ ⟨⟩⟩⟩⟩
  have htemplate : (ofSource .literal none "<a/ b=1 =c d>").template =
      [.raw "<a/ b=\"1\" =\"c\" d>"] := by
    with_unfolding_all rfl
  obtain ⟨markup, hmarkup, hagain⟩ := rewritten_iff hsingle hplain
  rw [htemplate] at hmarkup
  obtain rfl := Part.raw.inj (List.singleton_injective hmarkup)
  refine ⟨_, hsingle, htemplate, (hagain none).2 ⟨?_, fun _ hnone => ?_⟩⟩
  · intro key value hmem
    simp only [List.mem_cons, Prod.mk.injEq, AttributeValue.text.injEq, reduceCtorEq, and_false,
      List.not_mem_nil, or_false] at hmem
    rcases hmem with ⟨-, rfl⟩ | ⟨-, rfl⟩
    · decide
    · decide
  · cases hnone

/-- What stands behind the quote of a bare value becomes a key. -/
theorem not_rewritten_quote : ∃ tag,
    (ofSource .literal none "<a b=x\"y>").Single tag ∧
      tag.attributes = [("b", .text "x\"y")] ∧ (∀ a ∈ tag.attributes, Attribute.Plain a) ∧
      (ofSource .literal none "<a b=x\"y>").template = [.raw "<a b=\"x\"y\">"] ∧
      (ofSource .literal none "<a b=\"x\"y\">").tags.map Tag.attributes =
        [[("b", .text "x"), ("y\"", .present)]] ∧
      ¬ (ofSource .literal none "<a b=\"x\"y\">").Single tag := by
  have hagain : (ofSource .literal none "<a b=\"x\"y\">").tags.map Tag.attributes =
      [[("b", .text "x"), ("y\"", .present)]] := by
    with_unfolding_all rfl
  refine ⟨⟨"a", [("b", .text "x\"y")], false, false⟩,
    ⟨by with_unfolding_all rfl, by with_unfolding_all rfl, by with_unfolding_all rfl⟩, rfl,
    ?_, by with_unfolding_all rfl, hagain, fun h => ?_⟩
  · exact List.forall_mem_singleton.2 ⟨by decide, by decide, by rintro _ ⟨⟩; decide⟩
  · rw [h.tags] at hagain
    exact absurd hagain (by decide)

end Scan
end HtmlTemplate
