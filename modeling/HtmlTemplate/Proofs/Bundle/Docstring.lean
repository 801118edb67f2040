import HtmlTemplate.Proofs.Bundle.Enclosed
import HtmlTemplate.Proofs.Template.Fields

/-!
# Docstring — the description of a function is read back

A text stands for another between triple quotes if it is read as that one, whatever follows
(`Text.StandsFor`).  The encoded name of a file stands for the name, and the text of a shape for
itself, because its keys are segments of paths and need no escapes.  No line of it is blank, so that
indenting puts a margin in front of each line (`Text.toList_indent_lined`).
`TemplateFunction.exists_docstring` puts these together.
-/

namespace HtmlTemplate

open Text Region

namespace Text

/-! ## Reading between triple quotes -/

/-- Whether a text between triple quotes is read as `ds`, whatever follows. -/
def StandsFor (cs ds : List Char) : Prop :=
  ∀ rest, readDocFrom (cs ++ rest) = (readDocFrom rest).map fun (read, after) => (ds ++ read, after)

section StandsFor

variable {cs ds : List Char} {c : Char}

theorem StandsFor.nil : StandsFor [] [] := by
  intro rest
  cases h : readDocFrom rest <;> simp [h]

theorem StandsFor.append {cs' ds' : List Char} (h : StandsFor cs ds) (h' : StandsFor cs' ds') :
    StandsFor (cs ++ cs') (ds ++ ds') := by
  intro rest
  rw [List.append_assoc, h, h', Option.map_map]
  simp only [Function.comp_def, List.append_assoc]

theorem StandsFor.flatMap {f : Char → List Char} (h : ∀ c ∈ cs, StandsFor (f c) [c]) :
    StandsFor (cs.flatMap f) cs := by
  induction cs with
  | nil => exact .nil
  | cons c cs ih =>
    rw [List.flatMap_cons]
    exact (h c List.mem_cons_self).append (ih fun d hd => h d (List.mem_cons_of_mem c hd))

theorem standsFor_char (hquote : c ≠ '"') (hslash : c ≠ '\\') : StandsFor [c] [c] := by
  intro rest
  rw [List.singleton_append, readDocFrom]
  · rfl
  · exact fun _ h _ => hquote h
  · exact hslash

/-- A text of characters that have no meaning between triple quotes stands for itself. -/
theorem standsFor_inert (h : cs.all isInert = true) : StandsFor cs cs := by
  have hchars : StandsFor (cs.flatMap fun c => [c]) cs := by
    refine .flatMap fun c hc => ?_
    have hinert : (c ≠ '\r' ∧ c ≠ '"') ∧ c ≠ '\\' := by
      simpa [isInert] using List.all_eq_true.1 h c hc
    exact standsFor_char hinert.1.2 hinert.2
  rwa [List.flatMap_singleton'] at hchars

/-- A quote before anything else stands for itself. -/
theorem StandsFor.quote (h : StandsFor cs ds) (hhead : ∃ c ∈ cs.head?, c ≠ '"') :
    StandsFor ('"' :: cs) ('"' :: ds) := by
  obtain ⟨c, hc, hne⟩ := hhead
  obtain ⟨cs, rfl⟩ := List.head?_eq_some_iff.1 hc
  intro rest
  rw [List.cons_append, readDocFrom, h, Option.map_map]
  · rfl
  · rintro rest' - hrest
    exact hne (List.cons.inj hrest).1
  · decide

theorem standsFor_escape (h : c = '\\' ∨ c = '"') : StandsFor ['\\', c] [c] := by
  intro rest
  have hescape : readEscape (c :: rest) = some ([c], rest) := by
    rcases h with rfl | rfl <;> rfl
  rw [List.cons_append, List.singleton_append, readDocFrom]
  split
  · rename_i hnone
    rw [hescape] at hnone
    cases hnone
  · rename_i hsome
    rw [hescape] at hsome
    cases hsome
    rfl

theorem standsFor_encodeDoc (cs : List Char) : StandsFor (cs.flatMap encodeDocChar) cs := by
  refine .flatMap fun c _ => ?_
  unfold encodeDocChar
  split
  · rename_i hc
    exact standsFor_escape (by simpa using hc)
  · rename_i hc
    simp only [Bool.or_eq_true, beq_iff_eq, not_or] at hc
    exact standsFor_char hc.2 hc.1

end StandsFor

/-! ## Keys -/

theorem encodeKeyChar_nameChar {c : Char} (h : Path.isNameChar c = true) :
    encodeKeyChar c = [c] ∧ isInert c = true :=
  forall_ascii (P := fun c => Path.isNameChar c = true → encodeKeyChar c = [c] ∧ isInert c = true)
    (by decide +kernel) (Binding.isNameChar_ascii h) h

/-- A segment is written between quotes as it is. -/
theorem standsFor_key {name : String} (h : Path.Segment name) :
    StandsFor (encodeKey name ++ ": ").toList (encodeKey name ++ ": ").toList := by
  have hchars : ∀ c ∈ name.toList, encodeKeyChar c = [c] ∧ isInert c = true :=
    fun c hc => encodeKeyChar_nameChar (Path.isNameChar_iff.2 (h.2 c hc))
  have hkey : (encodeKey name ++ ": ").toList = '"' :: (name.toList ++ '"' :: ": ".toList) := by
    have hname : name.toList.flatMap encodeKeyChar = name.toList.flatMap fun c => [c] :=
      List.flatMap_congr fun c hc => (hchars c hc).1
    rw [String.toList_append, encodeKey, String.toList_ofList, hname, List.flatMap_singleton',
      List.cons_append, List.append_assoc]
    rfl
  have hinert : StandsFor name.toList name.toList :=
    standsFor_inert (List.all_eq_true.2 fun c hc => (hchars c hc).2)
  have hcolon : StandsFor ": ".toList ": ".toList := standsFor_inert (by decide)
  rw [hkey]
  refine (hinert.append (hcolon.quote ⟨':', rfl, by decide⟩)).quote ?_
  cases hcs : name.toList with
  | nil => exact absurd (String.toList_inj.1 hcs) h.1
  | cons c cs =>
    have hc := (hchars c (hcs ▸ List.mem_cons_self)).2
    exact ⟨c, rfl, fun hquote => absurd (hquote ▸ hc) (by decide)⟩

/-! ## Lines that are not blank -/

/-- Whether no line feed comes first or right behind a blank. -/
def Inked (cs : List Char) : Prop := ('\n' :: cs).IsChain fun a b => b = '\n' → isBlank a = false

theorem inked_of_not_mem {cs : List Char} (h : '\n' ∉ cs) : Inked cs := by
  have hchain : ∀ a, (a :: cs).IsChain fun a b => b = '\n' → isBlank a = false := by
    induction cs with
    | nil => exact fun a => .singleton a
    | cons c cs ih =>
      rw [List.mem_cons, not_or] at h
      exact fun a => .cons_cons (fun hc => absurd hc.symm h.1) (ih h.2 c)
  exact hchain '\n'

theorem Inked.append {cs ds : List Char} (hcs : Inked cs) (hds : Inked ds) : Inked (cs ++ ds) := by
  refine List.IsChain.append hcs hds.tail ?_
  rintro a - b hb rfl
  cases ds with
  | nil => cases hb
  | cons d ds =>
    obtain rfl : d = '\n' := Option.some.inj hb
    exact absurd ((List.isChain_cons_cons.1 hds).1 rfl) (by decide)

theorem Lined.inked {P : List Char → Prop} {cs : List Char} (h : Lined P cs) (hinked : Inked cs)
    (hlast : ∃ c ∈ cs.getLast?, isBlank c = false) :
    Lined (fun line => ∃ c ∈ line, isBlank c = false) cs := by
  induction h with
  | last hunbroken _ =>
    obtain ⟨c, hc, hblank⟩ := hlast
    exact .last hunbroken ⟨c, List.mem_of_mem_getLast? hc, hblank⟩
  | line hunbroken _ _ ih =>
    rename_i cs rest _ _
    unfold Inked at hinked
    rw [← List.cons_append, List.isChain_split] at hinked
    obtain ⟨hline, hrest⟩ := hinked
    -- The character before the line feed is one of the line, because it is no line feed.
    have hmem : ∃ c ∈ cs, isBlank c = false := by
      obtain ⟨c, hc⟩ := Option.isSome_iff_exists.1
        (List.getLast?_isSome.2 (List.cons_ne_nil '\n' cs))
      have hblank := (List.isChain_append.1 hline).2.2 c hc '\n' rfl rfl
      rcases List.mem_cons.1 (List.mem_of_mem_getLast? hc) with rfl | hcs
      · exact absurd hblank (by decide)
      · exact ⟨c, hcs, hblank⟩
    refine .line hunbroken hmem (ih hrest ?_)
    cases rest with
    | nil =>
      obtain ⟨c, hc, hblank⟩ := hlast
      rw [List.getLast?_append_cons] at hc
      cases hc
      cases hblank
    | cons d rest => rwa [List.getLast?_append_cons, List.getLast?_cons_cons] at hlast

/-! ## Margins -/

/-- A text with every line changed. -/
def mapLines (f : List Char → List Char) (cs : List Char) : List Char :=
  ['\n'].intercalate ((cs.splitOn '\n').map f)

section MapLines

variable {P : List Char → Prop} {f : List Char → List Char} {cs : List Char}

theorem mapLines_of_not_mem (h : '\n' ∉ cs) : mapLines f cs = f cs := by
  rw [mapLines, List.splitOn_eq_singleton h, List.map_singleton, List.intercalate_singleton]

theorem mapLines_line (h : '\n' ∉ cs) (rest : List Char) :
    mapLines f (cs ++ '\n' :: rest) = f cs ++ '\n' :: mapLines f rest := by
  have hrest : (rest.splitOn '\n').map f ≠ [] := by simp [List.splitOn_ne_nil]
  rw [mapLines, List.splitOn_append_cons_self_of_not_mem h, List.map_cons,
    List.intercalate_cons_of_ne_nil hrest, List.append_assoc]
  rfl

theorem Unbroken.not_mem (h : Unbroken cs) : '\n' ∉ cs :=
  fun hmem => absurd (h '\n' hmem) (by decide)

/-- A text without blank lines is indented in every line. -/
theorem toList_indent_lined {margin text : String}
    (h : Lined (fun line => ∃ c ∈ line, isBlank c = false) text.toList) :
    (indent margin text).toList = mapLines (margin.toList ++ ·) text.toList := by
  have hline : ∀ {line : List Char}, (∃ c ∈ line, isBlank c = false) →
      indentLine margin.toList line = margin.toList ++ line := by
    rintro line ⟨c, hc, hblank⟩
    refine if_neg fun hall => ?_
    rw [List.all_eq_true.1 hall c hc] at hblank
    cases hblank
  unfold indent
  rw [String.toList_ofList]
  generalize text.toList = cs at h
  induction h with
  | last hunbroken hink =>
    obtain ⟨c, hc, hblank⟩ := hink
    rw [lines_of_unbroken hunbroken (List.ne_nil_of_mem hc), List.flatMap_singleton,
      hline ⟨c, hc, hblank⟩, mapLines_of_not_mem hunbroken.not_mem]
  | line hunbroken hink _ ih =>
    obtain ⟨c, hc, hblank⟩ := hink
    rw [lines_line hunbroken, List.flatMap_cons,
      hline ⟨c, List.mem_append_left _ hc, hblank⟩, mapLines_line hunbroken.not_mem, ih]
    simp

/-- Taking away as many characters as every line has got gives the text back. -/
theorem mapLines_drop {margin : List Char} (hmargin : '\n' ∉ margin) (h : Lined P cs) :
    mapLines (List.drop margin.length) (mapLines (margin ++ ·) cs) = cs := by
  induction h with
  | last hunbroken _ =>
    rw [mapLines_of_not_mem hunbroken.not_mem,
      mapLines_of_not_mem (List.not_mem_append hmargin hunbroken.not_mem), List.drop_left]
  | line hunbroken _ _ ih =>
    rw [mapLines_line hunbroken.not_mem,
      mapLines_line (List.not_mem_append hmargin hunbroken.not_mem), List.drop_left, ih]

end MapLines

end Text

/-! ## Shapes -/

namespace Shape

theorem composed_inked : Composed Inked fun _ => True where
  append := Inked.append
  blanks h := inked_of_not_mem fun hmem => absurd (h '\n' hmem) (by decide)
  fixed := by
    have hfixed : ∀ text ∈ fixedTexts,
        ('\n' :: text.toList).IsChain fun a b => b = '\n' → isBlank a = false := by decide
    exact hfixed
  key name _ := by
    refine inked_of_not_mem ?_
    rw [String.toList_append]
    exact List.not_mem_append (newline_not_mem_key name) (by decide)

/-- The text of a shape does not end in blanks. -/
theorem getLast?_text (s : Shape) : ∃ c ∈ s.text.toList.getLast?, isBlank c = false := by
  obtain ⟨required, bound, c⟩ := s
  rw [text, describe]
  unfold bracket
  split
  · exact ⟨'y', rfl, rfl⟩
  · refine ⟨'\x7d', ?_, rfl⟩
    rw [String.toList_append]
    exact List.getLast?_concat

/-- No line of a shape's text is blank. -/
theorem lined_text (s : Shape) :
    Lined (fun line => ∃ c ∈ line, isBlank c = false) s.text.toList := by
  have hnone : ∀ c ∈ "".toList, c = ' ' := fun _ hc => absurd hc List.not_mem_nil
  have hinked : Inked s.text.toList := composed_inked.describe s (fun _ _ => trivial) hnone
  exact (lined_describe s hnone).inked hinked s.getLast?_text

/-- The lines of a text stand for themselves, if its keys are segments. -/
theorem Spelled.standsFor {s : Shape} (h : s.Spelled) :
    Lined (fun line => StandsFor line line) s.text.toList := by
  have hcomposed : Composed (Lined fun line => StandsFor line line) Path.Segment := by
    refine composed_lined StandsFor.append (fun hall => standsFor_inert ?_)
      fun name => standsFor_key
    exact inert_of_flat hall
  exact hcomposed.describe s h fun _ hc => absurd hc List.not_mem_nil

end Shape

namespace TemplateFunction

/-- What the description of a function says. -/
def described (f : TemplateFunction) : List Char :=
  "Render ".toList ++ (f.file.toList ++ (".\n\n    Context:\n".toList ++
    mapLines (List.replicate 8 ' ' ++ ·) f.compiled.typeText.toList ++ "\n    ".toList))

variable {f : TemplateFunction} {contextName : String} {ps : List Part}

theorem standsFor_description (h : Compiled.ofParts contextName ps = .ok f.compiled) :
    StandsFor (description f.file f.compiled).toList f.described := by
  obtain ⟨s, hs, htype⟩ := Compiled.exists_shape h
  have hstart : StandsFor "Render ".toList "Render ".toList := standsFor_inert (by decide)
  have hmiddle : StandsFor ".\n\n    Context:\n".toList ".\n\n    Context:\n".toList :=
    standsFor_inert (by decide)
  have hend : StandsFor "\n    ".toList "\n    ".toList := standsFor_inert (by decide)
  have hmargin : StandsFor margin.toList margin.toList := standsFor_inert (by decide)
  have hfeed : StandsFor ['\n'] ['\n'] := standsFor_inert (by decide)
  have hindented : StandsFor (indent margin s.text).toList (indent margin s.text).toList :=
    indent_lined (P := fun cs => StandsFor cs cs) StandsFor.append hmargin hfeed hs.standsFor
  have hlines : (indent margin s.text).toList =
      mapLines (List.replicate 8 ' ' ++ ·) s.text.toList := by
    have hmargin : margin.toList = List.replicate 8 ' ' := by decide
    rw [toList_indent_lined s.lined_text, hmargin]
  have hdetails : StandsFor f.details (".\n\n    Context:\n".toList ++
      mapLines (List.replicate 8 ' ' ++ ·) f.compiled.typeText.toList ++ "\n    ".toList) := by
    unfold details
    rw [htype, ← hlines]
    exact (hmiddle.append hindented).append hend
  rw [toList_description]
  exact hstart.append ((standsFor_encodeDoc f.file.toList).append hdetails)

/-- The description is read back with what stands around it. -/
theorem readDoc_description (hclean : f.Clean)
    (h : Compiled.ofParts contextName ps = .ok f.compiled) (hfile : '\r' ∉ f.file.toList)
    {after : List Char} (hafter : '\r' ∉ after) :
    readDoc ((description f.file f.compiled).toList ++ (tripleQuote ++ after)) =
      some (f.described, after) := by
  have hclose : readDocFrom (tripleQuote ++ after) = some ([], after) := by
    unfold tripleQuote
    rw [List.cons_append, List.cons_append, List.singleton_append, readDocFrom]
  have hencoded : '\r' ∉ f.file.toList.flatMap encodeDocChar := by
    rw [← unifyLineEnds_of_not_mem hfile, ← unifyLineEnds_encodeDoc]
    exact not_mem_unifyLineEnds _
  have hreturn : '\r' ∉ (description f.file f.compiled).toList ++ (tripleQuote ++ after) := by
    rw [toList_description]
    have hshown := List.not_mem_append hencoded hclean.inside_details.unified
    exact List.not_mem_append (List.not_mem_append (by decide) hshown)
      (List.not_mem_append (by decide) hafter)
  unfold readDoc
  rw [unifyLineEnds_of_not_mem hreturn, standsFor_description h, hclose, Option.map_some]
  simp only [List.append_nil]

/-- The type is what the description shows of it without the margin. -/
theorem unindented (h : Compiled.ofParts contextName ps = .ok f.compiled) :
    mapLines (List.drop 8) (mapLines (List.replicate 8 ' ' ++ ·) f.compiled.typeText.toList) =
      f.compiled.typeText.toList := by
  obtain ⟨s, -, htype⟩ := Compiled.exists_shape h
  rw [htype]
  have hmargin : '\n' ∉ List.replicate 8 ' ' := by decide
  exact mapLines_drop hmargin s.lined_text

/-- The description of a function says what it was written from.

The text of a function holds no quote before its description.  Between the triple quotes that
follow, the name of the file is read as it is, and the type with a margin of eight spaces in
front of every line.  Without this margin it is exactly the type of the template. -/
theorem exists_docstring {name file : String} {c : Compiled}
    (hname : ∀ letter ∈ name.toList, isWordChar letter = true) (hfile : '\r' ∉ file.toList)
    (h : Compiled.ofParts contextName ps = .ok c) :
    ∃ signature rest after shown, (text name file c).toList = signature ++ (tripleQuote ++ rest) ∧
      '"' ∉ signature ∧
      readDoc rest = some ("Render ".toList ++ (file.toList ++
        (".\n\n    Context:\n".toList ++ shown ++ "\n    ".toList)), after) ∧
      shown = mapLines (List.replicate 8 ' ' ++ ·) c.typeText.toList ∧
      mapLines (List.drop 8) shown = c.typeText.toList := by
  let f : TemplateFunction := ⟨name, file, c⟩
  have hclean : f.Clean := clean_of_parts hname h
  have hquote : '"' ∉ f.signature.toList := fun hmem =>
    absurd (List.all_eq_true.1 hclean.isCode_signature '"' hmem) (by decide)
  have htext : (text name file c).toList = f.signature.toList ++
      (tripleQuote ++ ((description file c).toList ++ (tripleQuote ++ f.answer.toList))) :=
    toList_text (f := f)
  have hread : readDoc ((description file c).toList ++ (tripleQuote ++ f.answer.toList)) =
      some (f.described, f.answer.toList) :=
    readDoc_description hclean h hfile hclean.not_mem_answer
  have hshown : mapLines (List.drop 8) (mapLines (List.replicate 8 ' ' ++ ·) c.typeText.toList) =
      c.typeText.toList := unindented (f := f) h
  exact ⟨_, _, _, _, htext, hquote, hread, rfl, hshown⟩

/-- A loop, in a file with quotes and a backslash in its name. -/
theorem exists_docstring_loop :
    ∃ c, Compiled.ofSource {} (inBraces ">a x" ++ inBraces "x" ++ inBraces "<") = .ok c ∧
      c.typeText =
        "\x7b\n    \"a\": NotRequired[\x7b\n        __iter__: Iterator[Any],\n    \x7d],\n\x7d" ∧
      ∃ signature rest after shown,
        (text "template_a" "a\"\"\"\\N.html" c).toList = signature ++ (tripleQuote ++ rest) ∧
        '"' ∉ signature ∧
        readDoc rest = some ("Render ".toList ++ ("a\"\"\"\\N.html".toList ++
          (".\n\n    Context:\n".toList ++ shown ++ "\n    ".toList)), after) ∧
        shown = mapLines (List.replicate 8 ' ' ++ ·) c.typeText.toList ∧
        mapLines (List.drop 8) shown = c.typeText.toList := by
  have hps : Compiled.templateOf {} (inBraces ">a x" ++ inBraces "x" ++ inBraces "<") =
      .ok [.loop "a" "x", .body "x", .close] := by with_unfolding_all rfl
  obtain ⟨c, hc, htype⟩ : ∃ c, Compiled.ofParts "context" [.loop "a" "x", .body "x", .close] =
      .ok c ∧ c.typeText =
        "\x7b\n    \"a\": NotRequired[\x7b\n        __iter__: Iterator[Any],\n    \x7d],\n\x7d" :=
    ⟨_, rfl, by decide +kernel⟩
  exact ⟨c, Compiled.ofSource_of_parts hps hc, htype,
    exists_docstring (List.all_eq_true.1 (by decide)) (by decide) hc⟩

end TemplateFunction
end HtmlTemplate
