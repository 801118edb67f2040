import HtmlTemplate.Proofs.Bundle.Region
import HtmlTemplate.Proofs.Shape.Pieces
import HtmlTemplate.Proofs.Text.Key
import HtmlTemplate.Proofs.Text.Lines
import HtmlTemplate.Text.Docstring

/-!
# Description — what a description is written from stays inside triple quotes

A file's name stays inside with its escapes, whatever it is (`Text.inside_encodeDoc`).  A field's
name stays inside with its quotes, because none of them is the first of three
(`Text.inside_encodeKey`).  So does the text of a shape, line by line (`Shape.lined_describe`), and
therefore indented.
-/

namespace HtmlTemplate

open Text Region

/-! ## Descriptions -/

namespace Text

/-- A text that stays inside triple quotes, whatever stands around it, its line breaks being line
feeds. -/
structure Inside (cs : List Char) : Prop where
  unified : '\r' ∉ cs
  passed : PassedBy (Lexeme.closeBlock '"') cs

theorem Inside.append {cs ds : List Char} (hcs : Inside cs) (hds : Inside ds) :
    Inside (cs ++ ds) where
  unified := List.not_mem_append hcs.unified hds.unified
  passed := hcs.passed.append hds.passed

/-- A character that has no meaning inside triple quotes. -/
def isInert (c : Char) : Bool := c != '\r' && c != '"' && c != '\\'

theorem inside_of_inert {cs : List Char} (h : cs.all isInert = true) : Inside cs where
  unified := fun hmem => absurd (List.all_eq_true.1 h '\r' hmem) (by decide)
  passed := by
    apply passedBy_block_plain
    intro c hc
    have hinert : (c ≠ '\r' ∧ c ≠ '"') ∧ c ≠ '\\' := by
      simpa [isInert] using List.all_eq_true.1 h c hc
    exact ⟨hinert.1.2, hinert.2⟩

/-! ### Names of files -/

/-- Line breaks become line feeds behind the escapes as they would before. -/
theorem unifyLineEnds_encodeDoc (cs : List Char) :
    unifyLineEnds (cs.flatMap encodeDocChar) = (unifyLineEnds cs).flatMap encodeDocChar := by
  have hbreak : encodeDocChar '\r' = ['\r'] ∧ encodeDocChar '\n' = ['\n'] := by decide
  fun_induction unifyLineEnds cs with
  | case1 => rfl
  | case2 cs ih => simp [hbreak, unifyLineEnds, ih]
  | case3 cs hne ih =>
    have hnext : ∀ ds, cs.flatMap encodeDocChar ≠ '\n' :: ds := by
      intro ds h
      cases cs with
      | nil => cases h
      | cons c cs =>
        refine hne cs (congrArg (· :: cs) ?_)
        rw [List.flatMap_cons] at h
        unfold encodeDocChar at h
        split at h
        · cases h
        · exact (List.cons.inj h).1
    rw [List.flatMap_cons, List.flatMap_cons, hbreak.1, hbreak.2, List.singleton_append,
      unifyLineEnds, ih]
    · rfl
    · exact hnext
  | case4 c cs _ hc ih =>
    have hfree : '\r' ∉ encodeDocChar c := by
      unfold encodeDocChar
      split <;> simp [Ne.symm hc]
    rw [List.flatMap_cons, List.flatMap_cons, unifyLineEnds_append_of_not_mem hfree, ih]

theorem toList_encodeDoc (s : String) :
    (encodeDoc s).toList = s.toList.flatMap encodeDocChar := String.toList_ofList

theorem inside_encodeDoc (cs : List Char) :
    Inside (unifyLineEnds (cs.flatMap encodeDocChar)) where
  unified := not_mem_unifyLineEnds _
  passed := by
    rw [unifyLineEnds_encodeDoc]
    refine .flatMap fun c _ => ?_
    unfold encodeDocChar
    split
    · exact passedBy_block_escape
    · rename_i hc
      simp only [Bool.or_eq_true, beq_iff_eq, not_or] at hc
      exact passedBy_block_char hc.2 hc.1

/-! ### Keys -/

theorem inside_escapeUnit (unit : Nat) : Inside (escapeUnit unit) := by
  have hescape : Inside ['\\', 'u'] := ⟨by decide, passedBy_block_escape⟩
  have hdigits : (hexDigits 4 unit).all isInert = true :=
    List.all_eq_true.2 (forall_hexDigits (P := fun c => isInert c = true) (by decide) 4 unit)
  exact hescape.append (inside_of_inert hdigits)

theorem inside_encodeKeyChar (c : Char) : Inside (encodeKeyChar c) := by
  rcases encodeKeyChar_cases c with ⟨letter, hmem, h⟩ | ⟨h, hshown, hquote, hslash⟩ | h
  · have hletters : ∀ entry ∈ keyEscapes, '\r' ≠ entry.1 := by decide
    have hletter : '\r' ≠ letter := hletters _ hmem
    rw [h]
    exact ⟨by simp [hletter], passedBy_block_escape⟩
  · have hreturn : c ≠ '\r' := by
      rintro rfl
      exact absurd hshown (by decide)
    rw [h]
    exact inside_of_inert (by simp [isInert, hreturn, hquote, hslash])
  · rcases escapeUnits_cases c.toNat with ⟨unit, hunits⟩ | ⟨high, low, hunits⟩
    · rw [h, hunits]
      exact inside_escapeUnit unit
    · rw [h, hunits]
      exact (inside_escapeUnit high).append (inside_escapeUnit low)

/-- A key stays inside triple quotes: none of its own quotes is the first of three. -/
theorem inside_encodeKey (key : String) : Inside (encodeKey key ++ ": ").toList where
  unified := by
    rw [String.toList_append]
    refine List.not_mem_append (fun hmem => ?_) (by decide)
    exact absurd (List.all_eq_true.1 (all_isShown_encodeKey key) '\r' hmem) (by decide)
  passed := by
    intro breaks rest
    have hbody : PassedBy (Lexeme.closeBlock '"') (key.toList.flatMap encodeKeyChar) :=
      .flatMap fun c _ => (inside_encodeKeyChar c).passed
    have hopening : (key.toList.flatMap encodeKeyChar ++ ('"' :: ':' :: ' ' :: rest)).take 2 ≠
        ['"', '"'] := by
      cases key.toList with
      | nil => simp
      | cons c cs =>
        obtain ⟨d, ds, h, hd⟩ := encodeKeyChar_head c
        simp [h, hd]
    obtain ⟨more, hkey⟩ := hbody breaks ('"' :: ':' :: ' ' :: rest)
    have hcolon : Inside ": ".toList := inside_of_inert (by decide)
    obtain ⟨most, hend⟩ := hcolon.passed more rest
    refine ⟨most, ?_⟩
    calc Lexeme.closeBlock '"' breaks ((encodeKey key ++ ": ").toList ++ rest)
        = Lexeme.closeBlock '"' breaks
            ('"' :: (key.toList.flatMap encodeKeyChar ++ ('"' :: ':' :: ' ' :: rest))) := by
          simp [encodeKey]
      _ = Lexeme.closeBlock '"' more ('"' :: ':' :: ' ' :: rest) := by
          rw [closeBlock_quote breaks hopening, hkey]
      _ = Lexeme.closeBlock '"' more (':' :: ' ' :: rest) := closeBlock_quote more (by simp)
      _ = Lexeme.closeBlock '"' most rest := hend

/-! ### Shapes -/

/-- A character that neither ends a line nor has a meaning inside triple quotes. -/
def isFlat (c : Char) : Bool := !isLineBreak c && isInert c

theorem unbroken_of_flat {cs : List Char} (h : cs.all isFlat = true) : Unbroken cs := by
  intro c hc
  have hflat := List.all_eq_true.1 h c hc
  rw [isFlat, Bool.and_eq_true, Bool.not_eq_true'] at hflat
  exact hflat.1

theorem inert_of_flat {cs : List Char} (h : cs.all isFlat = true) : cs.all isInert = true := by
  refine List.all_eq_true.2 fun c hc => ?_
  have hflat := List.all_eq_true.1 h c hc
  rw [isFlat, Bool.and_eq_true] at hflat
  exact hflat.2

/-- The line breaks of a key are escaped. -/
theorem unbroken_key (key : String) : Unbroken (encodeKey key ++ ": ").toList := by
  intro c hc
  have hshown : (encodeKey key ++ ": ").toList.all isShown = true := by
    rw [String.toList_append, List.all_append, all_isShown_encodeKey]
    rfl
  have hc := List.all_eq_true.1 hshown c hc
  simp only [isShown, Bool.and_eq_true, decide_eq_true_eq] at hc
  simp only [isLineBreak, Bool.or_eq_false_iff, Bool.and_eq_false_iff, decide_eq_false_iff_not,
    beq_eq_false_iff_ne]
  omega

end Text

namespace Shape

/-- The lines of a shape's text have a property that flat texts and keys have and that texts keep
when they are joined. -/
theorem composed_lined {P : List Char → Prop} {Q : String → Prop}
    (happend : ∀ {cs ds}, P cs → P ds → P (cs ++ ds))
    (hflat : ∀ {cs : List Char}, cs.all isFlat = true → P cs)
    (hkey : ∀ name, Q name → P (encodeKey name ++ ": ").toList) : Composed (Lined P) Q where
  append := Lined.append happend
  blanks h := by
    rename_i cs
    have hall : cs.all isFlat = true := List.all_eq_true.2 fun c hc => by
      rw [h c hc]
      rfl
    exact .last (unbroken_of_flat hall) (hflat hall)
  fixed := by
    have hfixed : ∀ text ∈ fixedTexts, text.toList.all isFlat = true ∨
        ∃ cs ∈ [['\x7b'], [']', ',']], cs.all isFlat = true ∧ text.toList = cs ++ ['\n'] := by
      decide
    intro text htext
    rcases hfixed text htext with hall | ⟨cs, -, hall, hline⟩
    · exact .last (unbroken_of_flat hall) (hflat hall)
    · rw [hline]
      exact .line (unbroken_of_flat hall) (hflat hall)
        (.last (fun _ hc => absurd hc List.not_mem_nil) (hflat rfl))
  key name h := .last (unbroken_key name) (hkey name h)

theorem lined_describe (s : Shape) {indent : String} (hindent : ∀ c ∈ indent.toList, c = ' ') :
    Lined Inside (describe indent s).toList := by
  have hcomposed : Composed (Lined Inside) fun _ => True :=
    composed_lined Inside.append (fun h => inside_of_inert (inert_of_flat h))
      fun name _ => inside_encodeKey name
  exact hcomposed.describe s (fun _ _ => trivial) hindent

end Shape

end HtmlTemplate
