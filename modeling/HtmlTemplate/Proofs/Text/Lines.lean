import HtmlTemplate.Text.Lines

/-!
# Lines — line breaks of a file, and indented texts

Where line breaks become line feeds, all other characters stay (`Text.unifyLineEnds_cons`), and a
text can be cut anywhere but between a carriage return and a line feed
(`Text.unifyLineEnds_append`).  A text that is written line by line (`Text.Lined`) is indented line
by line (`Text.indent_lined`).
-/

namespace HtmlTemplate
namespace Text

/-! ## Line breaks of a file -/

section Unified

variable {cs ds : List Char}

theorem unifyLineEnds_cons {c : Char} (hc : c ≠ '\r') (cs : List Char) :
    unifyLineEnds (c :: cs) = c :: unifyLineEnds cs := by
  rw [unifyLineEnds]
  · exact fun _ h _ => hc h
  · exact hc

theorem unifyLineEnds_append_of_not_mem (hcs : '\r' ∉ cs) (ds : List Char) :
    unifyLineEnds (cs ++ ds) = cs ++ unifyLineEnds ds := by
  induction cs with
  | nil => rfl
  | cons c cs ih =>
    rw [List.mem_cons, not_or] at hcs
    rw [List.cons_append, unifyLineEnds_cons (Ne.symm hcs.1), ih hcs.2, List.cons_append]

theorem unifyLineEnds_of_not_mem (hcs : '\r' ∉ cs) : unifyLineEnds cs = cs := by
  have happend := unifyLineEnds_append_of_not_mem hcs []
  rwa [List.append_nil, unifyLineEnds, List.append_nil] at happend

/-- A text may be cut before anything but a line feed. -/
theorem unifyLineEnds_append (cs : List Char) (hds : ds.head? ≠ some '\n') :
    unifyLineEnds (cs ++ ds) = unifyLineEnds cs ++ unifyLineEnds ds := by
  fun_induction unifyLineEnds cs with
  | case1 => rfl
  | case2 cs ih => simp [unifyLineEnds, ih]
  | case3 cs hne ih =>
    have hfirst : ∀ es, cs ++ ds ≠ '\n' :: es := by
      intro es he
      cases cs with
      | nil => exact hds (by rw [List.nil_append] at he; rw [he]; rfl)
      | cons c cs => exact hne cs (by rw [(List.cons.inj he).1])
    rw [List.cons_append, unifyLineEnds]
    · rw [ih]
      rfl
    · exact fun es he => hfirst es he
  | case4 c cs _ hc ih =>
    rw [List.cons_append, unifyLineEnds_cons hc, ih]
    rfl

theorem not_mem_unifyLineEnds (cs : List Char) : '\r' ∉ unifyLineEnds cs := by
  fun_induction unifyLineEnds cs with
  | case1 => exact List.not_mem_nil
  | case2 cs ih => simpa using ih
  | case3 cs _ ih => simpa using ih
  | case4 c cs _ hc ih => simpa using ⟨Ne.symm hc, ih⟩

/-- Every line break is there as a line feed. -/
theorem mem_unifyLineEnds_iff : '\n' ∈ unifyLineEnds cs ↔ '\n' ∈ cs ∨ '\r' ∈ cs := by
  fun_induction unifyLineEnds cs with
  | case1 => simp
  | case2 cs ih => simp
  | case3 cs _ ih => simp
  | case4 c cs _ hc ih => simp [ih, Ne.symm hc, or_assoc]

end Unified

/-! ## Indented texts -/

/-- A text without line breaks. -/
def Unbroken (cs : List Char) : Prop := ∀ c ∈ cs, isLineBreak c = false

/-- A text all of whose lines have a property, each but the last ending with a line feed. -/
inductive Lined (P : List Char → Prop) : List Char → Prop
  | last {cs : List Char} : Unbroken cs → P cs → Lined P cs
  | line {cs rest : List Char} : Unbroken cs → P cs → Lined P rest → Lined P (cs ++ '\n' :: rest)

section Lined

variable {P : List Char → Prop} {cs ds : List Char}

theorem Unbroken.append (hcs : Unbroken cs) (hds : Unbroken ds) : Unbroken (cs ++ ds) := by
  intro c hc
  rcases List.mem_append.1 hc with hc | hc
  · exact hcs c hc
  · exact hds c hc

/-- The last line of a text goes on in the first of the next. -/
theorem Lined.append (happend : ∀ {a b}, P a → P b → P (a ++ b)) (hcs : Lined P cs)
    (hds : Lined P ds) : Lined P (cs ++ ds) := by
  induction hcs with
  | last hunbroken hp =>
    cases hds with
    | last hunbroken' hp' => exact .last (hunbroken.append hunbroken') (happend hp hp')
    | line hunbroken' hp' hrest =>
      rw [← List.append_assoc]
      exact .line (hunbroken.append hunbroken') (happend hp hp') hrest
  | line hunbroken hp _ ih =>
    rw [List.append_assoc, List.cons_append]
    exact .line hunbroken hp ih

theorem lines_of_unbroken (h : Unbroken cs) (hne : cs ≠ []) : lines cs = [cs] := by
  induction cs with
  | nil => exact absurd rfl hne
  | cons c cs ih =>
    have hc : isLineBreak c = false := h c List.mem_cons_self
    have hcs : Unbroken cs := fun d hd => h d (List.mem_cons_of_mem c hd)
    rw [lines, hc]
    · cases cs with
      | nil => rfl
      | cons d cs => rw [ih hcs (List.cons_ne_nil d cs)]; rfl
    · rintro _ rfl _
      cases hc

theorem lines_line (h : Unbroken cs) (rest : List Char) :
    lines (cs ++ '\n' :: rest) = (cs ++ ['\n']) :: lines rest := by
  induction cs with
  | nil => rw [List.nil_append, lines] <;> simp [isLineBreak]
  | cons c cs ih =>
    have hc : isLineBreak c = false := h c List.mem_cons_self
    have hcs : Unbroken cs := fun d hd => h d (List.mem_cons_of_mem c hd)
    rw [List.cons_append, lines, hc, ih hcs]
    · rfl
    · rintro _ rfl _
      cases hc

/-- A property of all lines is one of the indented text, if texts with it can be joined and the
margin and the line feed have it. -/
theorem indent_lined (happend : ∀ {a b}, P a → P b → P (a ++ b)) {margin text : String}
    (hmargin : P margin.toList) (hfeed : P ['\n']) (h : Lined P text.toList) :
    P (indent margin text).toList := by
  have hline : ∀ {line}, P line → P (indentLine margin.toList line) := by
    intro line hp
    unfold indentLine
    split
    · exact hp
    · exact happend hmargin hp
  unfold indent
  rw [String.toList_ofList]
  generalize text.toList = cs at h
  induction h with
  | last hunbroken hp =>
    rename_i cs
    cases cs with
    | nil => exact hp
    | cons c cs =>
      rw [lines_of_unbroken hunbroken (List.cons_ne_nil c cs), List.flatMap_cons, List.flatMap_nil,
        List.append_nil]
      exact hline hp
  | line hunbroken hp _ ih =>
    rw [lines_line hunbroken, List.flatMap_cons]
    exact happend (hline (happend hp hfeed)) ih

end Lined

end Text
end HtmlTemplate
