import HtmlTemplate.Proofs.Scan.Grammar
import HtmlTemplate.Proofs.Scan.Marked
import HtmlTemplate.Proofs.Text.Blank
import HtmlTemplate.Tag.Options

/-!
# Form — the ways of writing the value of an attribute

A value is written bare, between double quotes, between double braces, or between both, with blanks
on one line around it.  A directive tag takes the same value from all of them
(`ValueForm.value_written`).
-/

namespace HtmlTemplate

open Text

/-! ## Texts cut at markers -/

namespace Marker

theorem hasOpening_of_not_mem {cs : List Char} (h : '{' ∉ cs) : hasOpening cs = false := by
  induction cs with
  | nil => rfl
  | cons c cs ih =>
    obtain ⟨hc, hcs⟩ := not_or.1 (mt List.mem_cons.2 h)
    rw [Bool.eq_false_iff]
    intro hopening
    rw [hasOpening_behind (Ne.symm hc) hopening] at ih
    cases ih hcs

theorem readExpression_of_not_mem {e : List Char} (hline : '\n' ∉ e) (hclose : '}' ∉ e)
    (rest : List Char) : readExpression (e ++ '}' :: '}' :: rest) = some (e, rest) :=
  readExpression_append hline (fun h => hclose (h.subset List.mem_cons_self))
    fun h => hclose (List.mem_of_getLast? h)

end Marker

namespace Pieces

open Marker

theorem ofText_cons {c : Char} {cs : List Char} (h : c = '{' → cs.head? ≠ some '{') :
    ofText (c :: cs) = (ofText cs).push c := by
  rw [ofText]
  rintro ds hc rfl
  exact h hc rfl

theorem ofText_of_not_mem {cs : List Char} (h : '{' ∉ cs) : ofText cs = ⟨[], cs⟩ := by
  induction cs with
  | nil => rw [ofText]
  | cons c cs ih =>
    obtain ⟨hc, hcs⟩ := not_or.1 (mt List.mem_cons.2 h)
    rw [ofText_cons fun he => absurd he (Ne.symm hc), ih hcs]
    rfl

theorem ofText_marker {e rest : List Char}
    (hread : readExpression (e ++ '}' :: '}' :: rest) = some (e, rest)) :
    ofText ('{' :: '{' :: (e ++ '}' :: '}' :: rest)) = (ofText rest).mark e := by
  rw [ofText]
  split
  · rename_i h
    cases hread.symm.trans h
    rfl
  · rename_i h
    cases hread.symm.trans h

/-- What stands in front of a marker is its literal, if no marker can start there. -/
theorem ofText_literal_marker {cs e rest : List Char} (hcs : hasOpening cs = false)
    (hlast : cs.getLast? ≠ some '{')
    (hread : readExpression (e ++ '}' :: '}' :: rest) = some (e, rest)) :
    ofText (cs ++ '{' :: '{' :: (e ++ '}' :: '}' :: rest)) =
      ⟨(cs, e) :: (ofText rest).marked, (ofText rest).tail⟩ := by
  induction cs with
  | nil => exact ofText_marker hread
  | cons c cs ih =>
    have hcs' : hasOpening cs = false :=
      Bool.eq_false_iff.2 fun h => Bool.eq_false_iff.1 hcs (hasOpening_of_cons h)
    have hjoint : c = '{' → (cs ++ '{' :: '{' :: (e ++ '}' :: '}' :: rest)).head? ≠ some '{' := by
      rintro rfl hhead
      cases cs with
      | nil => exact hlast rfl
      | cons d cs =>
        exact Bool.eq_false_iff.1 hcs ((hasOpening_cons _ _).2 (Or.inl ⟨rfl, hhead⟩))
    have hlast' : cs.getLast? ≠ some '{' := by
      intro h
      apply hlast
      rw [List.getLast?_cons, h]
      rfl
    rw [List.cons_append, ofText_cons hjoint, ih hcs' hlast']
    rfl

end Pieces

/-! ## What is unwrapped -/

namespace Options

theorem unwrap?_of_not_mem {cs : List Char} (h : '{' ∉ cs) :
    unwrap? (String.ofList cs) = some (String.ofList (strip cs)) := by
  unfold unwrap? stripText
  rw [String.toList_ofList, Marker.hasOpening_of_not_mem h]
  rfl

theorem unwrap?_marker {front back e : List Char} (hfront : ∀ c ∈ front, isBlank c = true)
    (hback : ∀ c ∈ back, isBlank c = true) (hline : '\n' ∉ e) (hclose : '}' ∉ e) :
    unwrap? (String.ofList (front ++ '{' :: '{' :: (e ++ '}' :: '}' :: back))) =
      some (String.ofList (strip e)) := by
  have hbrace : ∀ {cs : List Char}, (∀ c ∈ cs, isBlank c = true) → '{' ∉ cs :=
    fun h hmem => absurd (h '{' hmem) (by decide)
  have hopening : Marker.hasOpening (front ++ '{' :: '{' :: (e ++ '}' :: '}' :: back)) = true :=
    (Marker.hasOpening_append _ _).2 (Or.inr (Or.inl rfl))
  unfold unwrap?
  rw [String.toList_ofList, hopening,
    Pieces.ofText_literal_marker (Marker.hasOpening_of_not_mem (hbrace hfront))
      (fun h => hbrace hfront (List.mem_of_getLast? h))
      (Marker.readExpression_of_not_mem hline hclose back),
    Pieces.ofText_of_not_mem (hbrace hback)]
  dsimp only
  rw [List.all_eq_true.2 hfront, List.all_eq_true.2 hback]
  rfl

end Options

/-! ## Forms -/

/-- Blanks on one line. -/
def Text.IsPadding (cs : List Char) : Prop := ∀ c ∈ cs, isBlank c = true ∧ c ≠ '\n'

instance (cs : List Char) : Decidable (IsPadding cs) :=
  List.decidableBAll (fun c => isBlank c = true ∧ c ≠ '\n') cs

/-- A way of writing a value: what stands around it between its quotes or its braces. -/
inductive ValueForm where
  | bare
  | quoted (front back : List Char)
  | braced (front back : List Char)
  | quotedBraces (outerFront front back outerBack : List Char)
  deriving DecidableEq, Repr

/-- Whether a value may be written in any form: no character of it ends a value, quotes it or is a
brace, and there are no blanks at its ends. -/
structure Writable (value : List Char) : Prop where
  chars : ∀ c ∈ value, c ∉ ['"', '\n', '/', '>', '{', '}']
  stripped : strip value = value

namespace ValueForm

/-- The value as it is written in a form. -/
def written : ValueForm → List Char → WrittenValue
  | bare, value => .bare value
  | quoted front back, value => .quoted (front ++ value ++ back)
  | braced front back, value => .braced (front ++ value ++ back)
  | quotedBraces outerFront front back outerBack, value =>
    .quoted (outerFront ++ '{' :: '{' :: ((front ++ value ++ back) ++ '}' :: '}' :: outerBack))

/-- Whether a value may be written in a form: a bare one ends with the first blank, and around any
other there are blanks alone. -/
def Fits : ValueForm → List Char → Prop
  | bare, value => ∀ c ∈ value, isBlank c = false
  | quoted front back, _ => IsPadding front ∧ IsPadding back
  | braced front back, _ => IsPadding front ∧ IsPadding back
  | quotedBraces outerFront front back outerBack, _ =>
    (IsPadding front ∧ IsPadding back) ∧ IsPadding outerFront ∧ IsPadding outerBack

instance (form : ValueForm) (value : List Char) : Decidable (form.Fits value) :=
  match form with
  | bare => List.decidableBAll (fun c => isBlank c = false) value
  | quoted front back => inferInstanceAs (Decidable (IsPadding front ∧ IsPadding back))
  | braced front back => inferInstanceAs (Decidable (IsPadding front ∧ IsPadding back))
  | quotedBraces outerFront front back outerBack =>
    inferInstanceAs (Decidable
      ((IsPadding front ∧ IsPadding back) ∧ IsPadding outerFront ∧ IsPadding outerBack))

end ValueForm

theorem Text.IsPadding.not_mem {cs : List Char} (h : IsPadding cs) {c : Char}
    (hc : c ∈ ['"', '\n', '{', '}']) : c ∉ cs := by
  intro hmem
  obtain ⟨hblank, hline⟩ := h c hmem
  simp only [List.mem_cons, List.not_mem_nil, or_false] at hc
  rcases hc with rfl | rfl | rfl | rfl
  · exact absurd hblank (by decide)
  · exact hline rfl
  · exact absurd hblank (by decide)
  · exact absurd hblank (by decide)

namespace Writable

variable {value front back : List Char}

theorem not_mem_padded (h : Writable value) (hfront : IsPadding front) (hback : IsPadding back)
    {c : Char} (hc : c ∈ ['"', '\n', '{', '}']) : c ∉ front ++ value ++ back := by
  have hvalue : c ∉ value := by
    intro hmem
    apply h.chars c hmem
    simp only [List.mem_cons, List.not_mem_nil, or_false] at hc ⊢
    tauto
  simp [hfront.not_mem hc, hback.not_mem hc, hvalue]

theorem strip_padded (h : Writable value) (hfront : IsPadding front) (hback : IsPadding back) :
    strip (front ++ value ++ back) = value := by
  rw [strip_surrounded (fun c hc => (hfront c hc).1) (fun c hc => (hback c hc).1), h.stripped]

end Writable

namespace ValueForm

variable {form : ValueForm} {value : List Char}

/-- What is written can be told from what stands behind it. -/
theorem valid_written (h : form.Fits value) (hvalue : Writable value) :
    (form.written value).Valid := by
  cases form with
  | bare =>
    -- Nothing in the value would end it or start another form.
    refine ⟨fun c hc => ⟨h c hc, ?_, ?_⟩, ?_, ?_⟩
    · rintro rfl
      exact hvalue.chars _ hc (by decide)
    · rintro rfl
      exact hvalue.chars _ hc (by decide)
    · intro hhead
      exact hvalue.chars _ (List.mem_of_mem_head? hhead) (by decide)
    · intro hbraces
      exact hvalue.chars '{' (hbraces.subset List.mem_cons_self) (by decide)
  | quoted front back =>
    exact ⟨hvalue.not_mem_padded h.1 h.2 (by decide), hvalue.not_mem_padded h.1 h.2 (by decide)⟩
  | braced front back =>
    -- Nothing in front of the closing braces is one.
    have hclose : '}' ∉ front ++ value ++ back := hvalue.not_mem_padded h.1 h.2 (by decide)
    exact ⟨hvalue.not_mem_padded h.1 h.2 (by decide),
      fun hinside => hclose (hinside.subset List.mem_cons_self),
      fun hlast => hclose (List.mem_of_getLast? hlast)⟩
  | quotedBraces outerFront front back outerBack =>
    obtain ⟨⟨hfront, hback⟩, houterFront, houterBack⟩ := h
    have hinner : ∀ {c}, c ∈ ['"', '\n', '{', '}'] → c ∉ front ++ value ++ back :=
      hvalue.not_mem_padded hfront hback
    -- A quote or the end of the line would have to be in one of the blanks or in the value.
    have hwhole : ∀ {c}, c ∈ ['"', '\n'] → c ∉ outerFront ++ '{' :: '{' ::
        ((front ++ value ++ back) ++ '}' :: '}' :: outerBack) := by
      intro c hc
      have hmem : c ∈ ['"', '\n', '{', '}'] := List.mem_append_left ['{', '}'] hc
      have hbrace : c ≠ '{' ∧ c ≠ '}' := by
        simp only [List.mem_cons, List.not_mem_nil, or_false] at hc
        rcases hc with rfl | rfl <;> decide
      have hmarker : c ∉ (front ++ value ++ back) ++ '}' :: '}' :: outerBack :=
        List.not_mem_append (hinner hmem) (List.not_mem_cons_of_ne_of_not_mem hbrace.2
          (List.not_mem_cons_of_ne_of_not_mem hbrace.2 (houterBack.not_mem hmem)))
      exact List.not_mem_append (houterFront.not_mem hmem)
        (List.not_mem_cons_of_ne_of_not_mem hbrace.1
          (List.not_mem_cons_of_ne_of_not_mem hbrace.1 hmarker))
    exact ⟨hwhole (by decide), hwhole (by decide)⟩

/-- What is written stands for the value, whatever the form. -/
theorem unwrap?_written (h : form.Fits value) (hvalue : Writable value) :
    ∃ text, (form.written value).meant = .text text ∧
      Options.unwrap? text = some (String.ofList value) := by
  cases form with
  | bare =>
    have hbrace : '{' ∉ value := fun hmem => hvalue.chars _ hmem (by decide)
    refine ⟨_, rfl, ?_⟩
    rw [Options.unwrap?_of_not_mem hbrace, hvalue.stripped]
  | quoted front back =>
    refine ⟨_, rfl, ?_⟩
    rw [Options.unwrap?_of_not_mem (hvalue.not_mem_padded h.1 h.2 (by decide)),
      hvalue.strip_padded h.1 h.2]
  | braced front back =>
    -- Blanks stand between the braces alone.
    have hnone : ∀ c ∈ ([] : List Char), isBlank c = true := fun _ h => absurd h List.not_mem_nil
    have hmarker := Options.unwrap?_marker hnone hnone
      (hvalue.not_mem_padded h.1 h.2 (by decide)) (hvalue.not_mem_padded h.1 h.2 (by decide))
    rw [hvalue.strip_padded h.1 h.2] at hmarker
    exact ⟨_, rfl, hmarker⟩
  | quotedBraces outerFront front back outerBack =>
    obtain ⟨⟨hfront, hback⟩, houterFront, houterBack⟩ := h
    refine ⟨_, rfl, ?_⟩
    rw [Options.unwrap?_marker (fun c hc => (houterFront c hc).1) (fun c hc => (houterBack c hc).1)
      (hvalue.not_mem_padded hfront hback (by decide))
      (hvalue.not_mem_padded hfront hback (by decide)), hvalue.strip_padded hfront hback]

/-- A directive tag that takes an attribute takes the value from any form. -/
theorem value_written (h : form.Fits value) (hvalue : Writable value) {fields : List OptionField}
    {key : String} (hkey : fields.any (·.name = key) = true) (tag : String) :
    Options.value fields tag key (form.written value).meant = .ok (String.ofList value) := by
  obtain ⟨text, hmeant, hunwrap⟩ := unwrap?_written h hvalue
  unfold Options.value
  rw [hkey, hmeant]
  simp only [Bool.not_true, Bool.false_eq_true, if_false, hunwrap]

end ValueForm
end HtmlTemplate
