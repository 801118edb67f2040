import HtmlTemplate.Proofs.Shape.Node
import HtmlTemplate.Proofs.Text.Key

/-!
# Named — the fields that the text of a shape names

The text of a shape has one line for each top-level field, behind a single margin.  Which fields
these are can be told from the text alone (`Shape.namesField_text_iff`): the lines of fields further
down stand behind more, and a key cannot be taken for another one.
-/

namespace HtmlTemplate

open Text

namespace Shape

/-- The start of a top-level field's line. -/
def lineStart (name : String) : List Char := (margin ++ encodeKey name ++ ": ").toList

/-- Whether a text names a top-level field: it has a line that starts like the field's. -/
def NamesField (text name : String) : Prop := '\n' :: lineStart name <:+: text.toList

/-! ## Lines further down -/

/-- What the line of any top-level field starts with. -/
def opener : List Char := [' ', ' ', ' ', ' ', '"']

theorem opener_starts (name : String) : opener <+: lineStart name := by
  unfold lineStart encodeKey
  rw [String.toList_append, String.toList_append, String.toList_ofList, List.append_assoc]
  exact ⟨_, rfl⟩

/-- Whether no line that starts in a text can be a top-level field's, whatever comes after. -/
def Inner (cs : List Char) : Prop :=
  ∀ before after, cs = before ++ '\n' :: after → ∀ rest, ¬ opener <+: after ++ rest

theorem inner_of_not_mem {cs : List Char} (h : '\n' ∉ cs) : Inner cs := by
  rintro before after rfl
  exact absurd (List.mem_append_right before List.mem_cons_self) h

theorem Inner.append {xs ys : List Char} (hx : Inner xs) (hy : Inner ys) : Inner (xs ++ ys) := by
  intro before after h rest
  rcases List.append_eq_append_iff.1 h with ⟨as, rfl, rfl⟩ | ⟨bs, rfl, hbs⟩
  · exact hy as after rfl rest
  · cases bs with
    | nil => exact hy [] after hbs.symm rest
    | cons b bs =>
      rw [List.cons_append] at hbs
      obtain ⟨rfl, rfl⟩ := List.cons.inj hbs
      rw [List.append_assoc]
      exact hx before bs rfl (ys ++ rest)

/-- A line that starts otherwise. -/
theorem Inner.newline {cs : List Char} (h : Inner cs) (hstart : ∀ rest, ¬ opener <+: cs ++ rest) :
    Inner ('\n' :: cs) := by
  intro before after he rest
  cases before with
  | nil =>
    obtain rfl := (List.cons.inj he).2
    exact hstart rest
  | cons b before => exact h before after (List.cons.inj he).2 rest

/-- The line of a top-level field does not start inside of an inner text. -/
theorem infix_of_inner {name : String} {xs ys : List Char} (hx : Inner xs)
    (h : '\n' :: lineStart name <:+: xs ++ ys) : '\n' :: lineStart name <:+: ys := by
  obtain ⟨before, after, h⟩ := h
  rw [List.append_assoc] at h
  rcases List.append_eq_append_iff.1 h with ⟨as, rfl, has⟩ | ⟨bs, rfl, rfl⟩
  · cases as with
    | nil => exact ⟨[], after, has⟩
    | cons a as =>
      rw [List.cons_append, List.cons_append] at has
      obtain ⟨rfl, hrest⟩ := List.cons.inj has
      refine absurd ?_ (hx before as rfl ys)
      rw [← hrest]
      exact (opener_starts name).trans (List.prefix_append _ _)
  · exact ⟨bs, after, List.append_assoc _ _ _⟩

/-- Behind more than one margin no top-level field can stand. -/
theorem not_opener_of_deep {indent : String} {n : Nat} (hi : indent.toList = List.replicate n ' ')
    (hn : 4 < n) (cs : List Char) : ¬ opener <+: indent.toList ++ cs := by
  obtain ⟨m, rfl⟩ := Nat.exists_eq_add_of_lt hn
  have hspaces : List.replicate (4 + m + 1) ' ' =
      ' ' :: ' ' :: ' ' :: ' ' :: ' ' :: List.replicate m ' ' := by
    rw [Nat.add_right_comm, Nat.add_comm]
    rfl
  rw [hi, hspaces]
  simp [opener, List.cons_prefix_cons]

/-- Behind a margin a top-level field starts with the quote of its key. -/
theorem not_opener_of_char {indent : String} {n : Nat} (hi : indent.toList = List.replicate n ' ')
    (hn : 4 ≤ n) {c : Char} (hc : c ≠ '"') (cs : List Char) :
    ¬ opener <+: indent.toList ++ c :: cs := by
  rcases Nat.eq_or_lt_of_le hn with rfl | hdeep
  · rw [hi]
    simp [opener, List.replicate, List.cons_prefix_cons, hc.symm]
  · exact not_opener_of_deep hi hdeep _

theorem toList_indent {indent : String} {n : Nat} (hi : indent.toList = List.replicate n ' ') :
    (indent ++ margin).toList = List.replicate (n + 4) ' ' := by
  rw [String.toList_append, hi, ← List.replicate_append_replicate]
  rfl

/-- What a field's line holds between its margin and its end. -/
def fieldBody (name : String) (required : Bool) (text : String) : List Char :=
  (encodeKey name ++ ": " ++ ((if required then "Required" else "NotRequired") ++ "[")).toList ++
    text.toList ++ [']', ',']

theorem toList_fieldLine (indent name : String) (required : Bool) (text : String) :
    (fieldLine indent name required text).toList =
      indent.toList ++ fieldBody name required text ++ ['\n'] := by
  simp [fieldLine, fieldBody]

theorem toList_elementLine (indent text : String) : (elementLine indent text).toList =
    indent.toList ++ ("__iter__: Iterator[".toList ++ text.toList ++ [']', ',']) ++ ['\n'] := by
  simp [elementLine]

theorem inner_fieldBody (name : String) (required : Bool) {text : String}
    (h : Inner text.toList) : Inner (fieldBody name required text) := by
  refine Inner.append (Inner.append (inner_of_not_mem ?_) h) (inner_of_not_mem (by decide))
  have hmark : '\n' ∉ ((if required then "Required" else "NotRequired") ++ "[" : String).toList := by
    cases required <;> decide
  rw [String.toList_append, String.toList_append]
  intro hmem
  rcases List.mem_append.1 hmem with hmem | hmem
  · rcases List.mem_append.1 hmem with hmem | hmem
    · exact newline_not_mem_key name hmem
    · exact absurd hmem (by decide)
  · exact hmark hmem

/-- A line that starts otherwise than a top-level field's, and what comes after it. -/
theorem inner_line {indent body tail : List Char} (hi : '\n' ∉ indent)
    (hstart : ∀ rest, ¬ opener <+: indent ++ (body ++ rest)) (hb : Inner body)
    (ht : Inner ('\n' :: tail)) : Inner ('\n' :: (indent ++ body ++ ['\n'] ++ tail)) := by
  have hline : Inner ('\n' :: (indent ++ body)) := by
    refine Inner.newline ((inner_of_not_mem hi).append hb) ?_
    intro rest
    rw [List.append_assoc]
    exact hstart rest
  have happend := hline.append ht
  rw [List.append_assoc]
  exact happend

theorem newline_not_mem_indent {indent : String} {n : Nat}
    (hi : indent.toList = List.replicate n ' ') : '\n' ∉ indent.toList := by
  rw [hi]
  simp [List.mem_replicate]

/-- The end of a node that stands behind a margin. -/
theorem inner_close {indent : String} {n : Nat} (hi : indent.toList = List.replicate n ' ')
    (hn : 4 ≤ n) : Inner ('\n' :: (indent.toList ++ ['\x7d'])) := by
  have hend : '\n' ∉ ['\x7d'] := by decide
  refine Inner.newline ((inner_of_not_mem (newline_not_mem_indent hi)).append
    (inner_of_not_mem hend)) ?_
  intro rest
  rw [List.append_assoc]
  exact not_opener_of_char hi hn (by decide) rest

theorem toList_bracket {indent : String} {fields elements : List String}
    (h : (fields ++ elements).isEmpty = false) :
    (bracket indent (fields ++ elements)).toList = '\x7b' :: '\n' :: ((String.join fields).toList ++
      ((String.join elements).toList ++ (indent.toList ++ ['\x7d']))) := by
  simp [bracket, h, String.toList_join]

mutual

/-- Whatever the text of a node is that stands behind a margin, no line in it is a top-level
field's. -/
theorem inner_describe {indent : String} {n : Nat} (hi : indent.toList = List.replicate n ' ')
    (hn : 4 ≤ n) : ∀ s : Shape, Inner (describe indent s).toList
  | node r b c => by
    have hdeep : 4 < n + 4 := Nat.lt_of_lt_of_le (by decide) (Nat.add_le_add_right hn 4)
    have helements := inner_elementLines (toList_indent hi) (Nat.le_of_lt hdeep) c
      (inner_close hi hn)
    have hfields := inner_fieldLines (toList_indent hi) hdeep c helements
    rw [describe]
    cases hempty : (fieldLines (indent ++ margin) c ++ elementLines (indent ++ margin) c).isEmpty with
    | true =>
      rw [bracket, if_pos hempty]
      exact inner_of_not_mem (by decide)
    | false =>
      rw [toList_bracket hempty]
      have hopen : '\n' ∉ ['\x7b'] := by decide
      exact (inner_of_not_mem hopen).append hfields

theorem inner_fieldLines {indent : String} {n : Nat} (hi : indent.toList = List.replicate n ' ')
    (hn : 4 < n) : ∀ (c : List (Step × Shape)) {tail : List Char}, Inner ('\n' :: tail) →
      Inner ('\n' :: ((String.join (fieldLines indent c)).toList ++ tail))
  | [], tail, h => h
  | (.element, _) :: rest, tail, h => inner_fieldLines hi hn rest h
  | (.field name, s) :: rest, tail, h => by
    have hs := inner_describe hi (Nat.le_of_lt hn) s
    have hrest := inner_fieldLines hi hn rest h
    rw [fieldLines, String.join_cons, String.toList_append, toList_fieldLine, List.append_assoc]
    exact inner_line (newline_not_mem_indent hi) (fun _ => not_opener_of_deep hi hn _)
      (inner_fieldBody name s.required hs) hrest

theorem inner_elementLines {indent : String} {n : Nat} (hi : indent.toList = List.replicate n ' ')
    (hn : 4 ≤ n) : ∀ (c : List (Step × Shape)) {tail : List Char}, Inner ('\n' :: tail) →
      Inner ('\n' :: ((String.join (elementLines indent c)).toList ++ tail))
  | [], tail, h => h
  | (.field _, _) :: rest, tail, h => inner_elementLines hi hn rest h
  | (.element, s) :: rest, tail, h => by
    have hs := inner_describe hi hn s
    have hrest := inner_elementLines hi hn rest h
    have hopen : '\n' ∉ "__iter__: Iterator[".toList := by decide
    have hend : '\n' ∉ [']', ','] := by decide
    have hbody := ((inner_of_not_mem hopen).append hs).append (inner_of_not_mem hend)
    rw [elementLines, String.join_cons, String.toList_append, toList_elementLine, List.append_assoc]
    -- Elements have no key, so that even their top-level line starts otherwise.
    exact inner_line (newline_not_mem_indent hi)
      (fun _ => not_opener_of_char hi hn (by decide) _) hbody hrest

end

/-! ## Top-level lines -/

theorem not_infix_of_inner {name : String} {cs : List Char} (h : Inner cs) :
    ¬ '\n' :: lineStart name <:+: cs := by
  intro hinfix
  have hnil : '\n' :: lineStart name <:+: [] := by
    refine infix_of_inner h ?_
    rwa [List.append_nil]
  exact absurd (List.infix_nil.1 hnil) (List.cons_ne_nil _ _)

theorem lineStart_starts_iff {name other : String} {cs : List Char} :
    lineStart name <+: margin.toList ++ ((encodeKey other ++ ": ").toList ++ cs) ↔
      name = other := by
  unfold lineStart
  rw [String.append_assoc, String.toList_append, List.prefix_append_right_inj]
  constructor
  · rintro ⟨rest, h⟩
    rw [String.toList_append, String.toList_append, List.append_assoc, List.append_assoc] at h
    exact encodeKey_append_inj h
  · rintro rfl
    exact List.prefix_append _ _

theorem infix_append_iff {name : String} {xs ys : List Char} (hx : Inner xs) :
    '\n' :: lineStart name <:+: xs ++ ys ↔ '\n' :: lineStart name <:+: ys :=
  ⟨infix_of_inner hx, fun h => h.trans (List.suffix_append xs ys).isInfix⟩

theorem toList_margin : margin.toList = List.replicate 4 ' ' := rfl

/-- The lines of top-level fields name just these fields. -/
theorem infix_fieldLines (name : String) : ∀ (c : List (Step × Shape)) {tail : List Char},
    Inner ('\n' :: tail) →
      ('\n' :: lineStart name <:+: '\n' :: ((String.join (fieldLines margin c)).toList ++ tail) ↔
        name ∈ c.filterMap (·.1.name?))
  | [], tail, h => iff_of_false (not_infix_of_inner h) List.not_mem_nil
  | (.element, _) :: rest, tail, h => infix_fieldLines name rest h
  | (.field other, s) :: rest, tail, h => by
    have hrest := infix_fieldLines name rest h
    have hbody := inner_fieldBody other s.required (inner_describe toList_margin (Nat.le_refl 4) s)
    have hline := (inner_of_not_mem (newline_not_mem_indent toList_margin)).append hbody
    have hstart : lineStart name <+: margin.toList ++
        fieldBody other s.required (describe margin s) ++
          '\n' :: ((String.join (fieldLines margin rest)).toList ++ tail) ↔ name = other := by
      unfold fieldBody
      rw [String.toList_append, List.append_assoc, List.append_assoc, List.append_assoc,
        List.append_assoc]
      exact lineStart_starts_iff
    -- The field's line starts here, or the text names a later field.
    rw [fieldLines, String.join_cons, String.toList_append, toList_fieldLine, List.append_assoc,
      List.append_assoc, List.singleton_append, List.infix_cons_iff, List.cons_prefix_cons,
      infix_append_iff hline, hstart, hrest]
    simp

/-- The text of a shape names the shape's fields, and no others. -/
theorem namesField_text_iff (s : Shape) (name : String) :
    NamesField s.text name ↔ name ∈ s.fieldNames := by
  obtain ⟨r, b, c⟩ := s
  have hend : Inner ('\n' :: ['\x7d']) :=
    Inner.newline (inner_of_not_mem (by decide)) fun rest => by simp [opener, List.cons_prefix_cons]
  have helements := inner_elementLines toList_margin (Nat.le_refl 4) c hend
  have hmargin : "" ++ margin = margin := rfl
  rw [fieldNames_eq, children, NamesField, text, describe, hmargin]
  cases hempty : (fieldLines margin c ++ elementLines margin c).isEmpty with
  | true =>
    have hfields : fieldLines margin c = [] :=
      (List.append_eq_nil_iff.1 (List.isEmpty_iff.1 hempty)).1
    rw [bracket, if_pos hempty, ← infix_fieldLines name c hend, hfields]
    exact iff_of_false (not_infix_of_inner (inner_of_not_mem (by decide))) (not_infix_of_inner hend)
  | false =>
    have hopen : '\n' ∉ ['\x7b'] := by decide
    rw [toList_bracket hempty, ← infix_fieldLines name c helements]
    exact infix_append_iff (inner_of_not_mem hopen)

end Shape
end HtmlTemplate
