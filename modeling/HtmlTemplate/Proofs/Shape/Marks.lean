import Mathlib.Data.List.Basic
import HtmlTemplate.Proofs.Shape.Pieces
import HtmlTemplate.Proofs.Shape.Tree

/-!
# Marks — what the text of a type tree is cut into

Between blanks the text of a type tree consists of marks: the starts and the ends of nodes and of
their lines.  No mark is the start of another one, so that the marks can be cut from the text one
after another (`TypeTree.scans_describe`).  They are those of the tree as UTF-16 tells it.
-/

namespace HtmlTemplate

open Text

namespace TypeTree

/-- A piece of a tree's text: a node without lines, a node's start and its end, the start of a
field's line and of the elements' line, and the end of a line. -/
inductive Mark where
  | any
  | opening
  | closing
  | field (key : List CodePoint) (required : Bool)
  | element
  | ending
  deriving DecidableEq

namespace Mark

/-- What stands between a field's key and its node. -/
def qualifier (required : Bool) : String :=
  ": " ++ (if required then "Required" else "NotRequired") ++ "["

def text : Mark → String
  | any => "Any"
  | opening => "\x7b\n"
  | closing => "\x7d"
  | field key required => encodePoints key ++ qualifier required
  | element => "__iter__: Iterator["
  | ending => "],\n"

/-- What UTF-16 tells of a mark. -/
def combined : Mark → Mark
  | field key required => field (Text.combined key) required
  | mark => mark

/-! ## Reading -/

/-- Reads the first of some texts that stands at the start of `cs`. -/
def readFirst {α : Type} (text : α → String) (options : List α) (cs : List Char) :
    Option (α × List Char) :=
  options.findSome? fun option =>
    ((text option).toList.isPrefixOf? cs).map fun rest => (option, rest)

/-- Reads a mark at the start of a text, and gives the rest.  Only a field's starts with a quote. -/
def read : List Char → Option (Mark × List Char)
  | '"' :: cs => do
    let (key, cs) ← readKey ('"' :: cs)
    let (required, cs) ← readFirst qualifier [true, false] cs
    return (field key required, cs)
  | cs => readFirst text [any, opening, closing, element, ending] cs

theorem readFirst_length {α : Type} {text : α → String} {options : List α} {cs rest : List Char}
    {option : α} (h : readFirst text options cs = some (option, rest)) :
    option ∈ options ∧ rest.length + (text option).length = cs.length := by
  obtain ⟨other, hmem, h⟩ := List.exists_of_findSome?_eq_some h
  obtain ⟨after, hstarts, h⟩ := Option.map_eq_some_iff.1 h
  cases h
  obtain rfl := List.isPrefixOf?_eq_some_iff_append_eq.1 hstarts
  exact ⟨hmem, by rw [List.length_append, String.length_toList, Nat.add_comm]⟩

theorem read_length {cs rest : List Char} {mark : Mark} (h : read cs = some (mark, rest)) :
    rest.length < cs.length := by
  unfold read at h
  split at h
  · obtain ⟨⟨key, after⟩, hkey, h⟩ := Option.bind_eq_some_iff.1 h
    obtain ⟨⟨required, last⟩, hflag, h⟩ := Option.bind_eq_some_iff.1 h
    obtain ⟨-, rfl⟩ := Prod.mk.inj (Option.some.inj h)
    have hlast := (readFirst_length hflag).2
    exact Nat.lt_of_le_of_lt (by omega) (readKey_length hkey)
  · obtain ⟨hmem, hlength⟩ := readFirst_length h
    have hpos : ∀ m ∈ [any, opening, closing, element, ending], 0 < m.text.length := by decide
    have := hpos mark hmem
    omega

theorem readFirst_qualifier (required : Bool) (rest : List Char) :
    readFirst qualifier [true, false] ((qualifier required).toList ++ rest) =
      some (required, rest) := by
  cases required <;> rfl

/-- The key of a field starts with a quote. -/
theorem exists_encodePoints (key : List CodePoint) :
    ∃ cs, (encodePoints key).toList = '"' :: cs := ⟨_, String.toList_ofList⟩

/-- A mark is read as what UTF-16 tells of it, whatever stands behind it. -/
theorem read_text (mark : Mark) (rest : List Char) :
    read (mark.text.toList ++ rest) = some (mark.combined, rest) := by
  cases mark with
  | any => rfl
  | opening => rfl
  | closing => rfl
  | element => rfl
  | ending => rfl
  | field key required =>
    have hkey := readKey_encodePoints key ((qualifier required).toList ++ rest)
    obtain ⟨cs, hcs⟩ := exists_encodePoints key
    rw [hcs, List.cons_append] at hkey
    rw [text, String.toList_append, List.append_assoc, hcs, List.cons_append, read, hkey]
    simp only [Option.bind_eq_bind, Option.bind_some, readFirst_qualifier]
    rfl

/-- No mark starts with a blank. -/
theorem text_head (mark : Mark) : ∃ c cs, mark.text.toList = c :: cs ∧ (c == ' ') = false := by
  cases mark with
  | any => exact ⟨_, _, rfl, rfl⟩
  | opening => exact ⟨_, _, rfl, rfl⟩
  | closing => exact ⟨_, _, rfl, rfl⟩
  | element => exact ⟨_, _, rfl, rfl⟩
  | ending => exact ⟨_, _, rfl, rfl⟩
  | field key required =>
    obtain ⟨cs, hcs⟩ := exists_encodePoints key
    refine ⟨'"', cs ++ (qualifier required).toList, ?_, rfl⟩
    rw [text, String.toList_append, hcs, List.cons_append]

/-! ## Scanning -/

/-- Cuts a text into marks, passing over blanks. -/
def scan : List Char → Option (List Mark)
  | [] => some []
  | c :: cs =>
    if c == ' ' then scan cs
    else
      match h : read (c :: cs) with
      | none => none
      | some (mark, rest) =>
        have : rest.length ≤ cs.length := Nat.le_of_lt_succ (read_length h)
        (scan rest).map (mark :: ·)
termination_by cs => cs.length

/-- A text is cut into these marks, whatever stands behind it. -/
def Scans (cs : List Char) (marks : List Mark) : Prop :=
  ∀ rest, scan (cs ++ rest) = (scan rest).map (marks ++ ·)

theorem scans_nil : Scans [] [] := fun rest => by simp

theorem Scans.append {cs ds : List Char} {marks more : List Mark} (h : Scans cs marks)
    (hmore : Scans ds more) : Scans (cs ++ ds) (marks ++ more) := by
  intro rest
  rw [List.append_assoc, h, hmore, Option.map_map]
  congr 1
  funext after
  exact (List.append_assoc marks more after).symm

theorem scans_blanks {cs : List Char} (h : ∀ c ∈ cs, c = ' ') : Scans cs [] := by
  induction cs with
  | nil => exact scans_nil
  | cons c cs ih =>
    intro rest
    obtain ⟨rfl, hcs⟩ := List.forall_mem_cons.1 h
    rw [List.cons_append, scan, if_pos (beq_self_eq_true ' ')]
    exact ih hcs rest

theorem scans_text (mark : Mark) : Scans mark.text.toList [mark.combined] := by
  intro rest
  obtain ⟨c, cs, h, hblank⟩ := mark.text_head
  have hread := mark.read_text rest
  rw [h, List.cons_append] at hread ⊢
  rw [scan, if_neg (Bool.eq_false_iff.1 hblank)]
  split
  · rename_i hnone
    rw [hread] at hnone
    cases hnone
  · rename_i hsome
    rw [hread] at hsome
    cases hsome
    rfl

end Mark

/-! ## The marks of a tree -/

open Mark

/-- A node's marks from the marks of its lines. -/
def enclose (lines : List Mark) : List Mark :=
  if lines.isEmpty then [.any] else .opening :: (lines ++ [.closing])

mutual

/-- The marks in the text of a node. -/
def marks : TypeTree → List Mark
  | node fields elements? => enclose (fieldMarks fields ++ elementMarks elements?)

def fieldMarks : List Field → List Mark
  | [] => []
  | (key, required, t) :: rest => .field key required :: (marks t ++ .ending :: fieldMarks rest)

def elementMarks : Option TypeTree → List Mark
  | none => []
  | some t => .element :: (marks t ++ [.ending])

end

/-- A node has lines if it has marks in them. -/
theorem isEmpty_lines (indent : String) (fields : List Field)
    (elements? : Option TypeTree) :
    (fieldLines indent fields ++ elementLines indent elements?).isEmpty =
      (fieldMarks (mapKeysIn Text.combined fields) ++
        elementMarks (mapKeysOf Text.combined elements?)).isEmpty := by
  cases fields <;> cases elements? <;> rfl

section Lines

variable {indent : String} (hindent : ∀ c ∈ indent.toList, c = ' ')

include hindent

theorem scans_fieldLine (key : List CodePoint) (required : Bool) {text : String}
    {inner : List Mark} (h : Scans text.toList inner) :
    Scans (fieldLine indent key required text).toList
      (.field (Text.combined key) required :: (inner ++ [.ending])) := by
  have hline : fieldLine indent key required text =
      indent ++ (Mark.field key required).text ++ text ++ Mark.ending.text := by
    simp only [fieldLine, Mark.text, qualifier, String.append_assoc]
  have hmarks := (((scans_blanks hindent).append (scans_text (.field key required))).append
    h).append (scans_text .ending)
  rw [hline, String.toList_append, String.toList_append, String.toList_append]
  exact hmarks

theorem scans_elementLine {text : String} {inner : List Mark} (h : Scans text.toList inner) :
    Scans (Shape.elementLine indent text).toList (.element :: (inner ++ [.ending])) := by
  have hline : Shape.elementLine indent text =
      indent ++ Mark.element.text ++ text ++ Mark.ending.text := rfl
  have hmarks := (((scans_blanks hindent).append (scans_text .element)).append
    h).append (scans_text .ending)
  rw [hline, String.toList_append, String.toList_append, String.toList_append]
  exact hmarks

theorem scans_bracket {lines : List String} {inner : List Mark}
    (hempty : lines.isEmpty = inner.isEmpty) (h : Scans (String.join lines).toList inner) :
    Scans (Shape.bracket indent lines).toList (enclose inner) := by
  unfold Shape.bracket enclose
  rw [hempty]
  split
  · exact scans_text .any
  · have hmarks := (((scans_text .opening).append h).append (scans_blanks hindent)).append
      (scans_text .closing)
    rw [String.toList_append, String.toList_append, String.toList_append]
    rwa [List.append_nil] at hmarks

end Lines

mutual

/-- The text of a node is cut into the marks that UTF-16 tells of it. -/
theorem scans_describe : ∀ (t : TypeTree) {indent : String}, (∀ c ∈ indent.toList, c = ' ') →
    Scans (describe indent t).toList t.combined.marks
  | node fields elements?, indent, hindent => by
    have hmargin := Shape.Composed.blank_margin hindent
    rw [describe, TypeTree.combined, mapKeys, marks]
    refine scans_bracket hindent (isEmpty_lines _ fields elements?) ?_
    rw [String.join_append, String.toList_append]
    exact (scans_fieldLines fields hmargin).append (scans_elementLines elements? hmargin)

theorem scans_fieldLines : ∀ (fields : List Field) {indent : String},
    (∀ c ∈ indent.toList, c = ' ') →
      Scans (String.join (fieldLines indent fields)).toList
        (fieldMarks (mapKeysIn Text.combined fields))
  | [], _, _ => scans_nil
  | (key, required, t) :: rest, indent, hindent => by
    have hline := scans_fieldLine hindent key required (scans_describe t hindent)
    have hlines := hline.append (scans_fieldLines rest hindent)
    rw [fieldLines, mapKeysIn, fieldMarks, String.join_cons, String.toList_append]
    simpa [TypeTree.combined] using hlines

theorem scans_elementLines : ∀ (elements? : Option TypeTree) {indent : String},
    (∀ c ∈ indent.toList, c = ' ') →
      Scans (String.join (elementLines indent elements?)).toList
        (elementMarks (mapKeysOf Text.combined elements?))
  | none, _, _ => scans_nil
  | some t, indent, hindent => by
    have hline := scans_elementLine hindent (scans_describe t hindent)
    rw [elementLines, mapKeysOf, elementMarks, String.join_cons, String.join_nil,
      String.append_empty]
    exact hline

end

/-- The whole text of a tree is cut into the marks that UTF-16 tells of it. -/
theorem scan_text (t : TypeTree) : scan t.text.toList = some t.combined.marks := by
  have hblank : ∀ c ∈ "".toList, c = ' ' := fun _ hc => absurd hc List.not_mem_nil
  have h := scans_describe t hblank []
  rw [List.append_nil, scan, Option.map_some, List.append_nil] at h
  exact h

end TypeTree
end HtmlTemplate
