import HtmlTemplate.Location
import Mathlib.Data.List.TakeWhile

/-!
# Location — lines and columns as another name of an offset

The line of an offset is told by the line feeds in front of it, and the column by how far behind the
last of these it is.  Both scans agree on every offset, those on a line feed, behind one and at the
end of the source included, so that line and column grow with the offset and determine it
(`Location.ofOffset_identifies`).
-/

namespace HtmlTemplate
namespace Location

/-- Whether a location is that of an offset in a source.  The lines in front of it end with line
feeds, and what is left is the start of its own line. -/
structure Marks (source : List Char) (file : Option String) (offset : Nat) (l : Location) :
    Prop where
  le_length : offset ≤ source.length
  offset_eq : l.offset = offset
  file_eq : l.file = file
  place : ∃ lines line, source.take offset = lines ++ line ∧ '\n' ∉ line ∧
    (lines = [] ∨ lines.getLast? = some '\n') ∧
    l.line = lines.count '\n' + 1 ∧ l.column = line.length + 1

/-- A text is cut behind its last line feed. -/
theorem exists_last_line (cs : List Char) : ∃ lines line, cs = lines ++ line ∧ '\n' ∉ line ∧
    (lines = [] ∨ lines.getLast? = some '\n') ∧
    lines.count '\n' = cs.count '\n' ∧ line.length = tailLength cs := by
  refine ⟨(cs.reverse.dropWhile (· != '\n')).reverse, (cs.reverse.takeWhile (· != '\n')).reverse,
    ?_, ?_, ?_, ?_, ?_⟩
  · rw [← List.reverse_append, List.takeWhile_append_dropWhile, List.reverse_reverse]
  · intro hmem
    have hne := List.mem_takeWhile_imp (List.mem_reverse.1 hmem)
    exact absurd hne (by decide)
  · rw [List.reverse_eq_nil_iff, List.getLast?_reverse]
    have hhead := List.head?_dropWhile_not (· != '\n') cs.reverse
    cases hdrop : cs.reverse.dropWhile (· != '\n') with
    | nil => exact Or.inl rfl
    | cons c rest =>
      rw [hdrop] at hhead
      exact Or.inr (congrArg some (by simpa using hhead))
  · -- The last line has no line feed, so that all of them are in front of it.
    have hnone : (cs.reverse.takeWhile (· != '\n')).count '\n' = 0 :=
      List.count_eq_zero.2 fun hmem => absurd (List.mem_takeWhile_imp hmem) (by decide)
    have hall : (cs.reverse.takeWhile (· != '\n') ++ cs.reverse.dropWhile (· != '\n')).count '\n' =
        cs.count '\n' := by
      rw [List.takeWhile_append_dropWhile, List.count_reverse]
    rw [List.count_append, hnone, Nat.zero_add] at hall
    rw [List.count_reverse, hall]
  · rw [List.length_reverse]
    rfl

theorem ofOffset_marks {source : List Char} {offset : Nat} (h : offset ≤ source.length)
    (file : Option String) : (ofOffset source (offset : Int) file).Marks source file offset := by
  have hclamp : clamp source.length (offset : Int) = offset := Nat.min_eq_left h
  obtain ⟨lines, line, hsplit, hline, hlines, hcount, hlength⟩ :=
    exists_last_line (source.take offset)
  refine ⟨h, hclamp, rfl, lines, line, hsplit, hline, hlines, ?_, ?_⟩
  · rw [hcount, ofOffset, hclamp]
  · rw [hlength, ofOffset, hclamp]

/-! ## Starts of lines -/

/-- Whether the line of an offset starts at `start`: with the source or behind a line feed, and
there is no line feed from there up to the offset. -/
structure StartsLine (source : List Char) (offset start : Nat) : Prop where
  le_offset : start ≤ offset
  behind : start = 0 ∨ source[start - 1]? = some '\n'
  unbroken : ∀ i, start ≤ i → i < offset → source[i]? ≠ some '\n'

variable {source : List Char} {a b offset start : Nat}

/-- A line starts in one place. -/
theorem StartsLine.unique {other : Nat} (h : StartsLine source offset start)
    (h' : StartsLine source offset other) : start = other := by
  -- The later of two starts would have a line feed in front of it, within the line of the earlier.
  have hle : ∀ {s t : Nat}, StartsLine source offset s → StartsLine source offset t → t ≤ s := by
    intro s t hs ht
    by_contra hlt
    rcases ht.behind with hzero | hfeed
    · omega
    · exact hs.unbroken (t - 1) (by omega) (by have := ht.le_offset; omega) hfeed
  exact Nat.le_antisymm (hle h' h) (hle h h')

/-- The column counts from the start of the line. -/
theorem Marks.startsLine {file : Option String} {l : Location}
    (h : l.Marks source file offset) :
    ∃ start, StartsLine source offset start ∧ l.column = offset - start + 1 := by
  obtain ⟨lines, line, hsplit, hline, hlines, -, hcolumn⟩ := h.place
  have hlength : lines.length + line.length = offset := by
    have htake := congrArg List.length hsplit
    rw [List.length_append, List.length_take_of_le h.le_length] at htake
    exact htake.symm
  -- Both parts of the cut are found in the source.
  have hat : ∀ i, i < offset → source[i]? = (lines ++ line)[i]? := by
    intro i hi
    rw [← hsplit, List.getElem?_take_of_lt hi]
  refine ⟨lines.length, ⟨by omega, ?_, ?_⟩, by omega⟩
  · rcases hlines with rfl | hlast
    · exact Or.inl rfl
    · have hpos : 0 < lines.length := List.length_pos_of_mem (List.mem_of_getLast? hlast)
      right
      rw [hat _ (by omega), List.getElem?_append_left (by omega), ← hlast,
        List.getLast?_eq_getElem?]
  · intro i hstart hi hfeed
    rw [hat i hi, List.getElem?_append_right hstart] at hfeed
    exact hline (List.mem_of_getElem? hfeed)

theorem Marks.line_eq {file : Option String} {l : Location} (h : l.Marks source file offset) :
    l.line = (source.take offset).count '\n' + 1 := by
  obtain ⟨lines, line, hsplit, hline, -, hcount, -⟩ := h.place
  rw [hsplit, List.count_append, List.count_eq_zero.2 hline, hcount, Nat.add_zero]

/-! ## Order -/

/-- Whether one place stands in front of another: on an earlier line, or earlier on the same one. -/
def Precedes (l m : Location) : Prop :=
  l.line < m.line ∨ l.line = m.line ∧ l.column < m.column

theorem count_take_le (source : List Char) (h : a ≤ b) :
    (source.take a).count '\n' ≤ (source.take b).count '\n' :=
  (List.take_sublist_take_left h).count_le '\n'

/-- A line feed between two offsets makes a difference to their lines. -/
theorem count_take_lt {i : Nat} (ha : a ≤ i) (hb : i < b) (hfeed : source[i]? = some '\n') :
    (source.take a).count '\n' < (source.take b).count '\n' := by
  have hstep : (source.take (i + 1)).count '\n' = (source.take i).count '\n' + 1 := by
    rw [List.take_add_one, hfeed, Option.toList_some, List.count_append, List.count_singleton_self]
  calc (source.take a).count '\n'
      ≤ (source.take i).count '\n' := count_take_le source ha
    _ < (source.take (i + 1)).count '\n' := by omega
    _ ≤ (source.take b).count '\n' := count_take_le source hb

/-- Of two places in a source, the one of the smaller offset stands in front. -/
theorem Marks.precedes {file : Option String} {l m : Location} (hl : l.Marks source file a)
    (hm : m.Marks source file b) (h : a < b) : l.Precedes m := by
  obtain ⟨s, hs, hlcolumn⟩ := hl.startsLine
  obtain ⟨t, ht, hmcolumn⟩ := hm.startsLine
  have hle := count_take_le source (Nat.le_of_lt h)
  rcases Nat.lt_or_eq_of_le hle with hlt | heq
  · left
    rw [hl.line_eq, hm.line_eq]
    omega
  · -- Without a line feed in between, both are on one line, which starts in front of both.
    have hta : t ≤ a := by
      by_contra hat
      have htb := ht.le_offset
      have hfeed := ht.behind.resolve_left (by omega)
      have hlt : (source.take a).count '\n' < (source.take b).count '\n' :=
        count_take_lt (i := t - 1) (by omega) (by omega) hfeed
      omega
    have hsame : s = t :=
      hs.unique ⟨hta, ht.behind, fun i hi hlt => ht.unbroken i hi (Nat.lt_trans hlt h)⟩
    right
    rw [hl.line_eq, hm.line_eq]
    omega

/-- An offset outside the source has the place of its nearer end. -/
theorem ofOffset_clamp (source : List Char) (offset : Int) (file : Option String) :
    ofOffset source (clamp source.length offset : Nat) file = ofOffset source offset file := by
  have hclamp : clamp source.length (clamp source.length offset : Nat) =
      clamp source.length offset := Nat.min_eq_left (Nat.min_le_right _ _)
  unfold ofOffset
  rw [hclamp]

theorem marks_ofOffset (source : List Char) (offset : Int) (file : Option String) :
    (ofOffset source offset file).Marks source file (clamp source.length offset) := by
  rw [← ofOffset_clamp]
  exact ofOffset_marks (Nat.min_le_right _ _) file

/-- Every offset is brought into its source.  Its line is one more than the line feeds in front of
it, and its column is one more than its distance from the start of that line, up to which there is
no line feed.  So one offset comes before another just if its line and column do, and the line and
column tell the offset. -/
theorem ofOffset_identifies (source : List Char) (file : Option String) :
    (∀ offset : Int,
      let l := ofOffset source offset file
      (l.offset : Int) = max 0 (min offset source.length) ∧ l.file = file ∧
        l.line = 1 + (source.take l.offset).count '\n' ∧
        ∃ start, StartsLine source l.offset start ∧ l.column = 1 + (l.offset - start) ∧
          start + l.column - 1 = l.offset) ∧
    ∀ a b : Int,
      let l := ofOffset source a file
      let m := ofOffset source b file
      (l.Precedes m ↔ l.offset < m.offset) ∧
        (l.line = m.line ∧ l.column = m.column ↔ l.offset = m.offset) := by
  have hoffset : ∀ offset : Int,
      (ofOffset source offset file).offset = clamp source.length offset := fun _ => rfl
  constructor
  · intro offset
    have hmarks := marks_ofOffset source offset file
    obtain ⟨start, hstart, hcolumn⟩ := hmarks.startsLine
    have hle := hstart.le_offset
    have hmin : clamp source.length offset = min offset.toNat source.length := rfl
    dsimp only
    rw [hoffset]
    refine ⟨by omega, rfl, ?_, start, hstart, by omega, by omega⟩
    rw [hmarks.line_eq, Nat.add_comm]
  · intro a b
    have hlt := (marks_ofOffset source a file).precedes (marks_ofOffset source b file)
    have hgt := (marks_ofOffset source b file).precedes (marks_ofOffset source a file)
    have hsame : clamp source.length a = clamp source.length b →
        ofOffset source a file = ofOffset source b file := by
      intro h
      rw [← ofOffset_clamp source a, ← ofOffset_clamp source b, h]
    dsimp only
    rw [hoffset, hoffset]
    -- Of two offsets that differ one comes first, and so does its place.
    rcases Nat.lt_trichotomy (clamp source.length a) (clamp source.length b) with h | h | h
    · have hplace := hlt h
      unfold Precedes at hplace ⊢
      omega
    · rw [hsame h]
      unfold Precedes
      omega
    · have hplace := hgt h
      unfold Precedes at hplace ⊢
      omega

/-- The end of a source that ends with a line feed is the start of a line. -/
example : (ofOffset "<a>\n".toList 9 none).text = "2:1" := by decide

end Location
end HtmlTemplate
