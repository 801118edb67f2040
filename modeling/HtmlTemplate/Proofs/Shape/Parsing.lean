import HtmlTemplate.Proofs.Scope.Unfolding
import HtmlTemplate.Proofs.Shape.Marks

/-!
# Parsing — a type tree can be read from its text

`TypeTree.parse` reads a type tree from its text.  What it reads is the tree as UTF-16 tells it
(`TypeTree.parse_text`), so that two trees have the same text exactly if UTF-16 tells the same of
both (`TypeTree.text_eq_iff`).  A tree is read back itself if in none of its keys a high half of a
surrogate pair stands directly before a low one.  The text of every scope is that of such a tree
(`Scope.typeText_run_eq`).
-/

namespace HtmlTemplate

open Text

namespace TypeTree

/-! ## Reading marks -/

/-- Where in a text one is: before a node, among the lines of one, or behind one. -/
inductive Place where
  | before
  | among (fields : List Field) (elements? : Option TypeTree)
  | behind (t : TypeTree)

/-- A line that is being read: a field's, or that of the elements. -/
inductive Line where
  | field (key : List CodePoint) (required : Bool)
  | element

/-- A node whose lines are being read: its fields so far, and the line that one is in. -/
structure Outer where
  fields : List Field
  line : Line

/-- Where in a text one is, with the nodes around the place, the innermost first. -/
structure Progress where
  place : Place
  outer : List Outer

namespace Progress

/-- Reads one mark.  Behind the line of the elements no other one comes. -/
def turn : Progress → Mark → Option Progress
  | ⟨.before, outer⟩, .any => some ⟨.behind (node [] none), outer⟩
  | ⟨.before, outer⟩, .opening => some ⟨.among [] none, outer⟩
  | ⟨.among fields none, outer⟩, .field key required =>
    some ⟨.before, ⟨fields, .field key required⟩ :: outer⟩
  | ⟨.among fields none, outer⟩, .element => some ⟨.before, ⟨fields, .element⟩ :: outer⟩
  | ⟨.among fields elements?, outer⟩, .closing => some ⟨.behind (node fields elements?), outer⟩
  | ⟨.behind t, ⟨fields, .field key required⟩ :: outer⟩, .ending =>
    some ⟨.among (fields ++ [(key, required, t)]) none, outer⟩
  | ⟨.behind t, ⟨fields, .element⟩ :: outer⟩, .ending => some ⟨.among fields (some t), outer⟩
  | _, _ => none

/-- The node that has been read, if nothing is around it. -/
def result : Progress → Option TypeTree
  | ⟨.behind t, []⟩ => some t
  | _ => none

end Progress

open Progress

/-- Reads a type tree from its text. -/
def parse (text : String) : Option TypeTree := do
  let marks ← Mark.scan text.toList
  let progress ← marks.foldlM turn ⟨.before, []⟩
  progress.result

/-- The marks of a line bring one behind the line's node, and the end of the line from there on. -/
theorem run_line {start : Mark} {line : Line} {fields : List Field} {outer : List Outer}
    {inner rest : List Mark} {t : TypeTree} {after : Progress}
    (hstart : turn ⟨.among fields none, outer⟩ start = some ⟨.before, ⟨fields, line⟩ :: outer⟩)
    (hinner : ∀ outer, inner.foldlM turn ⟨.before, outer⟩ = some ⟨.behind t, outer⟩)
    (hending : turn ⟨.behind t, ⟨fields, line⟩ :: outer⟩ .ending = some after) :
    (start :: (inner ++ .ending :: rest)).foldlM turn ⟨.among fields none, outer⟩ =
      rest.foldlM turn after := by
  simp only [List.foldlM_cons, List.foldlM_append, hstart, hinner, hending, Option.bind_eq_bind,
    Option.bind_some]

/-- The marks of a node make the node from those of its lines. -/
theorem run_enclose {lines : List Mark} {fields : List Field} {elements? : Option TypeTree}
    {outer : List Outer}
    (h : lines.foldlM turn ⟨.among [] none, outer⟩ = some ⟨.among fields elements?, outer⟩) :
    (enclose lines).foldlM turn ⟨.before, outer⟩ =
      some ⟨.behind (node fields elements?), outer⟩ := by
  unfold enclose
  split
  -- Without marks nothing was read among the lines, and the node has none.
  · rename_i hempty
    rw [List.isEmpty_iff.1 hempty] at h
    cases h
    rfl
  · rw [List.foldlM_cons]
    show (lines ++ [Mark.closing]).foldlM turn ⟨.among [] none, outer⟩ = _
    rw [List.foldlM_append, h]
    cases elements? <;> rfl

mutual

/-- Reading the marks of a node makes the node. -/
theorem run_marks : ∀ (t : TypeTree) (outer : List Outer),
    t.marks.foldlM turn ⟨.before, outer⟩ = some ⟨.behind t, outer⟩
  | node fields elements?, outer => by
    rw [marks]
    refine run_enclose ?_
    rw [List.foldlM_append, run_fieldMarks fields [] outer]
    exact run_elementMarks elements? fields outer

theorem run_fieldMarks : ∀ (fields before : List Field) (outer : List Outer),
    (fieldMarks fields).foldlM turn ⟨.among before none, outer⟩ =
      some ⟨.among (before ++ fields) none, outer⟩
  | [], before, outer => by
    rw [List.append_nil]
    rfl
  | (key, required, t) :: rest, before, outer => by
    rw [fieldMarks, run_line rfl (run_marks t) rfl, run_fieldMarks rest, List.append_assoc]
    rfl

theorem run_elementMarks : ∀ (elements? : Option TypeTree) (fields : List Field)
    (outer : List Outer),
    (elementMarks elements?).foldlM turn ⟨.among fields none, outer⟩ =
      some ⟨.among fields elements?, outer⟩
  | none, _, _ => rfl
  | some t, fields, outer => by
    rw [elementMarks, run_line rfl (run_marks t) rfl]
    rfl

end

/-- From the text of a tree is read what UTF-16 tells of it. -/
theorem parse_text (t : TypeTree) : parse t.text = some t.combined := by
  have hrun := run_marks t.combined []
  unfold parse
  rw [scan_text]
  simp only [Option.bind_eq_bind, Option.bind_some, hrun]
  rfl

/-- Trees have the same text exactly if UTF-16 tells the same of both. -/
theorem text_eq_iff (t u : TypeTree) : t.text = u.text ↔ t.combined = u.combined := by
  constructor
  · intro h
    have hparse := congrArg parse h
    rw [parse_text, parse_text] at hparse
    exact Option.some.inj hparse
  · intro h
    calc t.text = t.combined.text := t.text_combined.symm
      _ = u.combined.text := by rw [h]
      _ = u.text := u.text_combined

end TypeTree

/-! ## Scopes -/

namespace Scope

/-- The type tree that a scope has recorded. -/
def typeTree (s : Scope) : TypeTree := s.view.tree

/-- The steps from the root are the names of slots. -/
theorem steps_view_sublist (s : Scope) :
    s.view.steps.Sublist (s.slots.map fun slot => Step.field slot.1) := by
  unfold view Shape.steps Shape.children
  dsimp only
  induction s.slots with
  | nil => exact .slnil
  | cons slot slots ih =>
    obtain ⟨name, address⟩ := slot
    cases hn : s.shape.at? address with
    | none => simpa [List.filterMap_cons, hn] using ih.cons (Step.field name)
    | some n => simpa [List.filterMap_cons, hn] using ih

/-- Where no name has two slots, no step comes twice in what is seen through them. -/
theorem distinct_view {s : Scope} (hslots : (s.slots.map (·.1)).Nodup)
    (hshape : s.shape.Distinct) : s.view.Distinct := by
  intro a
  cases a with
  | nil =>
    have hnames : ((s.slots.map (·.1)).map Step.field).Nodup :=
      hslots.map fun _ _ h => Step.field.inj h
    rw [List.map_map] at hnames
    exact hnames.sublist s.steps_view_sublist
  | cons step b =>
    rw [Shape.nodeAt_cons]
    cases hchild : s.view.child? step with
    | none =>
      rw [Option.getD_none, Shape.nodeAt_fresh]
      exact List.nodup_nil
    | some n =>
      -- The child is the node at the address of a slot.
      have hmem : (step, n) ∈ s.view.children := mem_of_lookup hchild
      obtain ⟨⟨name, address⟩, -, hslot⟩ := List.mem_filterMap.1 hmem
      obtain ⟨node, hat, he⟩ := Option.map_eq_some_iff.1 hslot
      obtain ⟨-, rfl⟩ := Prod.mk.inj he
      have hnode : node.nodeAt b = s.shape.nodeAt (address ++ b) := by
        rw [Shape.nodeAt_append, s.shape.nodeAt_of_at? hat]
      exact hnode ▸ hshape (address ++ b)

/-- The text of a scope is that of the tree that it has recorded. -/
theorem typeText_run_eq (operations : List Operation) :
    (empty.run operations).typeText = (empty.run operations).typeTree.text := by
  -- That no step comes twice is known from the places of the nodes behind the scope.
  obtain ⟨places, h⟩ := ShapeGraph.exists_unfolds_run operations
  exact (Shape.describe_tree (distinct_view h.distinct h.placed.distinct) "").symm

end Scope

/-! ## Trees told by their texts -/

namespace TypeTree

/-- From the text of a tree in which no key has halves of surrogate pairs side by side the tree is
read back: the fields of every node in their order, each with its key and whether it is required,
which nodes are iterated, and the trees of their elements.  So two such trees that differ have
different texts, and so each key is read back from its JSON string, whatever stands behind it.  In
general two trees have the same text exactly if UTF-16 tells the same of both.  Whatever a scope
records has such a tree, the text of which is that of the scope. -/
theorem text_unambiguous :
    (∀ t : TypeTree, t.Unpaired → parse t.text = some t) ∧
    (∀ t u : TypeTree, t.Unpaired → u.Unpaired → t ≠ u → t.text ≠ u.text) ∧
    (∀ (key : List CodePoint) (rest : List Char), Text.Unpaired key →
      readKey ((encodePoints key).toList ++ rest) = some (key, rest)) ∧
    (∀ t u : TypeTree, t.text = u.text ↔ t.combined = u.combined) ∧
    ∀ operations : List Operation, (Scope.empty.run operations).typeTree.Unpaired ∧
      (Scope.empty.run operations).typeText = (Scope.empty.run operations).typeTree.text := by
  refine ⟨fun t ht => ?read, fun t u ht hu hne htext => ?differ, fun key rest hkey => ?key,
    text_eq_iff, fun operations => ⟨Shape.unpaired_tree _, Scope.typeText_run_eq operations⟩⟩
  case read => rw [parse_text, combined_of_unpaired ht]
  case differ =>
    apply hne
    calc t = t.combined := (combined_of_unpaired ht).symm
      _ = u.combined := (text_eq_iff t u).1 htext
      _ = u := combined_of_unpaired hu
  case key => rw [readKey_encodePoints, Text.combined_of_unpaired hkey]

/-- A field with the name that the elements' line starts with is told from elements, and half of a
pair by itself is read back. -/
theorem text_unambiguous_iter :
    (node [(points "__iter__", false, node [] none)] none).text ≠
      (node [] (some (node [] none))).text ∧
    parse (node [([0xd83d], true, node [] none)] none).text =
      some (node [([0xd83d], true, node [] none)] none) :=
  ⟨text_unambiguous.2.1 _ _ (by decide) (by decide) (by simp),
    text_unambiguous.1 _ (by decide)⟩

/-- The two halves of a pair, as two code points of a key, are written as the character is that they
stand for. -/
theorem not_unambiguous_pair : ¬ ∀ t u : TypeTree, t ≠ u → t.text ≠ u.text := by
  intro h
  have htext : (node [([0xd83d, 0xde00], true, node [] none)] none).text =
      (node [([0x1f600], true, node [] none)] none).text := (text_eq_iff _ _).2 rfl
  exact h _ _ (by simp) htext

end TypeTree
end HtmlTemplate
