import HtmlTemplate.Proofs.Shape.Label
import HtmlTemplate.Proofs.Text.Key

/-!
# Tree — the tree that a type description is written for

A type tree has at each node the fields in their order, each with its key and whether it is
required, and what the elements are if the node is iterated.  Keys are any sequences of code points.
A shape in which no step comes twice at a node has a tree of the same text (`Shape.describe_tree`);
its keys are texts, in which no two halves of a surrogate pair stand side by side
(`Shape.unpaired_tree`).
-/

namespace HtmlTemplate

open Text

/-- A node of a type: its fields, each with its key and whether it is required, and its elements. -/
inductive TypeTree where
  | node (fields : List (List CodePoint × Bool × TypeTree)) (elements? : Option TypeTree)

namespace TypeTree

/-- A field: its key, whether it is required, and its node. -/
abbrev Field := List CodePoint × Bool × TypeTree

/-! ## Text -/

/-- The line of a field. -/
def fieldLine (indent : String) (key : List CodePoint) (required : Bool) (text : String) : String :=
  indent ++ encodePoints key ++ ": " ++ (if required then "Required" else "NotRequired") ++
    "[" ++ text ++ "],\n"

mutual

/-- The text of a node: its fields, and then its elements. -/
def describe (indent : String) : TypeTree → String
  | node fields elements? =>
    Shape.bracket indent
      (fieldLines (indent ++ Shape.margin) fields ++
        elementLines (indent ++ Shape.margin) elements?)

def fieldLines (indent : String) : List Field → List String
  | [] => []
  | (key, required, t) :: rest =>
    fieldLine indent key required (describe indent t) :: fieldLines indent rest

def elementLines (indent : String) : Option TypeTree → List String
  | none => []
  | some t => [Shape.elementLine indent (describe indent t)]

end

/-- The text of a whole tree. -/
def text (t : TypeTree) : String := describe "" t

/-! ## Keys -/

mutual

/-- The keys of all fields of a tree, those of its elements included. -/
def keys : TypeTree → List (List CodePoint)
  | node fields elements? => keysIn fields ++ keysOf elements?

def keysIn : List Field → List (List CodePoint)
  | [] => []
  | (key, _, t) :: rest => key :: (keys t ++ keysIn rest)

def keysOf : Option TypeTree → List (List CodePoint)
  | none => []
  | some t => keys t

end

mutual

/-- Changes all keys of a tree. -/
def mapKeys (f : List CodePoint → List CodePoint) : TypeTree → TypeTree
  | node fields elements? => node (mapKeysIn f fields) (mapKeysOf f elements?)

def mapKeysIn (f : List CodePoint → List CodePoint) :
    List Field → List Field
  | [] => []
  | (key, required, t) :: rest => (f key, required, mapKeys f t) :: mapKeysIn f rest

def mapKeysOf (f : List CodePoint → List CodePoint) : Option TypeTree → Option TypeTree
  | none => none
  | some t => some (mapKeys f t)

end

/-- What UTF-16 tells of a tree. -/
def combined (t : TypeTree) : TypeTree := t.mapKeys Text.combined

/-- Whether in no key a high half stands directly before a low one. -/
def Unpaired (t : TypeTree) : Prop := ∀ key ∈ t.keys, Text.Unpaired key

instance (t : TypeTree) : Decidable t.Unpaired :=
  inferInstanceAs (Decidable (∀ key ∈ t.keys, Text.Unpaired key))

section Keys

variable {f : List CodePoint → List CodePoint}

mutual

theorem mapKeys_eq_self : ∀ {t : TypeTree}, (∀ key ∈ t.keys, f key = key) → t.mapKeys f = t
  | node fields elements?, h => by
    rw [keys, List.forall_mem_append] at h
    rw [mapKeys, mapKeysIn_eq_self h.1, mapKeysOf_eq_self h.2]

theorem mapKeysIn_eq_self : ∀ {fields : List Field},
    (∀ key ∈ keysIn fields, f key = key) → mapKeysIn f fields = fields
  | [], _ => rfl
  | (key, required, t) :: rest, h => by
    rw [keysIn, List.forall_mem_cons, List.forall_mem_append] at h
    rw [mapKeysIn, h.1, mapKeys_eq_self h.2.1, mapKeysIn_eq_self h.2.2]

theorem mapKeysOf_eq_self : ∀ {elements? : Option TypeTree},
    (∀ key ∈ keysOf elements?, f key = key) → mapKeysOf f elements? = elements?
  | none, _ => rfl
  | some t, h => by rw [mapKeysOf, mapKeys_eq_self h]

end

/-- UTF-16 tells all of a tree in which it tells all of the keys. -/
theorem combined_of_unpaired {t : TypeTree} (h : t.Unpaired) : t.combined = t :=
  mapKeys_eq_self fun key hkey => Text.combined_of_unpaired (h key hkey)

mutual

/-- A change of keys that does not show in them does not show in the text. -/
theorem describe_mapKeys (hf : ∀ key, encodePoints (f key) = encodePoints key) :
    ∀ (t : TypeTree) (indent : String), (t.mapKeys f).describe indent = t.describe indent
  | node fields elements?, indent => by
    rw [mapKeys, describe, fieldLines_mapKeysIn hf fields, elementLines_mapKeysOf hf elements?,
      describe]

theorem fieldLines_mapKeysIn (hf : ∀ key, encodePoints (f key) = encodePoints key) :
    ∀ (fields : List Field)
    (indent : String), fieldLines indent (mapKeysIn f fields) = fieldLines indent fields
  | [], _ => rfl
  | (key, required, t) :: rest, indent => by
    rw [mapKeysIn, fieldLines, fieldLine, hf, describe_mapKeys hf t, fieldLines_mapKeysIn hf rest,
      fieldLines, fieldLine]

theorem elementLines_mapKeysOf (hf : ∀ key, encodePoints (f key) = encodePoints key) :
    ∀ (elements? : Option TypeTree) (indent : String),
    elementLines indent (mapKeysOf f elements?) = elementLines indent elements?
  | none, _ => rfl
  | some t, indent => by rw [mapKeysOf, elementLines, describe_mapKeys hf t, elementLines]

end

theorem text_combined (t : TypeTree) : t.combined.text = t.text :=
  describe_mapKeys encodePoints_combined t ""

end Keys

end TypeTree

/-! ## The tree of a shape -/

namespace Shape

mutual

/-- The tree of a shape. -/
def tree : Shape → TypeTree
  | node _ _ c => .node (treeFields c) (treeElements? c)

def treeFields : List (Step × Shape) → List TypeTree.Field
  | [] => []
  | (.field name, s) :: rest => (points name, s.required, tree s) :: treeFields rest
  | (.element, _) :: rest => treeFields rest

def treeElements? : List (Step × Shape) → Option TypeTree
  | [] => none
  | (.field _, _) :: rest => treeElements? rest
  | (.element, s) :: _ => some (tree s)

end

mutual

/-- All keys of a shape's tree are texts. -/
theorem unpaired_tree : ∀ s : Shape, s.tree.Unpaired
  | node _ _ c => by
    rw [tree, TypeTree.Unpaired, TypeTree.keys, List.forall_mem_append]
    exact ⟨unpaired_treeFields c, unpaired_treeElements? c⟩

theorem unpaired_treeFields : ∀ c : List (Step × Shape),
    ∀ key ∈ TypeTree.keysIn (treeFields c), Unpaired key
  | [] => List.forall_mem_nil _
  | (.field name, s) :: rest => by
    rw [treeFields, TypeTree.keysIn, List.forall_mem_cons, List.forall_mem_append]
    exact ⟨unpaired_points name, unpaired_tree s, unpaired_treeFields rest⟩
  | (.element, _) :: rest => unpaired_treeFields rest

theorem unpaired_treeElements? : ∀ c : List (Step × Shape),
    ∀ key ∈ TypeTree.keysOf (treeElements? c), Unpaired key
  | [] => List.forall_mem_nil _
  | (.field _, _) :: rest => unpaired_treeElements? rest
  | (.element, s) :: _ => unpaired_tree s

end

/-- Whether no step comes twice at any node of a shape. -/
def Distinct (s : Shape) : Prop := ∀ a, (s.nodeAt a).steps.Nodup

theorem Distinct.child {r : Bool} {b : Nat} {c : List (Step × Shape)}
    (h : (node r b c).Distinct) {step : Step} {s : Shape} (hs : (step, s) ∈ c) : s.Distinct := by
  intro a
  have hchild : (node r b c).child? step = some s := lookup_of_mem (h []) hs
  have hnode : (node r b c).nodeAt (step :: a) = s.nodeAt a := by
    rw [nodeAt_cons, hchild, Option.getD_some]
  exact hnode ▸ h (step :: a)

mutual

/-- The text of a shape is that of its tree. -/
theorem describe_tree : ∀ {s : Shape}, s.Distinct → ∀ indent : String,
    s.tree.describe indent = describe indent s
  | node r b c, h, indent => by
    have hchildren : ∀ entry ∈ c, entry.2.Distinct := fun _ hentry => h.child hentry
    rw [tree, TypeTree.describe, describe, fieldLines_treeFields hchildren,
      elementLines_treeElements? hchildren (h [])]

theorem fieldLines_treeFields : ∀ {c : List (Step × Shape)}, (∀ entry ∈ c, entry.2.Distinct) →
    ∀ indent : String, TypeTree.fieldLines indent (treeFields c) = fieldLines indent c
  | [], _, _ => rfl
  | (.field name, s) :: rest, h, indent => by
    obtain ⟨hs, hrest⟩ := List.forall_mem_cons.1 h
    rw [treeFields, TypeTree.fieldLines, TypeTree.fieldLine, ← encodeKey_eq, describe_tree hs,
      fieldLines_treeFields hrest, fieldLines, fieldLine]
  | (.element, s) :: rest, h, indent =>
    fieldLines_treeFields (List.forall_mem_cons.1 h).2 indent

theorem elementLines_treeElements? : ∀ {c : List (Step × Shape)},
    (∀ entry ∈ c, entry.2.Distinct) → (c.map (·.1)).Nodup →
    ∀ indent : String, TypeTree.elementLines indent (treeElements? c) = elementLines indent c
  | [], _, _, _ => rfl
  | (.field _, _) :: rest, h, hnodup, indent =>
    elementLines_treeElements? (List.forall_mem_cons.1 h).2 (List.nodup_cons.1 hnodup).2 indent
  | (.element, s) :: rest, h, hnodup, indent => by
    -- No other line of elements can follow.
    have hnone : rest.lookup .element = none :=
      List.lookup_eq_none_iff.2 fun entry hentry => bne_iff_ne.2 fun he =>
        (List.nodup_cons.1 hnodup).1 (List.mem_map.2 ⟨entry, hentry, he.symm⟩)
    rw [treeElements?, TypeTree.elementLines, describe_tree (List.forall_mem_cons.1 h).1,
      elementLines, elementLines_of_lookup indent hnone]

end

end Shape
end HtmlTemplate
