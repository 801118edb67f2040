import HtmlTemplate.Proofs.Template.Generation

/-!
# Spelling — which texts are paths and bindings

The checks of paths and bindings accept exactly the texts of a certain form: a path is one or more
segments with dots between them and does not start with a digit (`Path.check_eq_ok_iff`), and a
binding is a single such segment other than the name of the context (`Binding.isOk_check_iff`).
-/

namespace HtmlTemplate

open Text

namespace Path

/-- A segment consists of ASCII letters, digits, `_` and `$`, and is not empty. -/
def Segment (segment : String) : Prop :=
  segment ≠ "" ∧ ∀ c ∈ segment.toList, c.isAlphanum = true ∨ c = '_' ∨ c = '$'

/-- Whether a text does not start with a digit. -/
def StartsProperly (text : String) : Prop := ∀ c ∈ text.toList.head?, c.isDigit = false

/-- A path is a sequence of segments with dots between them, and does not start with a digit. -/
structure WellSpelled (path : String) : Prop where
  segments : ∃ segments, segments ≠ [] ∧ (∀ segment ∈ segments, Segment segment) ∧
    path = ".".intercalate segments
  start : StartsProperly path

/-! ## Characters -/

theorem isNameChar_iff {c : Char} :
    isNameChar c = true ↔ c.isAlphanum = true ∨ c = '_' ∨ c = '$' := by
  simp [isNameChar, isWordChar, or_assoc]

/-- Letters come after the digits. -/
theorem isDigit_of_isAlpha {c : Char} (h : c.isAlpha = true) : c.isDigit = false := by
  rw [Bool.eq_false_iff]
  intro hdigit
  have hhigh : c.val ≤ '9'.val := of_decide_eq_true (Bool.and_eq_true_iff.1 hdigit).2
  rcases Bool.or_eq_true_iff.1 h with hupper | hlower
  · have hlow : 'A'.val ≤ c.val := (of_decide_eq_true hupper).1
    exact absurd (UInt32.le_trans hlow hhigh) (by decide)
  · have hlow : 'a'.val ≤ c.val := of_decide_eq_true (Bool.and_eq_true_iff.1 hlower).1
    exact absurd (UInt32.le_trans hlow hhigh) (by decide)

theorem startsName_iff {c : Char} :
    startsName c = true ↔ isNameChar c = true ∧ c.isDigit = false := by
  rw [isNameChar_iff]
  unfold startsName Char.isAlphanum
  constructor
  · intro h
    simp only [Bool.or_eq_true, beq_iff_eq] at h
    rcases h with (halpha | rfl) | rfl
    · exact ⟨Or.inl (by rw [halpha, Bool.true_or]), isDigit_of_isAlpha halpha⟩
    · exact ⟨Or.inr (Or.inr rfl), by decide⟩
    · exact ⟨Or.inr (Or.inl rfl), by decide⟩
  · rintro ⟨h, hdigit⟩
    rw [hdigit, Bool.or_false] at h
    rcases h with h | rfl | rfl
    · simp [h]
    · rfl
    · rfl

theorem isSegment_iff {cs : List Char} : isSegment cs = true ↔ Segment (String.ofList cs) := by
  unfold isSegment Segment
  rw [Bool.and_eq_true, List.all_eq_true, String.toList_ofList]
  simp only [isNameChar_iff, Bool.not_eq_true', List.isEmpty_eq_false_iff, ne_eq,
    String.ofList_eq_empty_iff]

/-! ## Segments -/

/-- The texts between the dots are what comes of splitting at dots. -/
theorem split_eq_splitOn (cs : List Char) : split cs = cs.splitOn '.' := by
  induction cs with
  | nil => rfl
  | cons c cs ih =>
    unfold List.splitOn at ih ⊢
    rw [split, List.splitOnP_cons_eq_if_modifyHead, ← ih]
    split
    · rfl
    · cases hcs : split cs with
      | nil => exact absurd hcs (split_ne_nil cs)
      | cons segment rest => rfl

/-- A path is its segments with dots between them. -/
theorem intercalate_segments (path : String) : ".".intercalate (segments path) = path := by
  apply String.toList_inj.1
  unfold segments
  rw [String.toList_intercalate, List.map_map, split_eq_splitOn]
  have hid : String.toList ∘ String.ofList = id := funext fun cs => String.toList_ofList
  rw [hid, List.map_id]
  exact List.intercalate_splitOn '.'

/-- Segments can be told apart by the dots between them. -/
theorem segments_intercalate {texts : List String} (hne : texts ≠ [])
    (htexts : ∀ text ∈ texts, Segment text) : segments (".".intercalate texts) = texts := by
  have hdot : ∀ cs ∈ texts.map String.toList, '.' ∉ cs := by
    intro cs hcs hmem
    obtain ⟨text, ht, rfl⟩ := List.mem_map.1 hcs
    rcases (htexts text ht).2 '.' hmem with h | h | h
    · exact absurd h (by decide)
    · cases h
    · cases h
  unfold segments
  rw [split_eq_splitOn, String.toList_intercalate]
  have hsplit := List.splitOn_intercalate '.' hdot (by simpa using hne)
  exact (congrArg (List.map String.ofList) hsplit).trans (by simp)

theorem WellSpelled.segment {path : String} (h : WellSpelled path) :
    ∀ segment ∈ Path.segments path, Segment segment := by
  obtain ⟨⟨texts, hne, htexts, rfl⟩, -⟩ := h
  rwa [segments_intercalate hne htexts]

theorem WellSpelled.ne_empty {path : String} (h : WellSpelled path) : path ≠ "" := by
  rintro rfl
  exact absurd rfl (h.segment "" (List.mem_singleton_self _)).1

/-- A path starts like its first segment. -/
theorem head_of_segments {path : String} (h : ∀ segment ∈ segments path, Segment segment) :
    ∃ c ∈ path.toList.head?, isNameChar c = true := by
  have hsplit : ∀ cs ∈ split path.toList, Segment (String.ofList cs) :=
    fun cs hcs => h _ (List.mem_map_of_mem hcs)
  cases hp : path.toList with
  | nil =>
    rw [hp] at hsplit
    exact absurd rfl (hsplit [] List.mem_cons_self).1
  | cons c cs =>
    rw [hp] at hsplit
    refine ⟨c, rfl, ?_⟩
    by_cases hdot : c = '.'
    · -- A dot in front would leave the first segment empty.
      subst hdot
      exact absurd rfl (hsplit [] List.mem_cons_self).1
    · obtain ⟨segment, hs, hmem⟩ := mem_split List.mem_cons_self hdot
      have hsegment := (hsplit segment hs).2 c (by rwa [String.toList_ofList])
      exact isNameChar_iff.2 hsegment

/-- The check of paths accepts what is spelled like a path. -/
theorem check_eq_ok_iff {path : String} : check path = .ok () ↔ WellSpelled path := by
  have hall : (split path.toList).all isSegment = true ↔
      ∀ segment ∈ segments path, Segment segment := by
    simp only [List.all_eq_true, isSegment_iff, segments, List.forall_mem_map]
  constructor
  · intro h
    unfold check at h
    split at h
    · cases h
    · rename_i hstart
      split at h
      · cases h
      · rename_i hsegments
        simp only [Bool.not_eq_true', Bool.not_eq_false, Option.any_eq_true] at hstart hsegments
        obtain ⟨c, hc, hname⟩ := hstart
        refine ⟨⟨segments path, segments_ne_nil path, hall.1 hsegments,
          (intercalate_segments path).symm⟩, ?_⟩
        intro d hd
        obtain rfl : c = d := Option.some.inj (hc.symm.trans hd)
        exact (startsName_iff.1 hname).2
  · rintro ⟨⟨texts, hne, htexts, rfl⟩, hstart⟩
    have hsegments := segments_intercalate hne htexts
    rw [← hsegments] at htexts
    obtain ⟨c, hc, hname⟩ := head_of_segments htexts
    have hany : (".".intercalate texts).toList.head?.any startsName = true := by
      rw [hc]
      exact startsName_iff.2 ⟨hname, hstart c hc⟩
    unfold check
    rw [hany, hall.2 htexts]
    rfl

end Path

namespace Binding

open HtmlTemplate.Path

/-- A binding is a segment that does not start with a digit and is not the name of the context. -/
structure WellSpelled (contextName b : String) : Prop where
  segment : Segment b
  start : StartsProperly b
  other : b ≠ contextName

theorem isName_iff {b : String} :
    Path.isName b.toList = true ↔ Segment b ∧ StartsProperly b := by
  unfold Segment StartsProperly
  cases hb : b.toList with
  | nil =>
    obtain rfl : b = "" := String.toList_inj.1 hb
    simp [Path.isName]
  | cons c cs =>
    have hne : b ≠ "" := by
      rintro rfl
      cases hb
    simp only [Path.isName, Bool.and_eq_true, startsName_iff, List.all_eq_true, isNameChar_iff,
      List.forall_mem_cons, ne_eq, hne, not_false_eq_true, true_and, List.head?_cons,
      Option.mem_some_iff, forall_eq']
    exact and_right_comm

/-- The variable of a name may be used. -/
theorem isIdentifier_variableOf {b : String} (h : Path.isName b.toList = true) :
    isIdentifier (variableOf b) = true := by
  unfold isIdentifier variableOf
  rw [String.toList_ofList, isIdentifierText, Bool.and_eq_true, List.all_eq_true]
  refine ⟨by decide, ?_⟩
  intro d hd
  obtain ⟨c, hc, hdc⟩ := List.mem_flatMap.1 hd
  have hname := isNameChar_of_isName h c hc
  have hascii := isNameChar_ascii hname
  rcases encodeChar_cases c with rfl | rfl | ⟨-, he⟩
  · have hword : (encodeChar '_').all continuesIdentifier = true := by decide
    exact List.all_eq_true.1 hword d hdc
  · have hword : (encodeChar '$').all continuesIdentifier = true := by decide
    exact List.all_eq_true.1 hword d hdc
  · rw [he, List.mem_singleton] at hdc
    subst hdc
    unfold continuesIdentifier isWordChar
    rw [if_pos hascii]
    rcases isNameChar_iff.1 hname with h | rfl | rfl
    · rw [h, Bool.true_or]
    · rfl
    · -- A dollar does not stay as it is.
      cases he

/-- The check of bindings accepts what is spelled like a binding. -/
theorem isOk_check_iff {contextName b : String} :
    (check contextName b).isOk = true ↔ WellSpelled contextName b := by
  constructor
  · intro h
    cases hc : check contextName b with
    | error fault =>
      rw [hc] at h
      cases h
    | ok w =>
      obtain ⟨-, hname, hne, -⟩ := check_ok hc
      obtain ⟨hsegment, hstart⟩ := isName_iff.1 hname
      exact ⟨hsegment, hstart, hne⟩
  · rintro ⟨hsegment, hstart, hne⟩
    have hname := isName_iff.2 ⟨hsegment, hstart⟩
    have hdot : b.toList.contains '.' = false := by
      rw [List.contains_eq_mem, decide_eq_false_iff_not]
      intro hmem
      exact absurd (isNameChar_of_isName hname '.' hmem) (by decide)
    unfold check
    rw [hdot, hname, if_neg hne, isIdentifier_variableOf hname]
    rfl

end Binding
end HtmlTemplate
