import HtmlTemplate.Proofs.Text.Escape
import Mathlib.Data.List.Basic

/-!
# Entity — escaping by replacements, and back

Characters are replaced one after another, each in the whole of a text, or all of them at once.
Both come to the same if no replacement brings in a character that is replaced after it
(`replaceAll_eq_flatMap`), which is why the ampersand goes first.  Reading entities as the
characters that they stand for gives back what was escaped (`unescape_escape`).
-/

namespace HtmlTemplate
namespace Value

/-! ## Replacements -/

/-- Characters, each with what is put in its place, in the order of the replacements. -/
abbrev Replacements := List (Char × List Char)

/-- A text with another one in the place of every occurrence of a character. -/
def replaceChar (old : Char) (new : List Char) : List Char → List Char
  | [] => []
  | c :: cs => (if c = old then new else [c]) ++ replaceChar old new cs

/-- A text after replacements in the whole of it, one after another. -/
def replaceAll (table : Replacements) (text : List Char) : List Char :=
  table.foldl (fun text entry => replaceChar entry.1 entry.2 text) text

/-- What is put in the place of a single character. -/
def replacement (table : Replacements) (c : Char) : List Char := (table.lookup c).getD [c]

theorem replaceChar_eq_flatMap (old : Char) (new text : List Char) :
    replaceChar old new text = text.flatMap fun c => if c = old then new else [c] := by
  induction text with
  | nil => rfl
  | cons c cs ih => rw [replaceChar, ih, List.flatMap_cons]

theorem replacement_cons (old : Char) (new : List Char) (table : Replacements) (c : Char) :
    replacement ((old, new) :: table) c = if c = old then new else replacement table c := by
  unfold replacement
  by_cases h : c = old
  · rw [if_pos h, List.lookup_cons, beq_iff_eq.2 h]
    rfl
  · rw [if_neg h, List.lookup_cons, beq_false_of_ne h]

/-- A text without the characters that are replaced stays. -/
theorem flatMap_replacement {table : Replacements} {text : List Char}
    (h : ∀ entry ∈ table, entry.1 ∉ text) : text.flatMap (replacement table) = text := by
  induction table with
  | nil => exact List.flatMap_singleton' text
  | cons entry table ih =>
    obtain ⟨hentry, htable⟩ := List.forall_mem_cons.1 h
    have hsame : ∀ c ∈ text, replacement (entry :: table) c = replacement table c := by
      intro c hc
      rw [replacement_cons, if_neg fun he : c = entry.1 => hentry (he ▸ hc)]
    rw [List.flatMap_congr hsame, ih htable]

/-- Replacements one after another are replacements at once, if none brings in a character that
is replaced after it. -/
theorem replaceAll_eq_flatMap {table : Replacements}
    (h : table.Pairwise fun earlier later => later.1 ∉ earlier.2) (text : List Char) :
    replaceAll table text = text.flatMap (replacement table) := by
  induction table generalizing text with
  | nil => exact (List.flatMap_singleton' text).symm
  | cons entry table ih =>
    obtain ⟨old, new⟩ := entry
    obtain ⟨hnew, htable⟩ := List.pairwise_cons.1 h
    calc replaceAll ((old, new) :: table) text
        = replaceAll table (replaceChar old new text) := rfl
      _ = (replaceChar old new text).flatMap (replacement table) := ih htable _
      _ = text.flatMap fun c =>
            (if c = old then new else [c]).flatMap (replacement table) := by
          rw [replaceChar_eq_flatMap, List.flatMap_assoc]
      _ = text.flatMap (replacement ((old, new) :: table)) := by
          refine List.flatMap_congr fun c _ => ?_
          rw [replacement_cons]
          split
          · -- What has been put in is left alone by the replacements after it.
            exact flatMap_replacement hnew
          · exact List.flatMap_singleton ..

/-! ## Entities -/

/-- What stands for the special characters.  The ampersand is the first one, since it stands in
every entity. -/
def entityTable : Replacements :=
  [('&', "&amp;".toList), ('<', "&lt;".toList), ('>', "&gt;".toList), ('"', "&quot;".toList),
    ('\'', "&#39;".toList)]

theorem escapeChar_of_not_mem {c : Char} (h : c ∉ special) : escapeChar c = [c] := by
  rcases escapeChar_cases c with ⟨he, -⟩ | ⟨hspecial, -⟩
  · exact he
  · exact absurd hspecial h

theorem replacement_entityTable : replacement entityTable = escapeChar := by
  funext c
  unfold entityTable
  simp only [replacement_cons]
  by_cases hc : c ∈ special
  · simp only [special, List.mem_cons, List.not_mem_nil, or_false] at hc
    rcases hc with rfl | rfl | rfl | rfl | rfl <;> rfl
  · have hplain : escapeChar c = [c] := escapeChar_of_not_mem hc
    simp only [special, List.mem_cons, List.not_mem_nil, or_false, not_or] at hc
    obtain ⟨hamp, hlt, hgt, hquot, hapos⟩ := hc
    rw [hplain, if_neg hamp, if_neg hlt, if_neg hgt, if_neg hquot, if_neg hapos]
    rfl

/-- No entity holds a character that is replaced after it was put in. -/
theorem entityTable_pairwise : entityTable.Pairwise fun earlier later => later.1 ∉ earlier.2 := by
  decide

/-- An escaped text is made by replacements one after another. -/
theorem toList_escape (s : String) : (escape s).toList = replaceAll entityTable s.toList := by
  unfold escape
  rw [String.toList_ofList, replaceAll_eq_flatMap entityTable_pairwise, replacement_entityTable]

/-- In another order, the ampersands of entities are replaced in turn. -/
example : replaceAll entityTable.reverse ['<'] = "&amp;lt;".toList := by decide

theorem escape_append (s t : String) : escape (s ++ t) = escape s ++ escape t := by
  unfold escape
  rw [String.toList_append, List.flatMap_append, String.ofList_append]

/-! ## Back -/

/-- The characters of a text with the entities read as the characters that they stand for. -/
def unescapeChars : List Char → List Char
  | '&' :: 'a' :: 'm' :: 'p' :: ';' :: rest => '&' :: unescapeChars rest
  | '&' :: 'l' :: 't' :: ';' :: rest => '<' :: unescapeChars rest
  | '&' :: 'g' :: 't' :: ';' :: rest => '>' :: unescapeChars rest
  | '&' :: 'q' :: 'u' :: 'o' :: 't' :: ';' :: rest => '"' :: unescapeChars rest
  | '&' :: '#' :: '3' :: '9' :: ';' :: rest => '\'' :: unescapeChars rest
  | c :: rest => c :: unescapeChars rest
  | [] => []

/-- The text that some markup without tags shows. -/
def unescape (s : String) : String := String.ofList (unescapeChars s.toList)

theorem unescapeChars_cons {c : Char} (h : c ≠ '&') (rest : List Char) :
    unescapeChars (c :: rest) = c :: unescapeChars rest := by
  rw [unescapeChars] <;> simp [h]

/-- What stands for a character is read as that character, in front of any text. -/
theorem unescapeChars_escapeChar (c : Char) (rest : List Char) :
    unescapeChars (escapeChar c ++ rest) = c :: unescapeChars rest := by
  by_cases hc : c ∈ special
  · simp only [special, List.mem_cons, List.not_mem_nil, or_false] at hc
    rcases hc with rfl | rfl | rfl | rfl | rfl <;> rfl
  · rw [escapeChar_of_not_mem hc]
    exact unescapeChars_cons (fun h : c = '&' => hc (h ▸ List.mem_cons_self)) rest

/-- Markup that is made from a text shows that text. -/
theorem unescape_escape (s : String) : unescape (escape s) = s := by
  have hchars : ∀ cs : List Char, unescapeChars (cs.flatMap escapeChar) = cs := by
    intro cs
    induction cs with
    | nil => rfl
    | cons c cs ih => rw [List.flatMap_cons, unescapeChars_escapeChar, ih]
  unfold unescape escape
  rw [String.toList_ofList, hchars, String.ofList_toList]

theorem escape_injective : Function.Injective escape :=
  Function.LeftInverse.injective unescape_escape

end Value
end HtmlTemplate
