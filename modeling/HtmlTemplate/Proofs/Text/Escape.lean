import HtmlTemplate.Value.Text

/-!
# Escape — what an escaped text may contain

An escaped text holds neither angle brackets nor quotes, and an ampersand only where an entity
starts (`Value.inert_escape`), so that it stands for text in every position of markup.
-/

namespace HtmlTemplate
namespace Value

/-- The characters that mean something in markup. -/
def special : List Char := ['&', '<', '>', '"', '\'']

/-- What an ampersand starts in an escaped text. -/
def entities : List String := ["&amp;", "&lt;", "&gt;", "&quot;", "&#39;"]

/-- Whether a text means nothing but text in markup. -/
structure Inert (s : String) : Prop where
  /-- It holds no angle bracket and no quote. -/
  plain : ∀ c ∈ s.toList, c ∉ ['<', '>', '"', '\'']
  /-- Every ampersand starts an entity. -/
  entity : ∀ before after, s.toList = before ++ '&' :: after →
    ∃ e ∈ entities, e.toList <+: '&' :: after

/-- A special character becomes an entity, and every other one stays. -/
theorem escapeChar_cases (c : Char) :
    (escapeChar c = [c] ∧ c ∉ special) ∨
      (c ∈ special ∧ ∃ e ∈ entities, ∃ name, escapeChar c = e.toList ∧ e.toList = '&' :: name ∧
        ∀ d ∈ name, d ∉ special) := by
  by_cases hc : c ∈ special
  · refine Or.inr ⟨hc, ?_⟩
    simp only [special, List.mem_cons, List.not_mem_nil, or_false] at hc
    rcases hc with rfl | rfl | rfl | rfl | rfl
    · exact ⟨"&amp;", by decide, ['a', 'm', 'p', ';'], rfl, rfl, by simp [special]⟩
    · exact ⟨"&lt;", by decide, ['l', 't', ';'], rfl, rfl, by simp [special]⟩
    · exact ⟨"&gt;", by decide, ['g', 't', ';'], rfl, rfl, by simp [special]⟩
    · exact ⟨"&quot;", by decide, ['q', 'u', 'o', 't', ';'], rfl, rfl, by simp [special]⟩
    · exact ⟨"&#39;", by decide, ['#', '3', '9', ';'], rfl, rfl, by simp [special]⟩
  · refine Or.inl ⟨?_, hc⟩
    simp only [special, List.mem_cons, List.not_mem_nil, or_false, not_or] at hc
    unfold escapeChar
    split <;> simp_all

theorem not_mem_special {c : Char} (h : c ∉ special) : c ∉ ['<', '>', '"', '\''] :=
  fun hc => h (List.mem_cons_of_mem _ hc)

theorem escape_plain (cs : List Char) :
    ∀ c ∈ cs.flatMap escapeChar, c ∉ ['<', '>', '"', '\''] := by
  intro c hc
  obtain ⟨d, -, hcd⟩ := List.mem_flatMap.1 hc
  rcases escapeChar_cases d with ⟨he, hd⟩ | ⟨-, e, -, name, he, hname, hplain⟩
  · rw [he] at hcd
    rw [List.mem_singleton.1 hcd]
    exact not_mem_special hd
  · rw [he, hname] at hcd
    rcases List.mem_cons.1 hcd with rfl | hcd
    · decide
    · exact not_mem_special (hplain c hcd)

theorem escape_entity (cs : List Char) : ∀ before after,
    cs.flatMap escapeChar = before ++ '&' :: after →
      ∃ e ∈ entities, e.toList <+: '&' :: after := by
  induction cs with
  | nil =>
    intro before after h
    exact absurd h.symm (by simp)
  | cons c cs ih =>
    intro before after h
    rw [List.flatMap_cons] at h
    rcases List.append_eq_append_iff.1 h with ⟨between, -, hrest⟩ | ⟨between, hchar, hrest⟩
    · exact ih between after hrest
    · -- The ampersand stands among the characters of the first one's escape, or right after them.
      cases between with
      | nil => exact ih [] after hrest.symm
      | cons d between =>
        obtain ⟨rfl, hafter⟩ := List.cons.inj hrest
        rcases escapeChar_cases c with ⟨he, hc⟩ | ⟨-, e, hmem, name, he, hname, hplain⟩
        · have hamp : '&' ∈ [c] := by
            rw [← he, hchar]
            simp
          rw [← List.mem_singleton.1 hamp] at hc
          exact absurd (by decide) hc
        · rw [he, hname] at hchar
          cases before with
          | nil =>
            refine ⟨e, hmem, cs.flatMap escapeChar, ?_⟩
            rw [hname, (List.cons.inj hchar).2, hafter]
            rfl
          | cons b before =>
            have hamp : '&' ∈ name := by
              rw [(List.cons.inj hchar).2]
              simp
            exact absurd (by decide) (hplain '&' hamp)

/-- An escaped text means nothing but text in markup. -/
theorem inert_escape (s : String) : Inert (escape s) where
  plain := by
    unfold escape
    rw [String.toList_ofList]
    exact escape_plain s.toList
  entity := by
    unfold escape
    rw [String.toList_ofList]
    exact escape_entity s.toList

end Value
end HtmlTemplate
