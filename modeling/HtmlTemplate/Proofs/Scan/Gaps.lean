import HtmlTemplate.Proofs.Scan.Joining
import Mathlib.Data.List.Chain

/-!
# Gaps — the literal text between parts

Parts that are no literal text leave gaps before, between and behind them, and all that literal
texts say is what stands in each gap.  Joining neighbouring texts keeps both
(`Part.gaps_coalesceFrom`, `Part.others_coalesceFrom`), and what comes of it is told by them alone
(`Part.coalesceFrom_eq_weave`).
-/

namespace HtmlTemplate
namespace Part

/-- The text of a part that is literal text. -/
def rawText : Part → String
  | raw text => text
  | _ => ""

/-- The parts that are no literal text. -/
def others (ps : List Part) : List Part := ps.filter (!·.isRaw)

/-- The literal text in each of the gaps: before the parts that are no literal text, between any two
of them, and behind them. -/
def gaps (ps : List Part) : List String :=
  (ps.splitOnP (!·.isRaw)).map fun raws => String.join (raws.map rawText)

/-- Parts with a text in each of the gaps, where there is one. -/
def weave : List String → List Part → List Part
  | [], _ => []
  | text :: _, [] => if text.isEmpty then [] else [raw text]
  | text :: texts, part :: parts =>
    if text.isEmpty then part :: weave texts parts else raw text :: part :: weave texts parts

variable {part : Part}

/-! ## Part by part -/

theorem gaps_nil : gaps [] = [""] := rfl

theorem gaps_raw (text : String) (ps : List Part) :
    gaps (raw text :: ps) = (gaps ps).modifyHead (text ++ ·) := by
  have hsplit : (raw text :: ps).splitOnP (!·.isRaw) =
      (ps.splitOnP (!·.isRaw)).modifyHead (raw text :: ·) := List.splitOnP_cons_eq_if_modifyHead _ _
  unfold gaps
  rw [hsplit]
  cases ps.splitOnP (!·.isRaw) with
  | nil => rfl
  | cons raws rest =>
    simp only [List.modifyHead_cons, List.map_cons, rawText, String.join_cons]

theorem gaps_of_not_raw (h : part.isRaw = false) (ps : List Part) :
    gaps (part :: ps) = "" :: gaps ps := by
  have hsplit : (part :: ps).splitOnP (!·.isRaw) = [] :: ps.splitOnP (!·.isRaw) := by
    rw [List.splitOnP_cons_eq_if_modifyHead, if_pos (by simp [h])]
  unfold gaps
  rw [hsplit]
  rfl

theorem others_raw (text : String) (ps : List Part) : others (raw text :: ps) = others ps := rfl

theorem others_of_not_raw (h : part.isRaw = false) (ps : List Part) :
    others (part :: ps) = part :: others ps := List.filter_cons_of_pos (by simp [h])

/-- There is a gap in front of all parts. -/
theorem exists_gaps (ps : List Part) : ∃ text texts, gaps ps = text :: texts := by
  cases ps with
  | nil => exact ⟨_, _, gaps_nil⟩
  | cons first ps =>
    cases h : gaps (first :: ps) with
    | nil => exact absurd (List.map_eq_nil_iff.1 h) (List.splitOnP_ne_nil _ _)
    | cons text texts => exact ⟨text, texts, rfl⟩

theorem modifyHead_gaps_empty (ps : List Part) : (gaps ps).modifyHead ("" ++ ·) = gaps ps := by
  obtain ⟨text, texts, h⟩ := exists_gaps ps
  rw [h, List.modifyHead_cons, String.empty_append]

/-- Text in front of parts goes into their first gap, however it is cut. -/
theorem modifyHead_gaps_raw (pending text : String) (ps : List Part) :
    (gaps (raw text :: ps)).modifyHead (pending ++ ·) =
      (gaps ps).modifyHead (pending ++ text ++ ·) := by
  obtain ⟨first, texts, h⟩ := exists_gaps ps
  rw [gaps_raw, h, List.modifyHead_cons, List.modifyHead_cons, List.modifyHead_cons,
    String.append_assoc]

theorem modifyHead_gaps_of_not_raw (h : part.isRaw = false) (pending : String) (ps : List Part) :
    (gaps (part :: ps)).modifyHead (pending ++ ·) = pending :: gaps ps := by
  rw [gaps_of_not_raw h, List.modifyHead_cons, String.append_empty]

/-! ## Joined texts -/

/-- Joining texts comes to the same parts with the text of each gap between them. -/
theorem coalesceFrom_eq_weave (pending : String) (ps : List Part) :
    coalesceFrom pending ps = weave ((gaps ps).modifyHead (pending ++ ·)) (others ps) := by
  induction pending, ps using raw_induction with
  | nil pending =>
    rw [gaps_nil, List.modifyHead_cons, String.append_empty]
    rfl
  | raw pending text ps ih =>
    rw [modifyHead_gaps_raw, others_raw]
    exact ih
  | part pending part ps h ih =>
    rw [modifyHead_gaps_empty] at ih
    rw [coalesceFrom_of_not_raw h, modifyHead_gaps_of_not_raw h, others_of_not_raw h, weave, ih]

theorem others_coalesceFrom (pending : String) (ps : List Part) :
    others (coalesceFrom pending ps) = others ps := by
  induction pending, ps using raw_induction with
  | nil pending =>
    rw [coalesceFrom]
    split <;> rfl
  | raw pending text ps ih => exact ih
  | part pending part ps h ih =>
    rw [coalesceFrom_of_not_raw h, others_of_not_raw h, ← ih]
    split
    · exact others_of_not_raw h _
    · rw [others_raw, others_of_not_raw h]

theorem gaps_coalesceFrom (pending : String) (ps : List Part) :
    gaps (coalesceFrom pending ps) = (gaps ps).modifyHead (pending ++ ·) := by
  induction pending, ps using raw_induction with
  | nil pending =>
    rw [gaps_nil, List.modifyHead_cons, String.append_empty, coalesceFrom]
    split
    · rename_i hempty
      rw [String.isEmpty_iff.1 hempty, gaps_nil]
    · rw [gaps_raw, gaps_nil, List.modifyHead_cons, String.append_empty]
  | raw pending text ps ih =>
    rw [modifyHead_gaps_raw]
    exact ih
  | part pending part ps h ih =>
    rw [modifyHead_gaps_empty] at ih
    rw [coalesceFrom_of_not_raw h, modifyHead_gaps_of_not_raw h]
    split
    · rename_i hempty
      rw [gaps_of_not_raw h, ih, String.isEmpty_iff.1 hempty]
    · rw [gaps_raw, gaps_of_not_raw h, ih, List.modifyHead_cons, String.append_empty]

/-- Parts are joined to the same ones exactly if they have the same texts in the same gaps. -/
theorem coalesce_eq_coalesce_iff (ps qs : List Part) :
    coalesce ps = coalesce qs ↔ others ps = others qs ∧ gaps ps = gaps qs := by
  have hkeeps : ∀ ps, others (coalesce ps) = others ps ∧ gaps (coalesce ps) = gaps ps := fun ps =>
    ⟨others_coalesceFrom "" ps, (gaps_coalesceFrom "" ps).trans (modifyHead_gaps_empty ps)⟩
  constructor
  · intro h
    obtain ⟨hothers, hgaps⟩ := hkeeps ps
    rw [← hothers, ← hgaps, h]
    exact hkeeps qs
  · rintro ⟨hothers, hgaps⟩
    calc coalesce ps
        = weave ((gaps ps).modifyHead ("" ++ ·)) (others ps) := coalesceFrom_eq_weave "" ps
      _ = weave ((gaps qs).modifyHead ("" ++ ·)) (others qs) := by rw [hothers, hgaps]
      _ = coalesce qs := (coalesceFrom_eq_weave "" qs).symm

/-! ## Nothing left to join -/

/-- Whether no literal text is empty and none stands beside another one. -/
structure Joined (ps : List Part) : Prop where
  filled : ∀ text, raw text ∈ ps → text ≠ ""
  apart : ps.IsChain fun p q => ¬ (p.isRaw = true ∧ q.isRaw = true)

theorem Joined.cons {ps : List Part} (h : Joined ps) (hpart : part.isRaw = false) :
    Joined (part :: ps) where
  filled := by
    intro text hmem
    rcases List.mem_cons.1 hmem with rfl | hmem
    · cases hpart
    · exact h.filled text hmem
  apart := h.apart.cons fun next _ hraw => by
    rw [hpart] at hraw
    cases hraw.1

theorem Joined.cons_raw {ps : List Part} {text : String} (h : Joined (part :: ps))
    (hpart : part.isRaw = false) (htext : ¬ text.isEmpty = true) :
    Joined (raw text :: part :: ps) where
  filled := by
    intro other hmem
    rcases List.mem_cons.1 hmem with he | hmem
    · obtain rfl := Part.raw.inj he
      exact fun hempty => htext (String.isEmpty_iff.2 hempty)
    · exact h.filled other hmem
  apart := h.apart.cons fun next hnext hraw => by
    obtain rfl := Option.some.inj hnext
    rw [hpart] at hraw
    cases hraw.2

theorem joined_coalesceFrom (pending : String) (ps : List Part) :
    Joined (coalesceFrom pending ps) := by
  induction pending, ps using raw_induction with
  | nil pending =>
    rw [coalesceFrom]
    split
    · exact ⟨fun _ h => absurd h List.not_mem_nil, .nil⟩
    · rename_i hne
      refine ⟨fun text hmem => ?_, .singleton _⟩
      obtain rfl := Part.raw.inj (List.mem_singleton.1 hmem)
      exact fun hempty => hne (String.isEmpty_iff.2 hempty)
  | raw pending text ps ih => exact ih
  | part pending part ps h ih =>
    rw [coalesceFrom_of_not_raw h]
    split
    · exact ih.cons h
    · rename_i hne
      exact (ih.cons h).cons_raw h hne

end Part
end HtmlTemplate
