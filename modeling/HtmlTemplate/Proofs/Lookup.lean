import Mathlib.Data.List.Basic

/-!
# Lookup — what is found in a list of entries

Slots, attributes and fields are lists of entries with keys.  What is looked up is the first entry
with its key (`mem_of_lookup`), and the only one where no key comes twice (`lookup_of_mem`).
-/

namespace HtmlTemplate

variable {α β : Type} [DecidableEq α] {entries : List (α × β)} {key : α} {value : β}

/-- An entry with another key is passed over. -/
theorem lookup_cons_ne {other : α} (h : other ≠ key) (value : β) (rest : List (α × β)) :
    ((key, value) :: rest).lookup other = rest.lookup other := by
  have hb : (other == key) = false := beq_false_of_ne h
  simp [List.lookup_cons, hb]

/-- What is found is there. -/
theorem mem_of_lookup (h : entries.lookup key = some value) : (key, value) ∈ entries := by
  obtain ⟨before, after, rfl, -⟩ := List.lookup_eq_some_iff.1 h
  exact List.mem_append_right _ List.mem_cons_self

/-- Where no key comes twice, each entry is found by its key. -/
theorem lookup_of_mem (h : (entries.map (·.1)).Nodup) (hm : (key, value) ∈ entries) :
    entries.lookup key = some value := by
  induction entries with
  | nil => cases hm
  | cons entry rest ih =>
    obtain ⟨other, first⟩ := entry
    obtain ⟨hother, hrest⟩ := List.nodup_cons.1 h
    rcases List.mem_cons.1 hm with he | hm
    · cases he
      exact List.lookup_cons_self
    · have hne : key ≠ other := fun e => hother (List.mem_map.2 ⟨_, hm, e⟩)
      rw [lookup_cons_ne hne, ih hrest hm]

end HtmlTemplate
