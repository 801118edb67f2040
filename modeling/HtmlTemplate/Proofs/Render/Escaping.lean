import HtmlTemplate.Proofs.Render.Leaves
import HtmlTemplate.Proofs.Text.Entity

/-!
# Escaping — texts and nested values in body text

Everything in body text is the text of some leaves, one after another, and a leaf that is not
markup is escaped.  Escaping loses nothing and lets no angle bracket or quote through
(`Value.escape_exact`).
-/

namespace HtmlTemplate
namespace Value

/-! ## Nests -/

/-- Whether a value in body text is gone through: whether it can be, and is neither text nor
bytes. -/
def isNest : Value → Bool
  | str _ | markup _ | bytes _ => false
  | v => v.isIterable

/-- A value that is not gone through is its only leaf. -/
theorem leaves_of_not_nest {v : Value} (h : v.isNest = false) (p : Progress) :
    v.leaves p = ([.ok v], p) := by
  cases v with
  | none | bool | int | float | str | markup | bytes | function => rfl
  | list | tuple | range | dict | iterator => cases h
  | object traits attributes items? =>
    cases items? with
    | none => rfl
    | some items => cases h

theorem leavesFrom_rangeFrom (start step : Int) (count : Nat) (p : Progress) :
    leavesFrom false 0 (rangeFrom start step count) p =
      ((rangeFrom start step count).map .ok, p) := by
  induction count generalizing start with
  | zero => rfl
  | succ count ih =>
    have hleaf : (int start).leaves p = ([.ok (int start)], p) := rfl
    rw [rangeFrom, leavesFrom, hleaf, ih]
    rfl

theorem leavesOfKeys_eq (entries : List (Value × Value)) (p : Progress) :
    leavesOfKeys entries p = leavesFrom false 0 (entries.map (·.1)) p := by
  induction entries generalizing p with
  | nil => rfl
  | cons entry entries ih =>
    obtain ⟨k, v⟩ := entry
    rw [leavesOfKeys, List.map_cons, leavesFrom, ih]

/-- The leaves of a value that is gone through are those of its items, and where it breaks off the
fault. -/
theorem leaves_of_nest {v : Value} (h : v.isNest = true)
    (hiterator : ∀ id items, v ≠ iterator id items) (p : Progress) :
    v.leaves p = leavesFrom v.breaksOff 0 v.elements p := by
  cases v with
  | none | bool | int | float | str | markup | bytes | function => cases h
  | list | tuple => rfl
  | range start stop step =>
    exact (leavesFrom_rangeFrom start step (rangeLength start stop step) p).symm
  | dict entries => exact leavesOfKeys_eq entries p
  | iterator id items => exact absurd rfl (hiterator id items)
  | object traits attributes items? =>
    cases items? with
    | none => cases h
    | some items => rfl

theorem not_nest_of_mem_singleton {v leaf : Value} (hv : v.isNest = false)
    (h : (.ok leaf : Leaf) ∈ [.ok v]) : leaf.isNest = false :=
  Except.ok.inj (List.mem_singleton.1 h) ▸ hv

mutual

/-- Going through values ends at what cannot be gone through any further. -/
theorem not_nest_of_mem_leaves {leaf : Value} : ∀ (v : Value) (p : Progress),
    .ok leaf ∈ (v.leaves p).1 → leaf.isNest = false
  | .none, _, h => not_nest_of_mem_singleton rfl h
  | .bool _, _, h => not_nest_of_mem_singleton rfl h
  | .int _, _, h => not_nest_of_mem_singleton rfl h
  | .float _, _, h => not_nest_of_mem_singleton rfl h
  | .str _, _, h => not_nest_of_mem_singleton rfl h
  | .markup _, _, h => not_nest_of_mem_singleton rfl h
  | .bytes _, _, h => not_nest_of_mem_singleton rfl h
  | .list items, p, h => not_nest_of_mem_leavesFrom 0 items p h
  | .tuple items, p, h => not_nest_of_mem_leavesFrom 0 items p h
  | .range _ _ _, _, h => by
    obtain ⟨n, -, rfl⟩ := mem_rangeFrom (mem_map_ok h)
    rfl
  | .dict entries, p, h => not_nest_of_mem_leavesOfKeys entries p h
  | .iterator _ items, _, h => not_nest_of_mem_leavesFrom _ items _ h
  | .function _, _, h => not_nest_of_mem_singleton rfl h
  | .object _ _ Option.none, _, h => not_nest_of_mem_singleton rfl h
  | .object _ _ (some items), p, h => not_nest_of_mem_leavesFrom 0 items p h

theorem not_nest_of_mem_leavesFrom {leaf : Value} {breaksOff : Bool} :
    ∀ (n : Nat) (vs : List Value) (p : Progress),
      .ok leaf ∈ (leavesFrom breaksOff n vs p).1 → leaf.isNest = false
  | _, [], _, h => by
    rw [leavesFrom] at h
    exact absurd h ok_not_mem_ending
  | 0, v :: vs, p, h => by
    rw [leavesFrom] at h
    rcases List.mem_append.1 h with h | h
    · exact not_nest_of_mem_leaves v p h
    · exact not_nest_of_mem_leavesFrom 0 vs _ h
  | n + 1, _ :: vs, p, h => by
    rw [leavesFrom] at h
    exact not_nest_of_mem_leavesFrom n vs p h

theorem not_nest_of_mem_leavesOfKeys {leaf : Value} :
    ∀ (entries : List (Value × Value)) (p : Progress),
      .ok leaf ∈ (leavesOfKeys entries p).1 → leaf.isNest = false
  | [], _, h => by
    rw [leavesOfKeys] at h
    cases h
  | (k, _) :: rest, p, h => by
    rw [leavesOfKeys] at h
    rcases List.mem_append.1 h with h | h
    · exact not_nest_of_mem_leaves k p h
    · exact not_nest_of_mem_leavesOfKeys rest _ h

end

/-- The texts of leaves are put together in their order. -/
theorem leavesText_eq_join (leaves : List Leaf) :
    leavesText leaves = (leaves.mapM (· >>= leafText)).map String.join := by
  induction leaves with
  | nil => rfl
  | cons leaf rest ih =>
    rw [leavesText, ih, List.mapM_cons]
    cases leaf with
    | error fault => rfl
    | ok v =>
      change (leafText v >>= fun first => _) = Except.map _ (leafText v >>= fun first => _)
      cases leafText v with
      | error fault => rfl
      | ok first =>
        cases rest.mapM (· >>= leafText) with
        | error fault => rfl
        | ok others => exact congrArg Except.ok (String.join_cons ..).symm

/-! ## Exactness -/

/-- Escaping replaces the five special characters one after another in the whole text, which is
the same as replacing each where it stands.  It goes through a text piece by piece, lets no angle
bracket or quote through, and is undone by reading the entities.  What a value comes to in body
text is, for its leaves in order, nothing if one is missing, markup as it is, and the escaped text
of any other; a value that breaks off while it is gone through stops the whole with its fault. -/
theorem escape_exact :
    (∀ s, (escape s).toList = replaceAll entityTable s.toList ∧
      replaceAll entityTable s.toList = s.toList.flatMap (replacement entityTable)) ∧
    (∀ s t, escape (s ++ t) = escape s ++ escape t) ∧
    (∀ s, ∀ c ∈ (escape s).toList, c ∉ ['<', '>', '"', '\'']) ∧
    (∀ s, unescape (escape s) = s) ∧ Function.Injective escape ∧
    (∀ v p, (Render.body v).run p =
      ((v.leaves p).1.mapM (· >>= leafText)).map
        fun texts => (String.join texts, (v.leaves p).2)) ∧
    (∀ (v : Value) (p : Progress) (leaf : Value),
      .ok leaf ∈ (v.leaves p).1 → leaf.isNest = false) ∧
    (∀ (v : Value) (p : Progress), v.isNest = false → v.leaves p = ([.ok v], p)) ∧
    ∀ (v : Value) (p : Progress), v.isNest = true → (∀ id items, v ≠ iterator id items) →
      v.leaves p = leavesFrom v.breaksOff 0 v.elements p := by
  refine ⟨fun s => ⟨toList_escape s, ?once⟩, escape_append, fun s => (inert_escape s).plain,
    unescape_escape, escape_injective, ?body, fun v p _ => not_nest_of_mem_leaves v p,
    fun v p h => leaves_of_not_nest h p, fun v p h hiterator => leaves_of_nest h hiterator p⟩
  case once => exact replaceAll_eq_flatMap entityTable_pairwise s.toList
  case body =>
    intro v p
    rw [Render.run_body, leavesText_eq_join]
    cases (v.leaves p).1.mapM (· >>= leafText) <;> rfl

end Value
end HtmlTemplate
