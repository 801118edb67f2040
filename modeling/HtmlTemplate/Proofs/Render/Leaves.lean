import HtmlTemplate.Proofs.Render.Ensures

/-!
# Leaves — what a value in body text comes down to

A value in body text is gone through item by item, to any depth.  `Value.leaves` gives the values
that this ends at, in order, and the fault where one breaks off.  `Render.run_body` says that the
text of the whole is the texts of its leaves, one after another: nothing for what is missing, markup
as it is, and the escaped text of everything else.
-/

namespace HtmlTemplate
namespace Value

/-! ## Leaves -/

/-- What going through a value ends at: another value, or the fault of one that breaks off. -/
abbrev Leaf := Except RenderFault Value

/-- What comes behind the last item. -/
def ending (breaksOff : Bool) : List Leaf := if breaksOff then [.error .conversion] else []

mutual

/-- What a value comes down to, and how far each iterator is gone through then. -/
def leaves : Value → Progress → List Leaf × Progress
  | list items, p => leavesFrom false 0 items p
  | tuple items, p => leavesFrom false 0 items p
  | dict entries, p => leavesOfKeys entries p
  | range start stop step, p => ((rangeItems start stop step).map .ok, p)
  | iterator id items, p =>
    leavesFrom id.failing (p.taken id.number) items (p.setTaken id.number items.length)
  | object traits _ (some items), p => leavesFrom (traits.refuses .items) 0 items p
  | v, p => ([.ok v], p)

/-- What the items but the first `n` come down to. -/
def leavesFrom (breaksOff : Bool) : Nat → List Value → Progress → List Leaf × Progress
  | _, [], p => (ending breaksOff, p)
  | 0, v :: vs, p =>
    let first := leaves v p
    let rest := leavesFrom breaksOff 0 vs first.2
    (first.1 ++ rest.1, rest.2)
  | n + 1, _ :: vs, p => leavesFrom breaksOff n vs p

def leavesOfKeys : List (Value × Value) → Progress → List Leaf × Progress
  | [], p => ([], p)
  | (k, _) :: rest, p =>
    let first := leaves k p
    let others := leavesOfKeys rest first.2
    (first.1 ++ others.1, others.2)

end

/-- No value stands behind the last item. -/
theorem ok_not_mem_ending {leaf : Value} {breaksOff : Bool} : .ok leaf ∉ ending breaksOff := by
  cases breaksOff <;> simp [ending]

/-! ## Markup -/

/-- Whether a value is some markup, or holds it among its items to any depth. -/
inductive Holds : Value → String → Prop
  | here (s : String) : Holds (.markup s) s
  | inside {v item : Value} {s : String} : item ∈ v.elements → Holds item s → Holds v s

/-- A value that is no markup is not a leaf that holds any. -/
theorem not_markup_mem_singleton {v : Value} (hv : v.isMarkup = false) {s : String} :
    .ok (markup s) ∉ ([.ok v] : List Leaf) := by
  intro h
  obtain rfl := Except.ok.inj (List.mem_singleton.1 h)
  cases hv

/-- The items of a range are its numbers. -/
theorem mem_rangeFrom {v : Value} {start step : Int} {count : Nat}
    (h : v ∈ rangeFrom start step count) : ∃ n < count, v = int (start + n * step) := by
  induction count generalizing start with
  | zero => cases h
  | succ count ih =>
    rcases List.mem_cons.1 h with rfl | h
    · exact ⟨0, Nat.succ_pos count, by simp⟩
    · obtain ⟨n, hn, rfl⟩ := ih h
      refine ⟨n + 1, Nat.succ_lt_succ hn, congrArg int ?_⟩
      rw [Int.natCast_succ, Int.add_mul, Int.one_mul]
      omega

theorem mem_map_ok {v : Value} {vs : List Value} (h : (.ok v : Leaf) ∈ vs.map .ok) : v ∈ vs := by
  obtain ⟨w, hw, he⟩ := List.mem_map.1 h
  exact Except.ok.inj he ▸ hw

mutual

/-- The markup among the leaves of a value is held by it. -/
theorem holds_of_mem_leaves {s : String} : ∀ (v : Value) (p : Progress),
    .ok (markup s) ∈ (v.leaves p).1 → v.Holds s
  | .none, _, h => absurd h (not_markup_mem_singleton rfl)
  | .bool _, _, h => absurd h (not_markup_mem_singleton rfl)
  | .int _, _, h => absurd h (not_markup_mem_singleton rfl)
  | .float _, _, h => absurd h (not_markup_mem_singleton rfl)
  | .str _, _, h => absurd h (not_markup_mem_singleton rfl)
  | .markup t, _, h => by
    cases List.mem_singleton.1 h
    exact Holds.here s
  | .bytes _, _, h => absurd h (not_markup_mem_singleton rfl)
  | .list items, p, h => by
    obtain ⟨item, hitem, hholds⟩ := holds_of_mem_leavesFrom 0 items p h
    exact Holds.inside (v := .list items) hitem hholds
  | .tuple items, p, h => by
    obtain ⟨item, hitem, hholds⟩ := holds_of_mem_leavesFrom 0 items p h
    exact Holds.inside (v := .tuple items) hitem hholds
  | .range _ _ _, _, h => by
    obtain ⟨n, -, hn⟩ := mem_rangeFrom (mem_map_ok h)
    cases hn
  | .dict entries, p, h => by
    obtain ⟨entry, hentry, hholds⟩ := holds_of_mem_leavesOfKeys entries p h
    exact Holds.inside (v := .dict entries) (List.mem_map_of_mem hentry) hholds
  | .iterator id items, p, h => by
    obtain ⟨item, hitem, hholds⟩ := holds_of_mem_leavesFrom _ items _ h
    exact Holds.inside (v := .iterator id items) hitem hholds
  | .function _, _, h => absurd h (not_markup_mem_singleton rfl)
  | .object _ _ Option.none, _, h => absurd h (not_markup_mem_singleton rfl)
  | .object traits attributes (some items), p, h => by
    obtain ⟨item, hitem, hholds⟩ := holds_of_mem_leavesFrom 0 items p h
    exact Holds.inside (v := .object traits attributes (some items)) hitem hholds

theorem holds_of_mem_leavesFrom {s : String} {breaksOff : Bool} :
    ∀ (n : Nat) (vs : List Value) (p : Progress),
      .ok (markup s) ∈ (leavesFrom breaksOff n vs p).1 → ∃ v ∈ vs, v.Holds s
  | _, [], _, h => by
    rw [leavesFrom] at h
    exact absurd h ok_not_mem_ending
  | 0, v :: vs, p, h => by
    rw [leavesFrom] at h
    rcases List.mem_append.1 h with h | h
    · exact ⟨v, List.mem_cons_self, holds_of_mem_leaves v p h⟩
    · obtain ⟨w, hw, hholds⟩ := holds_of_mem_leavesFrom 0 vs _ h
      exact ⟨w, List.mem_cons_of_mem v hw, hholds⟩
  | n + 1, v :: vs, p, h => by
    rw [leavesFrom] at h
    obtain ⟨w, hw, hholds⟩ := holds_of_mem_leavesFrom n vs p h
    exact ⟨w, List.mem_cons_of_mem v hw, hholds⟩

theorem holds_of_mem_leavesOfKeys {s : String} : ∀ (entries : List (Value × Value)) (p : Progress),
    .ok (markup s) ∈ (leavesOfKeys entries p).1 → ∃ entry ∈ entries, entry.1.Holds s
  | [], _, h => by
    rw [leavesOfKeys] at h
    cases h
  | (k, v) :: rest, p, h => by
    rw [leavesOfKeys] at h
    rcases List.mem_append.1 h with h | h
    · exact ⟨(k, v), List.mem_cons_self, holds_of_mem_leaves k p h⟩
    · obtain ⟨entry, hentry, hholds⟩ := holds_of_mem_leavesOfKeys rest _ h
      exact ⟨entry, List.mem_cons_of_mem _ hentry, hholds⟩

end

/-! ## Texts -/

/-- The text of a leaf in body text. -/
def leafText : Value → Except RenderFault String
  | none => .ok ""
  | markup s => .ok s
  | v => v.text.map escape

/-- The texts of leaves, one after another. -/
def leavesText : List Leaf → Except RenderFault String
  | [] => .ok ""
  | leaf :: rest => do
    let first ← leafText (← leaf)
    return first ++ (← leavesText rest)

theorem leavesText_append (a b : List Leaf) :
    leavesText (a ++ b) = do
      let first ← leavesText a
      return first ++ (← leavesText b) := by
  induction a with
  | nil =>
    cases h : leavesText b <;> simp [leavesText, h, bind, Except.bind, pure, Except.pure]
  | cons leaf rest ih =>
    simp only [List.cons_append, leavesText, ih, bind_assoc, pure_bind, String.append_assoc]

theorem leavesText_singleton (v : Value) : leavesText [.ok v] = leafText v := by
  cases h : leafText v <;> simp [leavesText, h, bind, Except.bind, pure, Except.pure]

end Value

namespace Render

open Value

theorem run_escaped (v : Value) (p : Progress) :
    (escaped v).run p = (v.text.map escape).map fun s => (s, p) := by
  cases h : v.text <;> simp [escaped, ofExcept, h] <;> rfl

/-- A value that is not gone through is its only leaf. -/
theorem run_body_leaf {v : Value} {p : Progress} (hbody : body v = escaped v)
    (hleaves : v.leaves p = ([.ok v], p)) (htext : leafText v = v.text.map escape) :
    (body v).run p = (leavesText (v.leaves p).1).map fun s => (s, (v.leaves p).2) := by
  rw [hbody, hleaves, leavesText_singleton, htext]
  exact run_escaped v p

/-- The texts of the first leaves come before those of the others. -/
theorem run_append {x y : Render String} {a b : List Leaf} {p q r : Progress}
    (hx : x.run p = (leavesText a).map fun s => (s, q))
    (hy : y.run q = (leavesText b).map fun s => (s, r)) :
    (do let first ← x; return first ++ (← y) : Render String).run p =
      (leavesText (a ++ b)).map fun s => (s, r) := by
  -- The first run may fail, and hands on how far iterators have got if it does not.
  rw [leavesText_append, StateT.run_bind, hx]
  cases leavesText a with
  | error fault => rfl
  | ok s =>
    change (do return s ++ (← y) : Render String).run q = _
    rw [StateT.run_bind, hy]
    cases leavesText b with
    | error fault => rfl
    | ok t => rfl

theorem run_ended (breaksOff : Bool) (p : Progress) :
    (do ended breaksOff; return "" : Render String).run p =
      (leavesText (ending breaksOff)).map fun s => (s, p) := by
  cases breaksOff <;> rfl

/-- The numbers of a range are written one after another. -/
theorem run_rangeFrom (start step : Int) (count : Nat) (p : Progress) :
    (String.join <$> eachItem escaped (rangeFrom start step count)).run p =
      (leavesText ((rangeFrom start step count).map .ok)).map fun s => (s, p) := by
  induction count generalizing start with
  | zero => rfl
  | succ count ih =>
    have hrest : String.join <$> eachItem escaped (rangeFrom start step (count + 1)) = (do
        let first ← escaped (int start)
        return first ++ (← String.join <$> eachItem escaped (rangeFrom (start + step) step count)) :
        Render String) := by
      simp [rangeFrom, eachItem, String.join_cons]
    have hfirst : (escaped (int start)).run p =
        (leavesText [.ok (int start)]).map fun s => (s, p) := by
      rw [run_escaped, leavesText_singleton]
      rfl
    rw [hrest]
    exact run_append hfirst (ih (start + step))

mutual

/-- The text of a value in body text is the texts of its leaves. -/
theorem run_body : ∀ (v : Value) (p : Progress),
    (body v).run p = (leavesText (v.leaves p).1).map fun s => (s, (v.leaves p).2)
  | .none, p => rfl
  | .bool b, p => run_body_leaf rfl rfl rfl
  | .int n, p => run_body_leaf rfl rfl rfl
  | .float x, p => run_body_leaf rfl rfl rfl
  | .str s, p => run_body_leaf rfl rfl rfl
  | .markup s, p => by
    have hleaves : (Value.markup s).leaves p = ([.ok (.markup s)], p) := rfl
    rw [hleaves, leavesText_singleton]
    rfl
  | .bytes bs, p => run_body_leaf rfl rfl rfl
  | .list items, p => run_bodyAfter 0 items p
  | .tuple items, p => run_bodyAfter 0 items p
  | .range start stop step, p => run_rangeFrom start step (rangeLength start stop step) p
  | .dict entries, p => run_bodyKeys entries p
  | .iterator id items, p =>
    run_bodyAfter (p.taken id.number) items (p.setTaken id.number items.length)
  | .function result, p => run_body_leaf rfl rfl rfl
  | .object traits attributes Option.none, p => run_body_leaf rfl rfl rfl
  | .object _ _ (some items), p => run_bodyAfter 0 items p

theorem run_bodyAfter {breaksOff : Bool} : ∀ (n : Nat) (vs : List Value) (p : Progress),
    (bodyAfter breaksOff n vs).run p =
      (leavesText (leavesFrom breaksOff n vs p).1).map fun s => (s, (leavesFrom breaksOff n vs p).2)
  | _, [], p => by
    rw [bodyAfter, leavesFrom]
    exact run_ended breaksOff p
  | 0, v :: vs, p => by
    rw [bodyAfter, leavesFrom]
    exact run_append (run_body v p) (run_bodyAfter 0 vs (v.leaves p).2)
  | n + 1, _ :: vs, p => by
    rw [bodyAfter, leavesFrom]
    exact run_bodyAfter n vs p

theorem run_bodyKeys : ∀ (entries : List (Value × Value)) (p : Progress),
    (bodyKeys entries).run p =
      (leavesText (leavesOfKeys entries p).1).map fun s => (s, (leavesOfKeys entries p).2)
  | [], _ => by
    rw [bodyKeys, leavesOfKeys]
    rfl
  | (k, _) :: rest, p => by
    rw [bodyKeys, leavesOfKeys]
    exact run_append (run_body k p) (run_bodyKeys rest (k.leaves p).2)

end

end Render
end HtmlTemplate
