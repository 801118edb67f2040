import HtmlTemplate.Tag.Registry
import Mathlib.Data.List.Induction
import Mathlib.Data.List.Nodup

/-!
# Registration — what handlers leave in a registry

A handler is registered name by name.  It gets all of its names if each of them is free, and the
names in front of the first one that is not; a handler is never taken a name away again
(`Registry.register_atomic_iff`).  So a call that is refused leaves the registry as it was only if
no free name stands in front of the one that it is refused for.
-/

namespace HtmlTemplate
namespace Registry

variable {registry : Registry} {handler other : Handler} {front names : List String} {name : String}

/-! ## Entries -/

/-- A handler under each of some names. -/
def entries (handler : Handler) (names : List String) : Registry :=
  names.map fun name => (name, handler)

/-- Whether none of the names is taken, and none comes twice. -/
structure Free (registry : Registry) (names : List String) : Prop where
  nodup : names.Nodup
  fresh : ∀ name ∈ names, name ∉ registry.names

theorem names_append (a b : Registry) : Registry.names (a ++ b) = a.names ++ b.names :=
  List.map_append

theorem names_entries (handler : Handler) (names : List String) :
    (entries handler names).names = names := by
  unfold entries Registry.names
  rw [List.map_map]
  exact List.map_id names

theorem get?_eq_none_iff : registry.get? name = none ↔ name ∉ registry.names := by
  unfold get? Registry.names
  rw [List.lookup_eq_none_iff, List.mem_map]
  refine ⟨fun h ⟨entry, hentry, he⟩ => ?_, fun h entry hentry => bne_iff_ne.2 fun he => ?_⟩
  · exact bne_iff_ne.1 (h entry hentry) he.symm
  · exact h ⟨entry, hentry, he.symm⟩

theorem get?_entries : (entries handler names).get? name = some other ↔
    name ∈ names ∧ other = handler := by
  induction names with
  | nil => simp [entries, get?]
  | cons first names ih =>
    by_cases h : name = first
    · subst h
      simp [entries, get?, eq_comm]
    · have hne : (name == first) = false := beq_false_of_ne h
      simpa [entries, get?, List.lookup_cons, hne, h] using ih

/-- What follows the entries of a registry only counts for names that are not in it. -/
theorem get?_append (more : Registry) : Registry.get? (registry ++ more) name = some other ↔
    registry.get? name = some other ∨ name ∉ registry.names ∧ more.get? name = some other := by
  rw [← get?_eq_none_iff]
  unfold get?
  rw [List.lookup_append]
  cases registry.lookup name <;> simp

/-- Free names are gone through until the first of them that is not free. -/
theorem free_or_taken (registry : Registry) (names : List String) :
    registry.Free names ∨ ∃ front name rest, names = front ++ name :: rest ∧ registry.Free front ∧
      (name ∈ registry.names ∨ name ∈ front) := by
  induction names using List.reverseRecOn with
  | nil => exact Or.inl ⟨List.nodup_nil, fun _ h => absurd h List.not_mem_nil⟩
  | append_singleton names last ih =>
    rcases ih with hfree | ⟨front, name, rest, rfl, hfront, htaken⟩
    · by_cases htaken : last ∈ registry.names ∨ last ∈ names
      · exact Or.inr ⟨names, last, [], rfl, hfree, htaken⟩
      · rw [not_or] at htaken
        refine Or.inl ⟨?_, ?_⟩
        · rw [← List.concat_eq_append]
          exact hfree.nodup.concat htaken.2
        · exact List.forall_mem_append.2 ⟨hfree.fresh, List.forall_mem_singleton.2 htaken.1⟩
    · exact Or.inr ⟨front, name, rest ++ [last], by simp, hfront, htaken⟩

theorem Free.of_append {more : List String} (h : registry.Free (front ++ more)) :
    registry.Free front :=
  ⟨h.nodup.of_append_left, fun name hname => h.fresh name (List.mem_append_left _ hname)⟩

/-- A name that is taken, or comes again, is not free. -/
theorem not_free_concat (h : name ∈ registry.names ∨ name ∈ front) (more : List String) :
    ¬ registry.Free (front ++ name :: more) := by
  intro hfree
  rcases h with h | h
  · exact hfree.fresh name (List.mem_append_right _ List.mem_cons_self) h
  · exact (List.disjoint_of_nodup_append hfree.nodup) h List.mem_cons_self

/-- A name that is not free has a handler when it is looked at. -/
theorem exists_holder (handler : Handler) (h : name ∈ registry.names ∨ name ∈ front) :
    ∃ other, Registry.get? (registry ++ entries handler front) name = some other := by
  have hmem : name ∈ Registry.names (registry ++ entries handler front) := by
    rw [names_append, names_entries]
    exact List.mem_append.2 h
  exact Option.ne_none_iff_exists'.1 fun hnone => get?_eq_none_iff.1 hnone hmem

/-! ## Calls -/

/-- Free names are all taken before the names behind them are looked at. -/
theorem registerNames_append (handler : Handler) (h : registry.Free front) (rest : List String) :
    registerNames handler (front ++ rest) registry =
      registerNames handler rest (registry ++ entries handler front) := by
  induction front generalizing registry with
  | nil => exact congrArg (registerNames handler rest) (List.append_nil registry).symm
  | cons first front ih =>
    obtain ⟨hfirst, hnodup⟩ := List.nodup_cons.1 h.nodup
    obtain ⟨hfresh, hrest⟩ := List.forall_mem_cons.1 h.fresh
    have hfront : Free (registry ++ entries handler [first]) front := by
      refine ⟨hnodup, fun name hname => ?_⟩
      rw [names_append, names_entries]
      refine List.not_mem_append (hrest name hname) fun hmem => hfirst ?_
      exact List.mem_singleton.1 hmem ▸ hname
    have hentries : registry ++ entries handler (first :: front) =
        registry ++ entries handler [first] ++ entries handler front :=
      (List.append_assoc registry (entries handler [first]) (entries handler front)).symm
    rw [List.cons_append, registerNames, get?_eq_none_iff.2 hfresh, hentries]
    exact ih hfront

theorem register_of_free (hnames : handler.names = some names) (h : registry.Free names) :
    registry.register handler = (.ok (), registry ++ entries handler names) := by
  have happend := registerNames_append handler h []
  rw [List.append_nil] at happend
  unfold register
  rw [hnames]
  exact happend

/-- A call is refused for the first name that is not free, and the handler keeps those before. -/
theorem register_of_taken {rest : List String}
    (hnames : handler.names = some (front ++ name :: rest)) (h : registry.Free front)
    (htaken : Registry.get? (registry ++ entries handler front) name = some other) :
    registry.register handler =
      (.error (.nameTaken name other.label), registry ++ entries handler front) := by
  unfold register
  rw [hnames]
  dsimp only
  rw [registerNames_append handler h, registerNames, htaken]

theorem register_of_nameless (hnames : handler.names = none) :
    registry.register handler = (.error (.handlerWithoutNames handler.label), registry) := by
  unfold register
  rw [hnames]

/-- What comes of a call: there are no names at all, all of them are free, or there is a first one
that is not. -/
theorem register_cases (registry : Registry) (handler : Handler) :
    handler.names = none ∨ (∃ names, handler.names = some names ∧ registry.Free names) ∨
      ∃ front name rest other, handler.names = some (front ++ name :: rest) ∧
        registry.Free front ∧ (name ∈ registry.names ∨ name ∈ front) ∧
          Registry.get? (registry ++ entries handler front) name = some other := by
  cases hnames : handler.names with
  | none => exact Or.inl rfl
  | some names =>
    rcases free_or_taken registry names with hfree | ⟨front, name, rest, rfl, hfront, htaken⟩
    · exact Or.inr (Or.inl ⟨names, rfl, hfree⟩)
    · obtain ⟨other, hget⟩ := exists_holder handler htaken
      exact Or.inr (Or.inr ⟨front, name, rest, other, rfl, hfront, htaken, hget⟩)

/-- The names that a handler gets from a call are those of its longest free front. -/
theorem register_keeps (registry : Registry) (hnames : handler.names = some names) : ∃ front,
    (registry.register handler).2 = registry ++ entries handler front ∧
      ∀ early, early <+: names ∧ registry.Free early ↔ early <+: front := by
  rcases register_cases registry handler with hnone | ⟨_, he, hfree⟩ |
    ⟨front, name, rest, other, he, hfront, htaken, hget⟩
  · rw [hnames] at hnone
    cases hnone
  · cases hnames.symm.trans he
    refine ⟨names, by rw [register_of_free hnames hfree], fun early => ⟨And.left, fun h => ⟨h, ?_⟩⟩⟩
    obtain ⟨more, rfl⟩ := h
    exact hfree.of_append
  · cases hnames.symm.trans he
    refine ⟨front, by rw [register_of_taken hnames hfront hget],
      fun early => ⟨fun h => ?_, fun h => ?_⟩⟩
    · rcases List.prefix_or_prefix_of_prefix h.1 (List.prefix_append front (name :: rest)) with
        h' | ⟨more, rfl⟩
      · exact h'
      · -- what goes on behind the front goes on with the name that is taken
        cases more with
        | nil => exact (List.append_nil front).symm ▸ List.prefix_rfl
        | cons next more =>
          obtain ⟨tail, htail⟩ := h.1
          rw [List.append_assoc, List.append_cancel_left_eq, List.cons_append] at htail
          obtain ⟨rfl, -⟩ := List.cons.inj htail
          exact absurd h.2 (not_free_concat htaken more)
    · refine ⟨h.trans (List.prefix_append _ _), ?_⟩
      obtain ⟨more, rfl⟩ := h
      exact hfront.of_append

/-- Whether a call registers the handler under a name: the name is free, and so are those in front
of it. -/
def Gains (registry : Registry) (handler : Handler) (name : String) : Prop :=
  ∃ names front, handler.names = some names ∧ front ++ [name] <+: names ∧
    registry.Free (front ++ [name])

/-- One call leaves every name its handler, and adds what it registers. -/
theorem get?_register : (registry.register handler).2.get? name = some other ↔
    registry.get? name = some other ∨ registry.Gains handler name ∧ other = handler := by
  cases hnames : handler.names with
  | none =>
    rw [register_of_nameless hnames]
    refine ⟨Or.inl, fun h => h.elim id fun ⟨⟨names, _, he, _⟩, _⟩ => ?_⟩
    rw [hnames] at he
    cases he
  | some names =>
    obtain ⟨front, hkept, hfront⟩ := register_keeps registry hnames
    have hfree : registry.Free front := ((hfront front).2 List.prefix_rfl).2
    have hgains : registry.Gains handler name ↔ name ∈ front := by
      refine ⟨fun ⟨_, before, he, hbefore⟩ => ?_, fun h => ?_⟩
      · cases hnames.symm.trans he
        exact ((hfront _).1 hbefore).subset (by simp)
      · obtain ⟨before, after, rfl⟩ := List.append_of_mem h
        exact ⟨names, before, hnames, (hfront _).2 ⟨after, by simp⟩⟩
    rw [hkept, get?_append, get?_entries, hgains]
    exact or_congr_right ⟨And.right, fun h => ⟨hfree.fresh name h.1, h⟩⟩

/-! ## Refusals -/

/-- Whether a call registers a handler under all of its names, or is refused and changes nothing. -/
def AllOrNothing (registry : Registry) (handler : Handler) : Prop :=
  (∃ names, handler.names = some names ∧
      registry.register handler = (.ok (), registry ++ entries handler names)) ∨
    ∃ fault, registry.register handler = (.error fault, registry)

/-- Whether free names of a handler stand in front of the first one that is not free. -/
def Torn (registry : Registry) (handler : Handler) : Prop :=
  ∃ front name rest, front ≠ [] ∧ handler.names = some (front ++ name :: rest) ∧
    registry.Free front ∧ (name ∈ registry.names ∨ name ∈ front)

theorem register_ok_iff : (registry.register handler).1 = .ok () ↔
    ∃ names, handler.names = some names ∧ registry.Free names := by
  rcases register_cases registry handler with hnone | ⟨names, hnames, hfree⟩ |
    ⟨front, name, rest, other, hnames, hfront, htaken, hget⟩
  · simp [register_of_nameless hnone, hnone]
  · exact ⟨fun _ => ⟨names, hnames, hfree⟩, fun _ => by rw [register_of_free hnames hfree]⟩
  · rw [register_of_taken hnames hfront hget, hnames]
    refine ⟨fun h => (nomatch h), fun ⟨_, he, hfree⟩ => ?_⟩
    cases he
    exact absurd hfree (not_free_concat htaken rest)

theorem allOrNothing_iff : registry.AllOrNothing handler ↔ ¬ registry.Torn handler := by
  rcases register_cases registry handler with hnone | ⟨names, hnames, hfree⟩ |
    ⟨front, name, rest, other, hnames, hfront, htaken, hget⟩
  · refine iff_of_true (Or.inr ⟨_, register_of_nameless hnone⟩) fun ⟨_, _, _, _, he, _⟩ => ?_
    rw [hnone] at he
    cases he
  · refine iff_of_true (Or.inl ⟨names, hnames, register_of_free hnames hfree⟩)
      fun ⟨front, name, rest, _, he, _, htaken⟩ => ?_
    cases hnames.symm.trans he
    exact not_free_concat htaken rest hfree
  · have hcall := register_of_taken hnames hfront hget
    -- With no name in front the registry stays as it is, and otherwise it has grown.
    cases front with
    | nil =>
      refine iff_of_true (Or.inr ⟨_, hcall.trans (congrArg _ (List.append_nil registry))⟩)
        fun ⟨first, _, _, hfirst, he, hfree, _⟩ => ?_
      obtain ⟨next, first, rfl⟩ := List.exists_cons_of_ne_nil hfirst
      obtain ⟨rfl, -⟩ := List.cons.inj (Option.some.inj (hnames.symm.trans he))
      have hnot : ¬ registry.Free ([] ++ name :: first) := not_free_concat htaken first
      exact hnot hfree
    | cons first front =>
      refine iff_of_false ?_ fun h => h ⟨_, _, _, List.cons_ne_nil _ _, hnames, hfront, htaken⟩
      rintro (⟨_, _, he⟩ | ⟨_, he⟩) <;> rw [hcall] at he
      · cases congrArg Prod.fst he
      · exact List.cons_ne_nil _ _ (List.append_right_eq_self.1 (congrArg Prod.snd he))

/-- A call that is all or nothing registers a handler under one of its names if under all. -/
theorem gains_iff (h : ¬ registry.Torn handler) : registry.Gains handler name ↔
    ∃ names, handler.names = some names ∧ name ∈ names ∧ registry.Free names := by
  constructor
  · rintro ⟨names, before, hnames, hbefore, hfree⟩
    refine ⟨names, hnames, hbefore.subset (by simp), ?_⟩
    rcases free_or_taken registry names with hall | ⟨front, taken, rest, rfl, hfront, htaken⟩
    · exact hall
    · -- The taken name is the first one, so that every front with a name in it starts with it.
      have hnil : front = [] := by
        by_contra hne
        exact h ⟨front, taken, rest, hne, hnames, hfront, htaken⟩
      subst hnil
      obtain ⟨more, hmore⟩ : ∃ more, before ++ [name] = taken :: more := by
        cases before with
        | nil => exact ⟨[], congrArg (· :: []) (List.cons_prefix_cons.1 hbefore).1⟩
        | cons first before => exact ⟨_, congrArg (· :: _) (List.cons_prefix_cons.1 hbefore).1⟩
      have hnot : ¬ registry.Free ([] ++ taken :: more) := not_free_concat htaken more
      exact absurd (hmore ▸ hfree) hnot
  · rintro ⟨names, hnames, hmem, hfree⟩
    obtain ⟨before, after, rfl⟩ := List.append_of_mem hmem
    have hfront : before ++ [name] <+: before ++ name :: after := ⟨after, by simp⟩
    refine ⟨_, before, hnames, hfront, ?_⟩
    obtain ⟨_, he⟩ := hfront
    exact (he ▸ hfree).of_append

/-! ## Sequences of calls -/

/-- The registry that calls for handlers leave, one after another, the refused ones among them. -/
def made (handlers : List Handler) : Registry :=
  handlers.foldl (fun registry handler => (registry.register handler).2) []

theorem made_concat (handlers : List Handler) (last : Handler) :
    made (handlers ++ [last]) = ((made handlers).register last).2 :=
  List.foldl_concat ..

/-- A name of the registry that calls leave has the handler of the call that registered it. -/
theorem get?_made {handlers : List Handler} : (made handlers).get? name = some handler ↔
    ∃ before after, handlers = before ++ handler :: after ∧ (made before).Gains handler name := by
  induction handlers using List.reverseRecOn with
  | nil => simp [made, get?]
  | append_singleton handlers last ih =>
    rw [made_concat, get?_register, ih]
    -- The call that registers the name is the last one, or one of those before it.
    constructor
    · rintro (⟨before, after, rfl, hgains⟩ | ⟨hgains, rfl⟩)
      · exact ⟨before, after ++ [last], by simp, hgains⟩
      · exact ⟨handlers, [], rfl, hgains⟩
    · rintro ⟨before, after, he, hgains⟩
      rcases List.eq_nil_or_concat after with rfl | ⟨after, newest, rfl⟩
      · obtain ⟨rfl, hlast⟩ := List.append_inj' he rfl
        obtain rfl := List.singleton_inj.1 hlast
        exact Or.inr ⟨hgains, rfl⟩
      · rw [List.concat_eq_append, ← List.cons_append, ← List.append_assoc] at he
        exact Or.inl ⟨before, after, List.append_inj_left' he rfl, hgains⟩

/-- After any calls, the next one registers a handler under all of its names, or is refused and
changes nothing, exactly if no free name stands in front of one that is taken.  If one does, the
call is refused and the handler keeps the names in front.  No call changes the handler of a name,
which is that of the call that registered it; if no call leaves names behind, it is that of the
call, not refused, whose handler has the name. -/
theorem register_atomic_iff (handlers : List Handler) :
    (∀ handler, (made handlers).AllOrNothing handler ↔ ¬ (made handlers).Torn handler) ∧
    (∀ handler front name rest, handler.names = some (front ++ name :: rest) →
      (made handlers).Free front → (name ∈ (made handlers).names ∨ name ∈ front) →
        ∃ other, Registry.get? (made handlers ++ entries handler front) name = some other ∧
          (made handlers).register handler =
            (.error (.nameTaken name other.label), made handlers ++ entries handler front)) ∧
    (∀ after name handler, (made handlers).get? name = some handler →
      (made (handlers ++ after)).get? name = some handler) ∧
    (∀ name handler, (made handlers).get? name = some handler ↔
      ∃ before after, handlers = before ++ handler :: after ∧
        (made before).Gains handler name) ∧
    ((∀ before handler after, handlers = before ++ handler :: after →
        ¬ (made before).Torn handler) →
      ∀ name handler, (made handlers).get? name = some handler ↔
        ∃ before names after, handlers = before ++ handler :: after ∧
          handler.names = some names ∧ name ∈ names ∧
            (made before).register handler =
              (.ok (), made before ++ entries handler names)) := by
  refine ⟨fun _ => allOrNothing_iff, ?refused, ?kept, fun _ _ => get?_made, ?whole⟩
  case refused =>
    intro handler front name rest hnames hfront htaken
    obtain ⟨other, hget⟩ := exists_holder handler htaken
    exact ⟨other, hget, register_of_taken hnames hfront hget⟩
  case kept =>
    intro after name handler hget
    obtain ⟨early, late, rfl, hgains⟩ := get?_made.1 hget
    exact get?_made.2 ⟨early, late ++ after, by simp, hgains⟩
  case whole =>
    intro hwhole name handler
    rw [get?_made]
    constructor
    · rintro ⟨before, after, he, hgains⟩
      obtain ⟨names, hnames, hmem, hfree⟩ := (gains_iff (hwhole before handler after he)).1 hgains
      exact ⟨before, names, after, he, hnames, hmem, register_of_free hnames hfree⟩
    · rintro ⟨before, names, after, he, hnames, hmem, hcall⟩
      obtain ⟨_, hnames', hfree⟩ := register_ok_iff.1 (congrArg Prod.fst hcall)
      cases hnames.symm.trans hnames'
      exact ⟨before, after, he,
        (gains_iff (hwhole before handler after he)).2 ⟨names, hnames, hmem, hfree⟩⟩

/-- The second of two handlers is refused for the name of the first, and keeps its other name. -/
theorem register_not_atomic :
    (made [⟨"A", "A()", some ["x"], fun _ => .ok []⟩,
      ⟨"B", "B()", some ["y", "x"], fun _ => .ok []⟩]).names = ["x", "y"] ∧
    ¬ (made [⟨"A", "A()", some ["x"], fun _ => .ok []⟩]).AllOrNothing
      ⟨"B", "B()", some ["y", "x"], fun _ => .ok []⟩ := by
  refine ⟨rfl, fun h => allOrNothing_iff.1 h ⟨["y"], "x", [], by decide, rfl, ⟨?_, ?_⟩, ?_⟩⟩
  · exact List.nodup_singleton "y"
  · decide
  · decide

end Registry
end HtmlTemplate
