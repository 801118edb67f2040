import HtmlTemplate.Proofs.Tag.Given

/-!
# Claimed — which directive tags are accepted, and what they are refused for

A namespace claims the tags whose names start with its leading text.  What the rest of the name and
the attributes of such a tag stand for is told by `Tag.Directs`, and what the tag is refused for by
`Tag.RefusedFor`.  Every tag has one of the two, and the resolver of the built-in tags gives just that
(`Resolver.resolve_exact`).
-/

namespace HtmlTemplate

open Text Options

/-! ## Rules -/

/-- The binding that a loop's attributes give.  Without one, or with an empty one, it is the default
one. -/
inductive Options.LoopBinding (attributes : Attributes) : String → Prop
  | default : (∀ binding, Gives attributes "v" binding → binding = "") →
      LoopBinding attributes Part.defaultBinding
  | given {binding : String} : Gives attributes "v" binding → binding ≠ "" →
      LoopBinding attributes binding

/-- The names of the attributes of a tag. -/
def Attributes.keys (attributes : Attributes) : List String := attributes.map (·.1)

namespace Tag

/-- What follows the opening of a block if its tag closes itself. -/
def closing (tag : Tag) : List Part := if tag.isSelfClosing then [.close] else []

/-- What a tag with some name in the namespace stands for. -/
inductive Directs (tag : Tag) : String → List Part → Prop
  | close {name : String} : name ∈ ["loop", "if"] → tag.isClose = true → tag.attributes = [] →
      Directs tag name [.close]
  | loop {path binding : String} : tag.isClose = false → TakesAll ["iter", "v"] tag.attributes →
      Gives tag.attributes "iter" path → LoopBinding tag.attributes binding →
      Directs tag "loop" (.loop path binding :: tag.closing)
  | test {key path : String} : tag.isClose = false → key ∈ ["i", "iter"] →
      TakesAll [key] tag.attributes → Gives tag.attributes key path →
      path.toList.head? ≠ some '!' →
      Directs tag "if" (.conditional path false (key == "iter") :: tag.closing)
  | invertedTest {key path : String} {rest : List Char} : tag.isClose = false →
      key ∈ ["i", "iter"] → TakesAll [key] tag.attributes → Gives tag.attributes key path →
      path.toList = '!' :: rest →
      Directs tag "if" (.conditional (String.ofList (strip rest)) true (key == "iter") ::
        tag.closing)
  | otherwise : tag.isClose = false → tag.isSelfClosing = true → tag.attributes = [] →
      Directs tag "else" [.otherwise]

/-- What a tag with some name in the namespace is refused for, and the attribute that is at fault if
one is.  Whether an `else` is written as it must be matters before its attributes do, a required
attribute that is missing matters after those that are there, and how many tests there are matters
last. -/
inductive RefusedFor (tag : Tag) (leading : String) : String → Option String → TagFault → Prop
  | unknownName {name : String} : name ∉ ["loop", "if", "else"] →
      RefusedFor tag leading name none
        (.unknownName [leading ++ "else", leading ++ "if", leading ++ "loop"])
  | close {name key : String} {v : AttributeValue} {rest : Attributes} : name ∈ ["loop", "if"] →
      tag.isClose = true → tag.attributes = (key, v) :: rest →
      RefusedFor tag leading name (some key) .attributesOnClose
  | loop {key : String} {fault : TagFault} : tag.isClose = false →
      FirstOffence ["iter", "v"] tag.attributes key fault →
      RefusedFor tag leading "loop" (some key) fault
  | missing : tag.isClose = false → TakesAll ["iter", "v"] tag.attributes →
      "iter" ∉ tag.attributes.keys → RefusedFor tag leading "loop" (some "iter") .missing
  | test {key : String} {fault : TagFault} : tag.isClose = false →
      FirstOffence ["i", "iter"] tag.attributes key fault →
      RefusedFor tag leading "if" (some key) fault
  | notOneTest : tag.isClose = false → TakesAll ["i", "iter"] tag.attributes →
      ("i" ∈ tag.attributes.keys ↔ "iter" ∈ tag.attributes.keys) →
      RefusedFor tag leading "if" none .notOneTest
  | notSelfClosing : (tag.isClose = true ∨ tag.isSelfClosing = false) →
      RefusedFor tag leading "else" none .notSelfClosing
  | otherwise {key : String} {fault : TagFault} : tag.isClose = false → tag.isSelfClosing = true →
      FirstOffence [] tag.attributes key fault → RefusedFor tag leading "else" (some key) fault

end Tag

/-! ## Attributes that are taken -/

namespace Options

variable {names : List String} {attributes : Attributes}

theorem lookup_eq_none_iff {key : String} :
    attributes.lookup key = none ↔ key ∉ attributes.keys := by
  rw [List.lookup_eq_none_iff, Attributes.keys, List.mem_map]
  constructor
  · rintro h ⟨a, ha, rfl⟩
    exact bne_iff_ne.1 (h a ha) rfl
  · exact fun h a ha => bne_iff_ne.2 fun he => h ⟨a, ha, he.symm⟩

/-- An attribute that is taken gives a path if it is there. -/
theorem TakesAll.mem_keys_iff (h : TakesAll names attributes) {key : String} :
    key ∈ attributes.keys ↔ ∃ path, Gives attributes key path := by
  constructor
  · intro hkey
    cases hlookup : attributes.lookup key with
    | none => exact absurd hkey (lookup_eq_none_iff.1 hlookup)
    | some v =>
      obtain ⟨path, -, text, rfl, hpath⟩ := h (key, v) (mem_of_lookup hlookup)
      exact ⟨path, text, hlookup, hpath⟩
  · rintro ⟨path, text, hlookup, -⟩
    by_contra hkey
    rw [lookup_eq_none_iff.2 hkey] at hlookup
    cases hlookup

theorem TakesAll.mono {others : List String} (h : TakesAll names attributes)
    (hnames : ∀ a ∈ attributes, a.1 ∈ names → a.1 ∈ others) : TakesAll others attributes := by
  intro a ha
  obtain ⟨path, hkey, htext⟩ := h a ha
  exact ⟨path, hnames a ha hkey, htext⟩

theorem TakesAll.key_mem (h : TakesAll names attributes) {a : String × AttributeValue}
    (ha : a ∈ attributes) : a.1 ∈ names := by
  obtain ⟨-, hkey, -⟩ := h a ha
  exact hkey

/-- The empty list of names takes no attributes. -/
theorem takesAll_nil_iff : TakesAll [] attributes ↔ attributes = [] := by
  constructor
  · intro h
    rw [List.eq_nil_iff_forall_not_mem]
    exact fun a ha => absurd (h.key_mem ha) List.not_mem_nil
  · rintro rfl
    exact fun _ h => absurd h List.not_mem_nil

/-- A value that is not given is none. -/
theorem lookup_of_not_mem_keys {values : List (String × String)}
    (hvalues : ∀ key path, values.lookup key = some path ↔ Gives attributes key path)
    {key : String} (hkey : key ∉ attributes.keys) : values.lookup key = none := by
  rw [Option.eq_none_iff_forall_ne_some]
  intro path hpath
  obtain ⟨text, hlookup, -⟩ := (hvalues key path).1 hpath
  rw [lookup_eq_none_iff.2 hkey] at hlookup
  cases hlookup

theorem collect_of_firstOffence (fields : List OptionField) {tag : Tag} {key : String}
    {fault : TagFault} (h : FirstOffence (namesOf fields) tag.attributes key fault) :
    collect fields tag = .error (.tag tag.name (some key) fault) := by
  unfold collect
  rw [given_of_firstOffence h]
  rfl

/-- A binding is the default one unless another one is given. -/
theorem bindingOf_of_loopBinding {values : List (String × String)}
    (hvalues : ∀ key path, values.lookup key = some path ↔ Gives attributes key path)
    {binding : String} (h : LoopBinding attributes binding) :
    Handler.bindingOf (values.lookup "v" <|> some Part.defaultBinding) = binding := by
  cases h with
  | default hnone =>
    cases hv : values.lookup "v" with
    | none => rfl
    | some v =>
      rw [hnone v ((hvalues "v" v).1 hv)]
      rfl
  | given hgiven hne =>
    rw [(hvalues "v" binding).2 hgiven]
    exact Handler.bindingOf_some hne

theorem exists_loopBinding (attributes : Attributes) :
    ∃ binding, LoopBinding attributes binding := by
  by_cases h : ∃ binding, Gives attributes "v" binding ∧ binding ≠ ""
  · obtain ⟨binding, hgiven, hne⟩ := h
    exact ⟨binding, .given hgiven hne⟩
  · refine ⟨_, .default fun binding hgiven => ?_⟩
    by_contra hne
    exact h ⟨binding, hgiven, hne⟩

end Options

/-! ## Handlers -/

namespace Handler

variable {tag : Tag}

theorem block_eq (tag : Tag) (opening : Part) : block tag opening = opening :: tag.closing := by
  unfold block Tag.closing
  split <;> rfl

theorem resolveLoop_of_given (hclose : tag.isClose = false)
    (htakes : TakesAll ["iter", "v"] tag.attributes) {path binding : String}
    (hpath : Gives tag.attributes "iter" path) (hbinds : LoopBinding tag.attributes binding) :
    resolveLoop tag = .ok (.loop path binding :: tag.closing) := by
  obtain ⟨values, hgiven, hvalues⟩ := given_of_takesAll loopFields tag.name htakes
  have hiter := (hvalues "iter" path).2 hpath
  have hcollect := collect_eq_ok tag hgiven (by
    simp only [loopFields, List.forall_mem_cons, hiter]
    simp)
  rw [← bindingOf_of_loopBinding hvalues hbinds, ← block_eq]
  unfold resolveLoop
  rw [hclose, if_neg Bool.false_ne_true, hcollect]
  simp [loopFields, Options.get, hiter, List.lookup_cons, bind, Except.bind, pure, Except.pure]

theorem resolveLoop_of_missing (hclose : tag.isClose = false)
    (htakes : TakesAll ["iter", "v"] tag.attributes) (hmissing : "iter" ∉ tag.attributes.keys) :
    resolveLoop tag = .error (.tag tag.name (some "iter") .missing) := by
  obtain ⟨values, hgiven, hvalues⟩ := given_of_takesAll loopFields tag.name htakes
  have hiter := lookup_of_not_mem_keys hvalues hmissing
  unfold resolveLoop collect
  rw [hclose, if_neg Bool.false_ne_true, hgiven]
  simp [loopFields, hiter, bind, Except.bind, throw, throwThe, MonadExceptOf.throw]

/-- What a conditional comes to is told by the values of its two attributes. -/
theorem resolveConditional_of_values (hclose : tag.isClose = false)
    {values : List (String × String)}
    (hgiven : given conditionalFields tag.name tag.attributes = .ok values) :
    resolveConditional tag =
      match values.lookup "i", values.lookup "iter" with
      | some path, none => .ok (testPart path false :: tag.closing)
      | none, some path => .ok (testPart path true :: tag.closing)
      | _, _ => .error (.tag tag.name none .notOneTest) := by
  have hcollect := collect_eq_ok tag hgiven (by simp [conditionalFields])
  unfold resolveConditional
  rw [hclose, if_neg Bool.false_ne_true, hcollect]
  cases hi : values.lookup "i" <;> cases hiter : values.lookup "iter" <;>
    simp [conditionalFields, Options.get, hi, hiter, List.lookup_cons, block_eq, bind, Except.bind,
      pure, Except.pure, throw, throwThe, MonadExceptOf.throw]

theorem resolveConditional_of_given (hclose : tag.isClose = false) {key path : String}
    (hkey : key ∈ ["i", "iter"]) (htakes : TakesAll [key] tag.attributes)
    (hpath : Gives tag.attributes key path) :
    resolveConditional tag = .ok (testPart path (key == "iter") :: tag.closing) := by
  have hboth : TakesAll (namesOf conditionalFields) tag.attributes :=
    htakes.mono fun a _ ha => by rwa [List.mem_singleton.1 ha]
  obtain ⟨values, hgiven, hvalues⟩ := given_of_takesAll conditionalFields tag.name hboth
  -- The other attribute is not there, since the tag takes this one alone.
  have hother : ∀ other, other ≠ key → values.lookup other = none := by
    refine fun other hne => lookup_of_not_mem_keys hvalues fun hmem => ?_
    obtain ⟨a, ha, rfl⟩ := List.mem_map.1 hmem
    exact hne (List.mem_singleton.1 (htakes.key_mem ha))
  rw [resolveConditional_of_values hclose hgiven]
  simp only [List.mem_cons, List.not_mem_nil, or_false] at hkey
  rcases hkey with rfl | rfl
  · rw [(hvalues "i" path).2 hpath, hother "iter" (by decide)]
    rfl
  · rw [(hvalues "iter" path).2 hpath, hother "i" (by decide)]
    rfl

theorem resolveConditional_of_notOne (hclose : tag.isClose = false)
    (htakes : TakesAll ["i", "iter"] tag.attributes)
    (hsame : "i" ∈ tag.attributes.keys ↔ "iter" ∈ tag.attributes.keys) :
    resolveConditional tag = .error (.tag tag.name none .notOneTest) := by
  obtain ⟨values, hgiven, hvalues⟩ := given_of_takesAll conditionalFields tag.name htakes
  rw [resolveConditional_of_values hclose hgiven]
  by_cases hi : "i" ∈ tag.attributes.keys
  · obtain ⟨path, hpath⟩ := htakes.mem_keys_iff.1 hi
    obtain ⟨other, hother⟩ := htakes.mem_keys_iff.1 (hsame.1 hi)
    rw [(hvalues "i" path).2 hpath, (hvalues "iter" other).2 hother]
  · rw [lookup_of_not_mem_keys hvalues hi, lookup_of_not_mem_keys hvalues (mt hsame.2 hi)]

end Handler

/-! ## The namespace -/

namespace Registry

theorem append_lt_append {leading a b : String} : leading ++ a < leading ++ b ↔ a < b := by
  show (leading ++ a).toList < (leading ++ b).toList ↔ a.toList < b.toList
  rw [String.toList_append, String.toList_append]
  induction leading.toList with
  | nil => rfl
  | cons c cs ih => simpa using ih

theorem sortedNames_builtin (leading : String) :
    builtin.sortedNames leading = [leading ++ "else", leading ++ "if", leading ++ "loop"] := by
  have hnames : builtin.names = ["loop", "if", "else"] := rfl
  have hif : leading ++ "if" < leading ++ "loop" := append_lt_append.2 (by decide)
  have helse : leading ++ "else" < leading ++ "if" := append_lt_append.2 (by decide)
  unfold sortedNames
  rw [hnames, List.map_cons, List.map_cons, List.map_cons, List.map_nil]
  simp only [List.mergeSort, List.length_cons, List.length_nil, Nat.reduceAdd, Nat.reduceDiv,
    List.MergeSort.Internal.splitInTwo, Nat.zero_add, List.splitAt_eq, List.take_succ_cons,
    List.take_zero, List.drop_succ_cons, List.drop_zero, List.mergeSort_singleton, hif, helse,
    decide_true, Bool.not_true, Bool.false_eq_true, not_false_eq_true, List.cons_merge_cons_neg,
    List.merge_right]

theorem get?_builtin_eq_none {name : String} (h : name ∉ ["loop", "if", "else"]) :
    builtin.get? name = none := by
  have hnames : builtin.map (·.1) = ["loop", "if", "else"] := rfl
  rw [get?, List.lookup_eq_none_iff]
  intro a ha
  refine bne_iff_ne.2 ?_
  rintro rfl
  exact h (hnames ▸ List.mem_map_of_mem ha)

end Registry

namespace Resolver

variable {leading name : String} {tag : Tag}

/-- What follows the leading text is the rest of the name. -/
theorem exists_name_of_prefix (h : leading.toList <+: tag.name.toList) :
    ∃ name, tag.name = leading ++ name := by
  obtain ⟨rest, hrest⟩ := h
  refine ⟨String.ofList rest, ?_⟩
  rw [← String.toList_inj, String.toList_append, String.toList_ofList, hrest]

theorem resolve_of_name {registry : Registry} (hname : tag.name = leading ++ name) :
    (space leading registry).resolve tag =
      match registry.get? name with
      | none => .error (.tag tag.name none (.unknownName (registry.sortedNames leading)))
      | some handler => some <$> handler.resolve tag := by
  have hstarts : leading.toList.isPrefixOf? tag.name.toList = some name.toList := by
    rw [List.isPrefixOf?_eq_some_iff_append_eq, hname, String.toList_append]
  cases hget : registry.get? name with
  | none => simp only [resolve, hstarts, String.ofList_toList, hget]
  | some handler => simp only [resolve, hstarts, String.ofList_toList, hget]

/-- A tag whose name does not start with the leading text is left alone, and no other one is. -/
theorem resolve_eq_none_iff {registry : Registry} :
    (space leading registry).resolve tag = .ok none ↔ ¬ leading.toList <+: tag.name.toList := by
  by_cases hprefix : leading.toList <+: tag.name.toList
  · obtain ⟨name, hname⟩ := exists_name_of_prefix hprefix
    rw [resolve_of_name hname]
    refine iff_of_false ?_ (not_not_intro hprefix)
    split
    · intro h
      cases h
    · rename_i handler _
      cases handler.resolve tag <;> exact nofun
  · refine iff_of_true ?_ hprefix
    have hnone : leading.toList.isPrefixOf? tag.name.toList = none := by
      rw [Option.eq_none_iff_forall_ne_some]
      exact fun rest h => hprefix ⟨rest, List.isPrefixOf?_eq_some_iff_append_eq.1 h⟩
    simp only [resolve, hnone]

/-- What a tag stands for is what the resolver gives. -/
theorem resolve_of_directs (hname : tag.name = leading ++ name) {parts : List Part}
    (h : tag.Directs name parts) :
    (space leading Registry.builtin).resolve tag = .ok (some parts) := by
  rw [resolve_of_name hname]
  cases h with
  | close hmem hclose hnone =>
    simp only [List.mem_cons, List.not_mem_nil, or_false] at hmem
    have hloop : Handler.resolveLoop tag = .ok [.close] := by
      simp [Handler.resolveLoop, Handler.closeParts, hclose, hnone]
    have hif : Handler.resolveConditional tag = .ok [.close] := by
      simp [Handler.resolveConditional, Handler.closeParts, hclose, hnone]
    rcases hmem with rfl | rfl
    · show some <$> Handler.resolveLoop tag = _
      rw [hloop]
      rfl
    · show some <$> Handler.resolveConditional tag = _
      rw [hif]
      rfl
  | loop hclose htakes hpath hbinds =>
    show some <$> Handler.resolveLoop tag = _
    rw [Handler.resolveLoop_of_given hclose htakes hpath hbinds]
    rfl
  | test hclose hkey htakes hpath hhead =>
    show some <$> Handler.resolveConditional tag = _
    rw [Handler.resolveConditional_of_given hclose hkey htakes hpath,
      Handler.testPart_of_head hhead]
    rfl
  | @invertedTest key path rest hclose hkey htakes hpath hrest =>
    show some <$> Handler.resolveConditional tag = _
    have hpart := Handler.testPart_inverted rest (key == "iter")
    rw [← hrest, String.ofList_toList] at hpart
    rw [Handler.resolveConditional_of_given hclose hkey htakes hpath, hpart]
    rfl
  | otherwise hclose hself hnone =>
    show some <$> Handler.resolveElse tag = _
    simp [Handler.resolveElse, hclose, hself, collect, noFields, hnone, given_nil, bind,
      Except.bind, pure, Except.pure]

/-- What a tag is refused for is what the resolver refuses it for. -/
theorem resolve_of_refused (hname : tag.name = leading ++ name) {key : Option String}
    {fault : TagFault} (h : tag.RefusedFor leading name key fault) :
    (space leading Registry.builtin).resolve tag = .error (.tag tag.name key fault) := by
  rw [resolve_of_name hname]
  cases h with
  | unknownName hmem => rw [Registry.get?_builtin_eq_none hmem, Registry.sortedNames_builtin]
  | close hmem hclose hattributes =>
    simp only [List.mem_cons, List.not_mem_nil, or_false] at hmem
    rcases hmem with rfl | rfl
    · show some <$> Handler.resolveLoop tag = _
      simp [Handler.resolveLoop, Handler.closeParts, hclose, hattributes]
    · show some <$> Handler.resolveConditional tag = _
      simp [Handler.resolveConditional, Handler.closeParts, hclose, hattributes]
  | loop hclose hoffence =>
    show some <$> Handler.resolveLoop tag = _
    rw [Handler.resolveLoop, hclose, if_neg Bool.false_ne_true,
      collect_of_firstOffence loopFields hoffence]
    rfl
  | missing hclose htakes hmissing =>
    show some <$> Handler.resolveLoop tag = _
    rw [Handler.resolveLoop_of_missing hclose htakes hmissing]
    rfl
  | test hclose hoffence =>
    show some <$> Handler.resolveConditional tag = _
    rw [Handler.resolveConditional, hclose, if_neg Bool.false_ne_true,
      collect_of_firstOffence conditionalFields hoffence]
    rfl
  | notOneTest hclose htakes hsame =>
    show some <$> Handler.resolveConditional tag = _
    rw [Handler.resolveConditional_of_notOne hclose htakes hsame]
    rfl
  | notSelfClosing hform =>
    show some <$> Handler.resolveElse tag = _
    rcases hform with hform | hform <;> simp [Handler.resolveElse, hform]
  | otherwise hclose hself hoffence =>
    show some <$> Handler.resolveElse tag = _
    have hcollect := collect_of_firstOffence noFields hoffence
    simp [Handler.resolveElse, hclose, hself, hcollect, bind, Except.bind]

end Resolver

/-! ## Every tag has its rule -/

namespace Tag

variable {tag : Tag}

/-- A tag that closes a block has attributes or none. -/
theorem directs_or_refused_close (leading : String) {name : String} (hname : name ∈ ["loop", "if"])
    (hclose : tag.isClose = true) :
    (∃ parts, tag.Directs name parts) ∨ ∃ key fault, tag.RefusedFor leading name key fault := by
  cases hattributes : tag.attributes with
  | nil => exact Or.inl ⟨_, .close hname hclose hattributes⟩
  | cons a rest => exact Or.inr ⟨_, _, .close hname hclose hattributes⟩

theorem directs_or_refused_loop (leading : String) (hclose : tag.isClose = false) :
    (∃ parts, tag.Directs "loop" parts) ∨ ∃ key fault, tag.RefusedFor leading "loop" key fault := by
  rcases takesAll_or_firstOffence ["iter", "v"] tag.attributes with htakes | ⟨key, fault, hoffence⟩
  · by_cases hiter : "iter" ∈ tag.attributes.keys
    · obtain ⟨path, hpath⟩ := htakes.mem_keys_iff.1 hiter
      obtain ⟨binding, hbinding⟩ := exists_loopBinding tag.attributes
      exact Or.inl ⟨_, .loop hclose htakes hpath hbinding⟩
    · exact Or.inr ⟨_, _, .missing hclose htakes hiter⟩
  · exact Or.inr ⟨_, _, .loop hclose hoffence⟩

/-- A conditional with one of its attributes alone has a test. -/
theorem exists_directs_test (hclose : tag.isClose = false) {key other : String}
    (hkey : key ∈ ["i", "iter"]) (htakes : TakesAll [key, other] tag.attributes)
    (hmem : key ∈ tag.attributes.keys) (hother : other ∉ tag.attributes.keys) :
    ∃ parts, tag.Directs "if" parts := by
  have hone : TakesAll [key] tag.attributes := by
    refine htakes.mono fun a ha hnames => ?_
    rcases List.mem_cons.1 hnames with he | he
    · exact List.mem_singleton.2 he
    · exact absurd (List.mem_singleton.1 he ▸ List.mem_map_of_mem ha) hother
  obtain ⟨path, hpath⟩ := htakes.mem_keys_iff.1 hmem
  by_cases hhead : path.toList.head? = some '!'
  · obtain ⟨rest, hrest⟩ := List.head?_eq_some_iff.1 hhead
    exact ⟨_, .invertedTest hclose hkey hone hpath hrest⟩
  · exact ⟨_, .test hclose hkey hone hpath hhead⟩

theorem directs_or_refused_test (leading : String) (hclose : tag.isClose = false) :
    (∃ parts, tag.Directs "if" parts) ∨ ∃ key fault, tag.RefusedFor leading "if" key fault := by
  rcases takesAll_or_firstOffence ["i", "iter"] tag.attributes with htakes | ⟨key, fault, hoffence⟩
  · by_cases hsame : "i" ∈ tag.attributes.keys ↔ "iter" ∈ tag.attributes.keys
    · exact Or.inr ⟨_, _, .notOneTest hclose htakes hsame⟩
    · by_cases hi : "i" ∈ tag.attributes.keys
      · have hiter : "iter" ∉ tag.attributes.keys := fun h => hsame (iff_of_true hi h)
        exact Or.inl (exists_directs_test hclose (by decide) htakes hi hiter)
      · have hiter : "iter" ∈ tag.attributes.keys := by
          by_contra h
          exact hsame (iff_of_false hi h)
        have hswapped : TakesAll ["iter", "i"] tag.attributes :=
          htakes.mono fun _ _ ha => (List.Perm.swap "iter" "i" []).mem_iff.1 ha
        exact Or.inl (exists_directs_test hclose (by decide) hswapped hiter hi)
  · exact Or.inr ⟨_, _, .test hclose hoffence⟩

theorem directs_or_refused_else (tag : Tag) (leading : String) :
    (∃ parts, tag.Directs "else" parts) ∨ ∃ key fault, tag.RefusedFor leading "else" key fault := by
  by_cases hform : tag.isClose = true ∨ tag.isSelfClosing = false
  · exact Or.inr ⟨_, _, .notSelfClosing hform⟩
  · rw [not_or, Bool.not_eq_true, Bool.not_eq_false] at hform
    rcases takesAll_or_firstOffence [] tag.attributes with htakes | ⟨key, fault, hoffence⟩
    · exact Or.inl ⟨_, .otherwise hform.1 hform.2 (takesAll_nil_iff.1 htakes)⟩
    · exact Or.inr ⟨_, _, .otherwise hform.1 hform.2 hoffence⟩

/-- A tag with some name in the namespace stands for something or is refused. -/
theorem directs_or_refused (tag : Tag) (leading name : String) :
    (∃ parts, tag.Directs name parts) ∨ ∃ key fault, tag.RefusedFor leading name key fault := by
  by_cases hknown : name ∈ ["loop", "if", "else"]
  · simp only [List.mem_cons, List.not_mem_nil, or_false] at hknown
    cases hclose : tag.isClose with
    | true =>
      rcases hknown with rfl | rfl | rfl
      · exact directs_or_refused_close leading (by decide) hclose
      · exact directs_or_refused_close leading (by decide) hclose
      · exact directs_or_refused_else tag leading
    | false =>
      rcases hknown with rfl | rfl | rfl
      · exact directs_or_refused_loop leading hclose
      · exact directs_or_refused_test leading hclose
      · exact directs_or_refused_else tag leading
  · exact Or.inr ⟨_, _, .unknownName hknown⟩

/-- A tag that opens a block and closes itself stands for what the open tag does, and the close. -/
theorem Directs.selfClosed {name : String} {parts : List Part}
    (h : ({ tag with isSelfClosing := false } : Tag).Directs name parts)
    (hclose : tag.isClose = false) :
    ({ tag with isSelfClosing := true } : Tag).Directs name (parts ++ [.close]) := by
  cases h with
  | close _ hclosed _ => rw [hclose] at hclosed; cases hclosed
  | loop _ htakes hpath hbinds => exact .loop hclose htakes hpath hbinds
  | test _ hkey htakes hpath hhead => exact .test hclose hkey htakes hpath hhead
  | invertedTest _ hkey htakes hpath hrest => exact .invertedTest hclose hkey htakes hpath hrest
  | otherwise _ hself _ => cases hself

end Tag

namespace Resolver

variable {leading name : String} {tag : Tag}

/-- What a tag with some name in the namespace gives is what it stands for. -/
theorem resolve_eq_some_iff (hname : tag.name = leading ++ name) {parts : List Part} :
    (space leading Registry.builtin).resolve tag = .ok (some parts) ↔ tag.Directs name parts := by
  refine ⟨fun h => ?_, resolve_of_directs hname⟩
  rcases tag.directs_or_refused leading name with ⟨parts', hdirects⟩ | ⟨key, fault, hrefused⟩
  · rw [resolve_of_directs hname hdirects] at h
    cases h
    exact hdirects
  · rw [resolve_of_refused hname hrefused] at h
    cases h

theorem resolve_eq_error_iff (hname : tag.name = leading ++ name) {error : Error} :
    (space leading Registry.builtin).resolve tag = .error error ↔
      ∃ key fault, error = .tag tag.name key fault ∧ tag.RefusedFor leading name key fault := by
  constructor
  · intro h
    rcases tag.directs_or_refused leading name with ⟨parts, hdirects⟩ | ⟨key, fault, hrefused⟩
    · rw [resolve_of_directs hname hdirects] at h
      cases h
    · rw [resolve_of_refused hname hrefused] at h
      cases h
      exact ⟨key, fault, rfl, hrefused⟩
  · rintro ⟨key, fault, rfl, hrefused⟩
    exact resolve_of_refused hname hrefused

/-- What the built-in tags are refused for is a fault of the tag. -/
theorem exists_tag_of_error {error : Error}
    (h : (space leading Registry.builtin).resolve tag = .error error) :
    ∃ key fault, error = .tag tag.name key fault := by
  by_cases hprefix : leading.toList <+: tag.name.toList
  · obtain ⟨name, hname⟩ := exists_name_of_prefix hprefix
    obtain ⟨key, fault, herror, -⟩ := (resolve_eq_error_iff hname).1 h
    exact ⟨key, fault, herror⟩
  · rw [resolve_eq_none_iff.2 hprefix] at h
    cases h

/-- A tag is left alone exactly if its name does not start with the leading text of the namespace.
Of the others, those that stand for something give just that, those that are refused are refused
for just that, with the tag's name and the attribute at fault, and there are no others.  A tag that
opens a block and closes itself gives what the open tag does, and the close. -/
theorem resolve_exact (leading : String) (tag : Tag) :
    ((space leading Registry.builtin).resolve tag = .ok none ↔
      ¬ leading.toList <+: tag.name.toList) ∧
    ∀ name, tag.name = leading ++ name →
      (∀ parts, (space leading Registry.builtin).resolve tag = .ok (some parts) ↔
        tag.Directs name parts) ∧
      (∀ error, (space leading Registry.builtin).resolve tag = .error error ↔
        ∃ key fault, error = .tag tag.name key fault ∧ tag.RefusedFor leading name key fault) ∧
      ((¬ ∃ parts, tag.Directs name parts) ↔ ∃ key fault, tag.RefusedFor leading name key fault) ∧
      (tag.isClose = false → ∀ parts,
        (space leading Registry.builtin).resolve { tag with isSelfClosing := false } =
          .ok (some parts) →
        (space leading Registry.builtin).resolve { tag with isSelfClosing := true } =
          .ok (some (parts ++ [.close]))) := by
  refine ⟨resolve_eq_none_iff, fun name hname => ?_⟩
  refine ⟨fun parts => resolve_eq_some_iff hname, fun error => resolve_eq_error_iff hname, ?_, ?_⟩
  · refine ⟨(tag.directs_or_refused leading name).resolve_left, ?_⟩
    rintro ⟨key, fault, hrefused⟩ ⟨parts, hdirects⟩
    have hsame := (resolve_of_directs hname hdirects).symm.trans (resolve_of_refused hname hrefused)
    cases hsame
  · intro hclose parts h
    have hopen : ({ tag with isSelfClosing := false } : Tag).Directs name parts := by
      refine (resolve_eq_some_iff ?_).1 h
      exact hname
    refine resolve_of_directs ?_ (hopen.selfClosed hclose)
    exact hname

/-- A loop over the expression of a marker between blanks, with an empty binding, and a conditional
with a word too much in front of a test without a value. -/
theorem resolve_exact_samples :
    (space "t-" Registry.builtin).resolve ⟨"t-loop",
        [("v", .text ""), ("iter", .text " \x7b\x7b a.b \x7d\x7d\n")], false, true⟩ =
      .ok (some [.loop "a.b" "_", .close]) ∧
    (space "t-" Registry.builtin).resolve
        ⟨"t-if", [("i", .text "a"), ("x", .present), ("iter", .present)], false, false⟩ =
      .error (.tag "t-if" (some "x") .notAllowed) := by
  have hempty : StandsFor "" "" := unwrap?_eq_some_iff.1 (by with_unfolding_all rfl)
  have hpath : StandsFor " \x7b\x7b a.b \x7d\x7d\n" "a.b" :=
    unwrap?_eq_some_iff.1 (by with_unfolding_all rfl)
  have hplain : StandsFor "a" "a" := unwrap?_eq_some_iff.1 (by with_unfolding_all rfl)
  constructor
  · refine ((resolve_exact "t-" _).2 "loop" rfl).1 _ |>.2
      (.loop rfl ?_ ⟨_, rfl, hpath⟩ (.default ?_))
    · exact List.forall_mem_cons.2 ⟨⟨"", by decide, "", rfl, hempty⟩,
        List.forall_mem_singleton.2 ⟨"a.b", by decide, _, rfl, hpath⟩⟩
    · rintro binding ⟨text, htext, hbinding⟩
      cases htext
      exact hbinding.unique hempty
  · refine ((resolve_exact "t-" _).2 "if" rfl).2.1 _ |>.2 ⟨_, _, rfl, .test rfl ?_⟩
    exact ⟨[("i", .text "a")], .present, [("iter", .present)], rfl,
      List.forall_mem_singleton.2 ⟨"a", by decide, "a", rfl, hplain⟩, .notAllowed (by decide)⟩

end Resolver
end HtmlTemplate
