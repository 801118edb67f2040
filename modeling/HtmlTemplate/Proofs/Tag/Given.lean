import HtmlTemplate.Proofs.Except
import HtmlTemplate.Proofs.Scan.Cutting
import HtmlTemplate.Proofs.Tag.Directive

/-!
# Given — the attributes that a directive tag takes

A directive tag goes through its attributes in source order.  Each has to be one of those that it
takes, with a value that stands for a path (`Options.StandsFor`).  Either all of them are, and each
gives its path (`Options.given_of_takesAll`), or there is a first one that is not, and the tag is
refused for it (`Options.given_of_firstOffence`).
-/

namespace HtmlTemplate

open Text Marker

namespace Options

/-! ## What a value stands for -/

/-- The path that a value stands for: the value itself if it holds no opening braces, and the
expression of a marker that has nothing but blanks around it. -/
inductive StandsFor : String → String → Prop
  | plain {value : String} : ¬ ['{', '{'] <:+: value.toList → StandsFor value (stripText value)
  | marker {front expression back : List Char} : (∀ c ∈ front, isBlank c = true) →
      Closed expression → (∀ c ∈ back, isBlank c = true) →
      StandsFor (String.ofList (front ++ '{' :: '{' :: (expression ++ '}' :: '}' :: back)))
        (String.ofList (strip expression))

theorem not_mem_of_blank {cs : List Char} (h : ∀ c ∈ cs, isBlank c = true) : '{' ∉ cs :=
  fun hmem => absurd (h '{' hmem) (by decide)

theorem ofText_single {front expression back : List Char} (hfront : ∀ c ∈ front, isBlank c = true)
    (hexpression : Closed expression) (hback : ∀ c ∈ back, isBlank c = true) :
    Pieces.ofText (front ++ '{' :: '{' :: (expression ++ '}' :: '}' :: back)) =
      ⟨[(front, expression)], back⟩ := by
  rw [Pieces.ofText_literal_marker (hasOpening_of_not_mem (not_mem_of_blank hfront))
      (fun h => not_mem_of_blank hfront (List.mem_of_getLast? h)) (hexpression.read back),
    Pieces.ofText_of_not_mem (not_mem_of_blank hback)]

theorem unwrap?_eq_some_iff {value path : String} :
    unwrap? value = some path ↔ StandsFor value path := by
  constructor
  · intro h
    unfold unwrap? at h
    split at h
    · rename_i hplain
      cases h
      rw [Bool.not_eq_true', Bool.eq_false_iff] at hplain
      exact .plain (mt hasOpening_iff.2 hplain)
    · split at h
      · rename_i front expression back hpieces
        split at h
        · rename_i hblank
          cases h
          rw [Bool.and_eq_true, List.all_eq_true, List.all_eq_true] at hblank
          have hclosed := Pieces.closed_marked value.toList
          have htext := Pieces.text_ofText value.toList
          rw [hpieces] at hclosed htext
          have hvalue : value =
              String.ofList (front ++ '{' :: '{' :: (expression ++ '}' :: '}' :: back)) := by
            rw [← String.toList_inj, String.toList_ofList, ← htext]
            simp [Pieces.text]
          rw [hvalue]
          exact .marker hblank.1 (hclosed _ List.mem_cons_self) hblank.2
        · cases h
      · cases h
  · rintro (hplain | ⟨hfront, hexpression, hback⟩)
    · have hnone : hasOpening value.toList = false :=
        Bool.eq_false_iff.2 (mt hasOpening_iff.1 hplain)
      unfold unwrap?
      rw [hnone]
      rfl
    · rename_i front expression back
      have hopening :
          hasOpening (front ++ '{' :: '{' :: (expression ++ '}' :: '}' :: back)) = true :=
        (hasOpening_append _ _).2 (Or.inr (Or.inl rfl))
      unfold unwrap?
      rw [String.toList_ofList, hopening, ofText_single hfront hexpression hback]
      dsimp only
      rw [List.all_eq_true.2 hfront, List.all_eq_true.2 hback]
      rfl

/-- A value stands for one path at most. -/
theorem StandsFor.unique {value path other : String} (h : StandsFor value path)
    (h' : StandsFor value other) : path = other :=
  Option.some.inj ((unwrap?_eq_some_iff.2 h).symm.trans (unwrap?_eq_some_iff.2 h'))

/-! ## One attribute -/

/-- Whether an attribute is one of the names, and its value stands for a path. -/
def Takes (names : List String) (a : String × AttributeValue) (path : String) : Prop :=
  a.1 ∈ names ∧ ∃ text, a.2 = .text text ∧ StandsFor text path

/-- What a tag that takes attributes of the names refuses an attribute for. -/
inductive BreaksRules (names : List String) : String × AttributeValue → TagFault → Prop
  | notAllowed {key : String} {v : AttributeValue} : key ∉ names →
      BreaksRules names (key, v) .notAllowed
  | needsValue {key : String} : key ∈ names → BreaksRules names (key, .present) .needsValue
  | notOnePath {key text : String} : key ∈ names → (∀ path, ¬ StandsFor text path) →
      BreaksRules names (key, .text text) (.notOnePath text)

/-- The names of the attributes that a tag declares. -/
def namesOf (fields : List OptionField) : List String := fields.map (·.name)

section Attribute

variable {fields : List OptionField} {tag key : String} {v : AttributeValue}

theorem any_iff_mem_namesOf : fields.any (·.name = key) = true ↔ key ∈ namesOf fields := by
  simp [namesOf]

theorem value_of_takes {path : String} (h : Takes (namesOf fields) (key, v) path) :
    value fields tag key v = .ok path := by
  obtain ⟨hkey, text, rfl, hpath⟩ := h
  unfold value
  rw [any_iff_mem_namesOf.2 hkey]
  simp [unwrap?_eq_some_iff.2 hpath]

theorem value_of_breaksRules {fault : TagFault} (h : BreaksRules (namesOf fields) (key, v) fault) :
    value fields tag key v = .error (.tag tag (some key) fault) := by
  unfold value
  cases h with
  | notAllowed hkey => simp [Bool.eq_false_iff.2 (mt any_iff_mem_namesOf.1 hkey)]
  | needsValue hkey => rw [any_iff_mem_namesOf.2 hkey]; rfl
  | @notOnePath _ text hkey hpath =>
    have hnone : unwrap? text = none := by
      rw [Option.eq_none_iff_forall_ne_some]
      exact fun path h => hpath path (unwrap?_eq_some_iff.1 h)
    rw [any_iff_mem_namesOf.2 hkey]
    simp [hnone]

/-- An attribute is taken or refused. -/
theorem takes_or_breaksRules (names : List String) (a : String × AttributeValue) :
    (∃ path, Takes names a path) ∨ ∃ fault, BreaksRules names a fault := by
  obtain ⟨key, v⟩ := a
  by_cases hkey : key ∈ names
  · cases v with
    | present => exact Or.inr ⟨_, .needsValue hkey⟩
    | text text =>
      by_cases hpath : ∃ path, StandsFor text path
      · obtain ⟨path, hpath⟩ := hpath
        exact Or.inl ⟨path, hkey, text, rfl, hpath⟩
      · exact Or.inr ⟨_, .notOnePath hkey (not_exists.1 hpath)⟩
  · exact Or.inr ⟨_, .notAllowed hkey⟩

end Attribute

/-! ## All attributes -/

/-- Whether every attribute is one of the names, with a value that stands for a path. -/
def TakesAll (names : List String) (attributes : Attributes) : Prop :=
  ∀ a ∈ attributes, ∃ path, Takes names a path

/-- Whether the first attribute that is not taken has the key, and what it is refused for. -/
def FirstOffence (names : List String) (attributes : Attributes) (key : String)
    (fault : TagFault) : Prop :=
  ∃ before v after, attributes = before ++ (key, v) :: after ∧ TakesAll names before ∧
    BreaksRules names (key, v) fault

/-- The path that an attribute gives. -/
def Gives (attributes : Attributes) (key path : String) : Prop :=
  ∃ text, attributes.lookup key = some (.text text) ∧ StandsFor text path

section Attributes

variable {fields : List OptionField} {tag : String} {attributes : Attributes}

theorem takesAll_or_firstOffence (names : List String) (attributes : Attributes) :
    TakesAll names attributes ∨ ∃ key fault, FirstOffence names attributes key fault := by
  induction attributes with
  | nil => exact Or.inl fun _ h => absurd h List.not_mem_nil
  | cons a rest ih =>
    rcases takes_or_breaksRules names a with hfirst | ⟨fault, hfirst⟩
    · rcases ih with hall | ⟨key, fault, before, v, after, rfl, hbefore, hoffence⟩
      · exact Or.inl (List.forall_mem_cons.2 ⟨hfirst, hall⟩)
      · exact Or.inr ⟨key, fault, a :: before, v, after, rfl,
          List.forall_mem_cons.2 ⟨hfirst, hbefore⟩, hoffence⟩
    · exact Or.inr ⟨a.1, fault, [], a.2, rest, rfl, fun _ h => absurd h List.not_mem_nil, hfirst⟩

/-- If all attributes are taken, each gives its path. -/
theorem given_of_takesAll (fields : List OptionField) (tag : String)
    (h : TakesAll (namesOf fields) attributes) :
    ∃ values, given fields tag attributes = .ok values ∧
      ∀ key path, values.lookup key = some path ↔ Gives attributes key path := by
  induction attributes with
  | nil => exact ⟨[], rfl, fun key path => by simp [Gives]⟩
  | cons a rest ih =>
    obtain ⟨key, v⟩ := a
    obtain ⟨⟨path, htakes⟩, hrest⟩ := List.forall_mem_cons.1 h
    obtain ⟨values, hvalues, hlookup⟩ := ih hrest
    refine ⟨_, given_cons (value_of_takes htakes) hvalues, fun other path' => ?_⟩
    obtain ⟨-, text, rfl, hpath⟩ := htakes
    by_cases he : other = key
    · subst he
      simp only [Gives, List.lookup_cons_self, Option.some.injEq, AttributeValue.text.injEq]
      constructor
      · rintro rfl
        exact ⟨text, rfl, hpath⟩
      · rintro ⟨_, rfl, hpath'⟩
        exact hpath.unique hpath'
    · unfold Gives
      rw [lookup_cons_ne he, lookup_cons_ne he]
      exact hlookup other path'

/-- If there is a first attribute that is not taken, the tag is refused for it. -/
theorem given_of_firstOffence {key : String} {fault : TagFault}
    (h : FirstOffence (namesOf fields) attributes key fault) :
    given fields tag attributes = .error (.tag tag (some key) fault) := by
  obtain ⟨before, v, after, rfl, hbefore, hoffence⟩ := h
  induction before with
  | nil =>
    rw [List.nil_append, given, value_of_breaksRules hoffence]
    rfl
  | cons a before ih =>
    obtain ⟨⟨path, htakes⟩, hrest⟩ := List.forall_mem_cons.1 hbefore
    rw [List.cons_append, given, value_of_takes htakes, ih hrest]
    rfl

end Attributes
end Options
end HtmlTemplate
