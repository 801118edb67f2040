import HtmlTemplate.Proofs.Scan.Tiling
import HtmlTemplate.Proofs.Scope.Reference
import Mathlib.Data.List.Induction

/-!
# Grammar — tags as they are written, and how they are read

A tag is written as a name, attributes with blanks in front of each, and an ending.  An attribute is
a key alone, or a key with a bare, a quoted or a braced value.  The scanner takes just the text of a
tag and asks the reader of tags about the tag that the text stands for (`Scan.call_written`).
-/

namespace HtmlTemplate

open Text

/-! ## Tags as they are written -/

/-- What is written behind the key of an attribute. -/
inductive WrittenValue where
  | absent
  | bare (value : List Char)
  | quoted (value : List Char)
  | braced (expression : List Char)
  deriving DecidableEq, Repr

structure WrittenAttribute where
  (blanks key : List Char)
  value : WrittenValue
  deriving DecidableEq, Repr

structure WrittenTag where
  isClose : Bool
  name : List Char
  attributes : List WrittenAttribute
  /-- What stands before the ending. -/
  blanks : List Char
  isSelfClosing : Bool
  deriving DecidableEq, Repr

namespace WrittenValue

/-- The text behind the key. -/
def text : WrittenValue → List Char
  | absent => []
  | bare value => '=' :: value
  | quoted value => '=' :: '"' :: value ++ ['"']
  | braced expression => '=' :: '{' :: '{' :: expression ++ ['}', '}']

/-- The value that is written: a braced one keeps its braces. -/
def meant : WrittenValue → AttributeValue
  | absent => .present
  | bare value => .text (String.ofList value)
  | quoted value => .text (String.ofList value)
  | braced expression => .text (String.ofList ('{' :: '{' :: expression ++ ['}', '}']))

/-- Whether the text can be told from what stands behind it, and from the other forms. -/
def Valid : WrittenValue → Prop
  | absent => True
  | bare value =>
    (∀ c ∈ value, isBlank c = false ∧ c ≠ '/' ∧ c ≠ '>') ∧
      value.head? ≠ some '"' ∧ ¬ ['{', '{'] <+: value
  | quoted value => '"' ∉ value ∧ '\n' ∉ value
  | braced expression =>
    '\n' ∉ expression ∧ ¬ ['}', '}'] <:+: expression ∧ expression.getLast? ≠ some '}'

end WrittenValue

namespace WrittenAttribute

def text (a : WrittenAttribute) : List Char := a.blanks ++ a.key ++ a.value.text

/-- The key and the value that are written. -/
def setting (a : WrittenAttribute) : String × AttributeValue :=
  (String.ofList a.key, a.value.meant)

structure Valid (a : WrittenAttribute) : Prop where
  spaced : a.blanks ≠ []
  blanks : ∀ c ∈ a.blanks, isBlank c = true
  keyed : a.key ≠ []
  key : ∀ c ∈ a.key, isBlank c = false ∧ c ≠ '/' ∧ c ≠ '>' ∧ c ≠ '='
  value : a.value.Valid

end WrittenAttribute

namespace WrittenTag

variable (t : WrittenTag)

def ending : List Char := if t.isSelfClosing then ['/', '>'] else ['>']

/-- What stands behind the name. -/
def afterName : List Char :=
  t.attributes.flatMap WrittenAttribute.text ++ (t.blanks ++ t.ending)

def text : List Char := '<' :: (if t.isClose then ['/'] else []) ++ (t.name ++ t.afterName)

/-- The keys and values in the order in which they are written. -/
def settings : List (String × AttributeValue) := t.attributes.map WrittenAttribute.setting

/-- The tag that is written. -/
def tag : Tag :=
  ⟨String.ofList t.name, Attributes.ofList t.settings, t.isClose, t.isSelfClosing⟩

structure Valid : Prop where
  named : t.name ≠ []
  name : ∀ c ∈ t.name, isBlank c = false ∧ c ≠ '>'
  noSlash : t.name.getLast? ≠ some '/'
  opening : t.isClose = false → ∃ c ∈ t.name.head?, isWordChar c = true
  attributes : ∀ a ∈ t.attributes, a.Valid
  blanks : ∀ c ∈ t.blanks, isBlank c = true

end WrittenTag

/-! ## Attributes by their keys -/

namespace Attributes

variable {key : String} {value : AttributeValue}

theorem map_fst_set (attributes : Attributes) :
    (set key value attributes).map (·.1) =
      if key ∈ attributes.map (·.1) then attributes.map (·.1)
      else attributes.map (·.1) ++ [key] := by
  induction attributes with
  | nil => rfl
  | cons first rest ih =>
    obtain ⟨k, v⟩ := first
    by_cases hk : k = key
    · simp [set, hk]
    · by_cases hmem : key ∈ rest.map (·.1)
      · have hmem' : key ∈ ((k, v) :: rest).map (·.1) := List.mem_cons_of_mem k hmem
        rw [set, if_neg hk, List.map_cons, ih, if_pos hmem, if_pos hmem', List.map_cons]
      · have hmem' : key ∉ ((k, v) :: rest).map (·.1) :=
          List.not_mem_cons_of_ne_of_not_mem (Ne.symm hk) hmem
        rw [set, if_neg hk, List.map_cons, ih, if_neg hmem, if_neg hmem', List.map_cons,
          List.cons_append]

theorem lookup_set (attributes : Attributes) (k : String) :
    (set key value attributes).lookup k = if k = key then some value else attributes.lookup k := by
  induction attributes with
  | nil =>
    by_cases hk : k = key
    · rw [if_pos hk, hk, set, List.lookup_cons_self]
    · rw [if_neg hk, set, lookup_cons_ne hk]
  | cons first rest ih =>
    obtain ⟨k', v⟩ := first
    by_cases hk' : k' = key
    · subst hk'
      rw [set, if_pos rfl]
      by_cases hk : k = k'
      · rw [if_pos hk, hk, List.lookup_cons_self]
      · rw [if_neg hk, lookup_cons_ne hk, lookup_cons_ne hk]
    · rw [set, if_neg hk']
      by_cases hk : k = k'
      · rw [hk, if_neg hk', List.lookup_cons_self, List.lookup_cons_self]
      · rw [lookup_cons_ne hk, lookup_cons_ne hk, ih]

/-- The keys come in the order in which each of them is given first. -/
theorem map_fst_ofList (settings : List (String × AttributeValue)) :
    (ofList settings).map (·.1) = (settings.map (·.1)).eraseDups := by
  induction settings using List.reverseRecOn with
  | nil => rfl
  | append_singleton settings setting ih =>
    have hset : ofList (settings ++ [setting]) = set setting.1 setting.2 (ofList settings) := by
      simp [ofList]
    rw [hset, map_fst_set, ih, List.map_append, List.map_singleton, eraseDups_concat]

/-- A key has the value that it is given last. -/
theorem lookup_ofList (settings : List (String × AttributeValue)) (k : String) :
    (ofList settings).lookup k = settings.reverse.lookup k := by
  induction settings using List.reverseRecOn with
  | nil => rfl
  | append_singleton settings setting ih =>
    have hset : ofList (settings ++ [setting]) = set setting.1 setting.2 (ofList settings) := by
      simp [ofList]
    rw [hset, lookup_set, ih, List.reverse_append, List.reverse_singleton, List.singleton_append,
      List.lookup_cons]
    by_cases hk : k = setting.1
    · simp [hk]
    · simp [hk, beq_false_of_ne hk]

end Attributes

/-! ## Reading what is written -/

namespace Marker

theorem readExpression_cons {c : Char} {cs : List Char} (hline : c ≠ '\n')
    (hclose : ¬ (c = '}' ∧ cs.head? = some '}')) :
    readExpression (c :: cs) =
      (readExpression cs).map fun (expression, rest) => (c :: expression, rest) := by
  rw [readExpression, if_neg (by simpa using hline)]
  rintro rest rfl rfl
  exact hclose ⟨rfl, rfl⟩

/-- An expression ends with the first pair of closing braces behind it. -/
theorem readExpression_append {e rest : List Char} (hline : '\n' ∉ e)
    (hclose : ¬ ['}', '}'] <:+: e) (hlast : e.getLast? ≠ some '}') :
    readExpression (e ++ '}' :: '}' :: rest) = some (e, rest) := by
  induction e with
  | nil => rfl
  | cons c e ih =>
    obtain ⟨hc, hline⟩ := not_or.1 (mt List.mem_cons.2 hline)
    have hinner : ¬ (c = '}' ∧ (e ++ '}' :: '}' :: rest).head? = some '}') := by
      rintro ⟨rfl, hhead⟩
      cases e with
      | nil => exact hlast rfl
      | cons d e =>
        obtain rfl : d = '}' := by simpa using hhead
        exact hclose ⟨[], e, rfl⟩
    have hlast' : e.getLast? ≠ some '}' := by
      intro h
      apply hlast
      rw [List.getLast?_cons, h]
      rfl
    rw [List.cons_append, readExpression_cons (Ne.symm hc) hinner,
      ih hline (fun h => hclose (h.trans (List.infix_cons (List.infix_refl _)))) hlast']
    rfl

end Marker

namespace Chunk

/-- A run of characters ends where one stands that it cannot hold. -/
theorem takeWhile_run {p : Char → Bool} {run rest : List Char} (hrun : ∀ c ∈ run, p c = true)
    (hrest : rest.head?.any p = false) : (run ++ rest).takeWhile p = run := by
  rw [List.takeWhile_append_of_pos hrun]
  cases rest with
  | nil => simp
  | cons c rest =>
    have hc : p c = false := hrest
    rw [List.takeWhile_cons_of_neg (by simp [hc]), List.append_nil]

theorem dropWhile_run {p : Char → Bool} {run rest : List Char} (hrun : ∀ c ∈ run, p c = true)
    (hrest : rest.head?.any p = false) : (run ++ rest).dropWhile p = rest := by
  rw [List.dropWhile_append_of_pos hrun]
  cases rest with
  | nil => rfl
  | cons c rest =>
    have hc : p c = false := hrest
    rw [List.dropWhile_cons_of_neg (by simp [hc])]

theorem readQuotedValue_append {value rest : List Char} (hquote : '"' ∉ value)
    (hline : '\n' ∉ value) : readQuotedValue (value ++ '"' :: rest) = some (value, rest) := by
  induction value with
  | nil => rfl
  | cons c value ih =>
    obtain ⟨hc, hquote⟩ := not_or.1 (mt List.mem_cons.2 hquote)
    obtain ⟨hn, hline⟩ := not_or.1 (mt List.mem_cons.2 hline)
    rw [List.cons_append, readQuotedValue, if_neg (by simpa using Ne.symm hc),
      if_neg (by simpa using Ne.symm hn), ih hquote hline]
    rfl

/-- A place where a key or a bare value is at its end. -/
def Stops (cs : List Char) : Prop :=
  ∃ c tail, cs = c :: tail ∧ (isBlank c = true ∨ c = '/' ∨ c = '>')

theorem Stops.not_isBareChar {rest : List Char} (h : Stops rest) :
    rest.head?.any isBareChar = false := by
  obtain ⟨c, tail, rfl, hc⟩ := h
  rcases hc with hc | rfl | rfl
  · simp [isBareChar, hc]
  · rfl
  · rfl

theorem readValue_quoted {value rest : List Char} (hv : (WrittenValue.quoted value).Valid) :
    readValue ('"' :: (value ++ '"' :: rest)) = (value, rest) := by
  rw [readValue, readQuotedValue_append hv.1 hv.2]

theorem readValue_braced {e rest : List Char} (hv : (WrittenValue.braced e).Valid) :
    readValue ('{' :: '{' :: (e ++ '}' :: '}' :: rest)) =
      ('{' :: '{' :: e ++ ['}', '}'], rest) := by
  rw [readValue, Marker.readExpression_append hv.1 hv.2.1 hv.2.2]

theorem readValue_of_bare {cs : List Char} (hquote : cs.head? ≠ some '"')
    (hbraces : ¬ ['{', '{'] <+: cs) :
    readValue cs = (cs.takeWhile isBareChar, cs.dropWhile isBareChar) := by
  rw [readValue]
  · rintro tail rfl
    exact hbraces ⟨tail, rfl⟩
  · rintro tail rfl
    exact hquote rfl

theorem readValue_bare {value rest : List Char} (hv : (WrittenValue.bare value).Valid)
    (hstops : Stops rest) : readValue (value ++ rest) = (value, rest) := by
  obtain ⟨hchars, hquote, hbraces⟩ := hv
  have hstop := hstops.not_isBareChar
  obtain ⟨c, tail, rfl, -⟩ := hstops
  have hbare : ∀ c ∈ value, isBareChar c = true := by
    intro c hc
    obtain ⟨hblank, hslash, hclose⟩ := hchars c hc
    simp [isBareChar, hblank, hslash, hclose]
  -- What stands behind the value does not make it one of another form.
  have hquote' : (value ++ c :: tail).head? ≠ some '"' := by
    cases value with
    | nil =>
      rintro h
      obtain rfl := Option.some.inj h
      cases hstop
    | cons d value => exact hquote
  have hbraces' : ¬ ['{', '{'] <+: value ++ c :: tail := by
    have hne : c ≠ '{' := by
      rintro rfl
      cases hstop
    intro h
    cases value with
    | nil => exact hne (List.cons_prefix_cons.1 h).1.symm
    | cons d value =>
      obtain ⟨rfl, hsecond⟩ := List.cons_prefix_cons.1 h
      cases value with
      | nil => exact hne (List.cons_prefix_cons.1 hsecond).1.symm
      | cons e value =>
        obtain ⟨rfl, -⟩ := List.cons_prefix_cons.1 hsecond
        exact hbraces ⟨value, rfl⟩
  rw [readValue_of_bare hquote' hbraces', takeWhile_run hbare hstop, dropWhile_run hbare hstop]

/-! ## Attributes -/

theorem readAttributes_of_value {cs after : List Char} (attributes : Attributes)
    (h : (cs.dropWhile isBlank).dropWhile isKeyChar = '=' :: after) :
    readAttributes attributes cs =
      readAttributes
        (attributes.set (String.ofList ((cs.dropWhile isBlank).takeWhile isKeyChar))
          (.text (String.ofList (readValue after).1)))
        (readValue after).2 := by
  rw [readAttributes]
  dsimp only
  split
  · rename_i h'
    cases h.symm.trans h'
    rfl
  · rename_i hno
    exact absurd h (hno after)

theorem readAttributes_of_key {cs rest : List Char} (attributes : Attributes)
    (h : (cs.dropWhile isBlank).dropWhile isKeyChar = rest) (hno : rest.head? ≠ some '=') :
    readAttributes attributes cs =
      if rest.length < cs.length then
        readAttributes
          (attributes.setPresent (String.ofList ((cs.dropWhile isBlank).takeWhile isKeyChar))) rest
      else (attributes, cs) := by
  rw [readAttributes]
  dsimp only
  split
  · rename_i h'
    rw [← h, h'] at hno
    exact absurd rfl hno
  · rw [h]

theorem isBlank_of_isKeyChar {c : Char} (h : isKeyChar c = true) : isBlank c = false := by
  simp only [isKeyChar, Bool.and_eq_true, Bool.not_eq_true'] at h
  exact h.1.1.1

theorem Stops.not_isKeyChar {rest : List Char} (h : Stops rest) :
    rest.head?.any isKeyChar = false ∧ rest.head? ≠ some '=' := by
  obtain ⟨c, tail, rfl, hc⟩ := h
  rcases hc with hc | rfl | rfl
  · refine ⟨by simp [isKeyChar, hc], ?_⟩
    rintro he
    obtain rfl := Option.some.inj he
    revert hc
    decide
  · exact ⟨rfl, by simp⟩
  · exact ⟨rfl, by simp⟩

section Attributes

variable {blanks key rest : List Char} (hb : ∀ c ∈ blanks, isBlank c = true)
  (hk : ∀ c ∈ key, isKeyChar c = true)

include hb hk

/-- The blanks before a key are dropped. -/
theorem dropWhile_blanks (hkey : key = [] → rest.head?.any isBlank = false) :
    (blanks ++ (key ++ rest)).dropWhile isBlank = key ++ rest := by
  apply dropWhile_run hb
  cases key with
  | nil => exact hkey rfl
  | cons c key => exact isBlank_of_isKeyChar (hk c List.mem_cons_self)

theorem readAttributes_value (attributes : Attributes) (after : List Char) :
    readAttributes attributes (blanks ++ (key ++ '=' :: after)) =
      readAttributes
        (attributes.set (String.ofList key) (.text (String.ofList (readValue after).1)))
        (readValue after).2 := by
  have hdrop : (blanks ++ (key ++ '=' :: after)).dropWhile isBlank = key ++ '=' :: after :=
    dropWhile_blanks hb hk fun _ => rfl
  have hrest : ((blanks ++ (key ++ '=' :: after)).dropWhile isBlank).dropWhile isKeyChar =
      '=' :: after := by
    rw [hdrop, dropWhile_run hk rfl]
  rw [readAttributes_of_value attributes hrest, hdrop, takeWhile_run hk rfl]

/-- A key is read, or blanks alone, which are no attribute. -/
theorem readAttributes_key (attributes : Attributes) (hne : blanks ++ key ≠ [])
    (hrest : Stops rest) (hkey : key = [] → rest.head?.any isBlank = false) :
    readAttributes attributes (blanks ++ (key ++ rest)) =
      readAttributes (attributes.setPresent (String.ofList key)) rest := by
  obtain ⟨hstop, hequals⟩ := hrest.not_isKeyChar
  have hdrop := dropWhile_blanks hb hk hkey
  have hlength : rest.length < (blanks ++ (key ++ rest)).length := by
    rw [← List.append_assoc, List.length_append]
    exact Nat.lt_add_of_pos_left (List.length_pos_iff.2 hne)
  have hread : ((blanks ++ (key ++ rest)).dropWhile isBlank).dropWhile isKeyChar = rest := by
    rw [hdrop, dropWhile_run hk hstop]
  rw [readAttributes_of_key attributes hread hequals, if_pos hlength, hdrop,
    takeWhile_run hk hstop]

end Attributes

/-- There is no attribute to read at an ending. -/
theorem readAttributes_ending (attributes : Attributes) {c : Char} (tail : List Char)
    (hc : c = '/' ∨ c = '>') : readAttributes attributes (c :: tail) = (attributes, c :: tail) := by
  have hstops : Stops (c :: tail) := ⟨c, tail, rfl, Or.inr hc⟩
  have hblank : isBlank c = false := by
    rcases hc with rfl | rfl <;> rfl
  obtain ⟨hkey, hequals⟩ := hstops.not_isKeyChar
  have hread : ((c :: tail).dropWhile isBlank).dropWhile isKeyChar = c :: tail := by
    rw [List.dropWhile_cons_of_neg (by simp [hblank]),
      List.dropWhile_cons_of_neg (by simpa using hkey)]
  rw [readAttributes_of_key attributes hread hequals, if_neg (Nat.lt_irrefl _)]

/-- An attribute is read as it is written, and what stands behind it is left. -/
theorem readAttributes_attribute {a : WrittenAttribute} (ha : a.Valid) (attributes : Attributes)
    {rest : List Char} (hrest : Stops rest) :
    readAttributes attributes (a.text ++ rest) =
      readAttributes (attributes.set a.setting.1 a.setting.2) rest := by
  obtain ⟨blanks, key, value⟩ := a
  obtain ⟨hspaced, hblanks, hkeyed, hkey, hvalue⟩ := ha
  have hk : ∀ c ∈ key, isKeyChar c = true := by
    intro c hc
    obtain ⟨hblank, hslash, hclose, hequals⟩ := hkey c hc
    simp [isKeyChar, hblank, hslash, hclose, hequals]
  have hne : blanks ++ key ≠ [] := fun h => hspaced (List.append_eq_nil_iff.1 h).1
  unfold WrittenAttribute.text WrittenAttribute.setting
  cases value with
  | absent =>
    have hempty : (String.ofList key).isEmpty = false := by
      simp [String.isEmpty_eq_false_iff, hkeyed]
    rw [WrittenValue.text, List.append_nil, List.append_assoc,
      readAttributes_key hblanks hk attributes hne hrest (fun h => absurd h hkeyed),
      Attributes.setPresent, hempty]
    rfl
  | bare value =>
    simp only [WrittenValue.text, List.append_assoc, List.cons_append]
    rw [readAttributes_value hblanks hk, readValue_bare hvalue hrest]
    rfl
  | quoted value =>
    simp only [WrittenValue.text, List.append_assoc, List.cons_append, List.nil_append]
    rw [readAttributes_value hblanks hk, readValue_quoted hvalue]
    rfl
  | braced expression =>
    simp only [WrittenValue.text, List.append_assoc, List.cons_append, List.nil_append]
    rw [readAttributes_value hblanks hk, readValue_braced hvalue]
    rfl

/-- What stands behind a name, a key or a value of a tag. -/
theorem stops_written {as : List WrittenAttribute} (has : ∀ a ∈ as, a.Valid) {blanks : List Char}
    (hb : ∀ c ∈ blanks, isBlank c = true) {c : Char} (hc : c = '/' ∨ c = '>') (tail : List Char) :
    Stops (as.flatMap WrittenAttribute.text ++ (blanks ++ c :: tail)) := by
  cases as with
  | nil =>
    cases blanks with
    | nil => exact ⟨c, tail, rfl, Or.inr hc⟩
    | cons b blanks => exact ⟨b, _, rfl, Or.inl (hb b List.mem_cons_self)⟩
  | cons a as =>
    obtain ⟨blanks', key, value⟩ := a
    obtain ⟨hspaced, hblanks, -⟩ := has _ List.mem_cons_self
    cases blanks' with
    | nil => exact absurd rfl hspaced
    | cons b blanks' => exact ⟨b, _, rfl, Or.inl (hblanks b List.mem_cons_self)⟩

/-- The attributes of a tag are read one after another, and its ending is left. -/
theorem readAttributes_written {as : List WrittenAttribute} (has : ∀ a ∈ as, a.Valid)
    {blanks : List Char} (hb : ∀ c ∈ blanks, isBlank c = true) {c : Char} (hc : c = '/' ∨ c = '>')
    (tail : List Char) (attributes : Attributes) :
    readAttributes attributes (as.flatMap WrittenAttribute.text ++ (blanks ++ c :: tail)) =
      ((as.map WrittenAttribute.setting).foldl
        (fun attributes (key, value) => attributes.set key value) attributes, c :: tail) := by
  induction as generalizing attributes with
  | nil =>
    cases blanks with
    | nil => exact readAttributes_ending attributes tail hc
    | cons b blanks =>
      -- The blanks are taken for an attribute without a key, which is none.
      have hstops : Stops (c :: tail) := ⟨c, tail, rfl, Or.inr hc⟩
      have hblank : (c :: tail).head?.any isBlank = false := by
        rcases hc with rfl | rfl <;> rfl
      have hkey : ∀ c ∈ ([] : List Char), isKeyChar c = true := fun _ h => absurd h List.not_mem_nil
      have hread := readAttributes_key hb hkey attributes (by simp) hstops (fun _ => hblank)
      exact hread.trans (readAttributes_ending attributes tail hc)
  | cons a as ih =>
    obtain ⟨ha, has⟩ := List.forall_mem_cons.1 has
    rw [List.flatMap_cons, List.append_assoc,
      readAttributes_attribute ha attributes (stops_written has hb hc tail), ih has]
    rfl

/-! ## Tags -/

theorem readSlash_of_ne {c : Char} (h : c ≠ '/') (cs : List Char) :
    readSlash (c :: cs) = (false, c :: cs) := by
  rw [readSlash]
  rintro tail he
  exact h (List.cons.inj he).1

section Opening

variable {isClose : Bool} {name : List Char}
  (hopening : isClose = false → ∃ c ∈ name.head?, isWordChar c = true)

include hopening

theorem readSlash_written (behind : List Char) :
    readSlash ((if isClose then ['/'] else []) ++ (name ++ behind)) =
      (isClose, name ++ behind) := by
  cases isClose with
  | true => rfl
  | false =>
    obtain ⟨c, hc, hword⟩ := hopening rfl
    obtain ⟨tail, rfl⟩ := List.head?_eq_some_iff.1 hc
    have hne : c ≠ '/' := by
      rintro rfl
      cases hword
    rw [if_neg Bool.false_ne_true, List.nil_append, List.cons_append, readSlash_of_ne hne]

/-- A tag is read behind its `<`, as no comment starts there. -/
theorem read_of_readTag {behind rest : List Char} {tag : Tag}
    (h : readTag ((if isClose then ['/'] else []) ++ (name ++ behind)) = .ok (tag, rest)) :
    read ('<' :: ((if isClose then ['/'] else []) ++ (name ++ behind))) =
      .ok (.tag tag, rest) := by
  obtain ⟨c, tail, htail, hc⟩ : ∃ c tail,
      (if isClose then ['/'] else []) ++ (name ++ behind) = c :: tail ∧
        (c = '/' ∨ isWordChar c = true) := by
    cases isClose with
    | true => exact ⟨'/', _, rfl, Or.inl rfl⟩
    | false =>
      obtain ⟨c, hc, hword⟩ := hopening rfl
      obtain ⟨tail, rfl⟩ := List.head?_eq_some_iff.1 hc
      exact ⟨c, _, rfl, Or.inr hword⟩
  have hstart : startsMarkup ('<' :: c :: tail) = true :=
    (startsMarkup_iff _).2 ⟨c, tail, rfl, hc.imp_right Or.inr⟩
  have hne : c ≠ '!' := by
    rintro rfl
    revert hc
    decide
  rw [htail] at h ⊢
  rw [read, if_pos hstart, List.tail_cons, h]
  · rfl
  · intro tail' he
    exact hne (List.cons.inj (List.cons.inj he).2).1

end Opening

theorem selfClosed?_of_slash (name rest : List Char) :
    selfClosed? (name ++ ['/']) ('>' :: rest) = some (name, rest) := by
  unfold selfClosed?
  rw [List.reverse_append]
  exact congrArg (fun name => some (name, rest)) (List.reverse_reverse name)

theorem selfClosed?_of_noSlash {name : List Char} (h : name.getLast? ≠ some '/')
    (rest : List Char) : selfClosed? name rest = none := by
  unfold selfClosed?
  split
  · rename_i hrev
    rw [← List.head?_reverse, hrev] at h
    exact absurd rfl h
  · rfl

theorem readEnding_written (t : WrittenTag) (rest : List Char) :
    readEnding (t.ending ++ rest) = some (t.isSelfClosing, rest) := by
  unfold WrittenTag.ending
  cases t.isSelfClosing <;> rfl

/-- A name goes on with the slash of the ending if nothing stands in between, and ends before
anything else. -/
theorem head_afterName {t : WrittenTag} (ht : t.Valid)
    (hshort : ¬ (t.attributes = [] ∧ t.blanks = [] ∧ t.isSelfClosing = true)) (rest : List Char) :
    (t.afterName ++ rest).head?.any isTagNameChar = false := by
  obtain ⟨isClose, name, attributes, blanks, isSelfClosing⟩ := t
  obtain ⟨-, -, -, -, hattributes, hblanks⟩ := ht
  have hstop : ∀ c tail, isBlank c = true → (c :: tail).head?.any isTagNameChar = false := by
    intro c tail hc
    simp [isTagNameChar, hc]
  cases attributes with
  | nil =>
    cases blanks with
    | nil =>
      cases isSelfClosing with
      | true => exact absurd ⟨rfl, rfl, rfl⟩ hshort
      | false => rfl
    | cons b blanks => exact hstop b _ (hblanks b List.mem_cons_self)
  | cons a as =>
    obtain ⟨blanks', key, value⟩ := a
    obtain ⟨hspaced, hblanks', -⟩ := hattributes _ List.mem_cons_self
    cases blanks' with
    | nil => exact absurd rfl hspaced
    | cons b blanks' => exact hstop b _ (hblanks' b List.mem_cons_self)

/-- A tag is read as it is written, whatever stands behind it. -/
theorem readTag_written {t : WrittenTag} (ht : t.Valid) (rest : List Char) :
    readTag ((if t.isClose then ['/'] else []) ++ (t.name ++ t.afterName) ++ rest) =
      .ok (t.tag, rest) := by
  have hafterName := head_afterName ht
  obtain ⟨-, hname, hnoSlash, hopening, hattributes, hblanks⟩ := ht
  have hnameChar : ∀ c ∈ t.name, isTagNameChar c = true := by
    intro c hc
    obtain ⟨hblank, hclose⟩ := hname c hc
    simp [isTagNameChar, hblank, hclose]
  unfold readTag
  rw [List.append_assoc, List.append_assoc, readSlash_written hopening]
  dsimp only
  by_cases hshort : t.attributes = [] ∧ t.blanks = [] ∧ t.isSelfClosing = true
  · -- The slash of the ending is taken for the end of the name.
    obtain ⟨hnone, hblank, hself⟩ := hshort
    have hafter : t.name ++ (t.afterName ++ rest) = (t.name ++ ['/']) ++ '>' :: rest := by
      simp [WrittenTag.afterName, WrittenTag.ending, hnone, hblank, hself]
    have hnameChar' : ∀ c ∈ t.name ++ ['/'], isTagNameChar c = true := by
      intro c hc
      rcases List.mem_append.1 hc with hc | hc
      · exact hnameChar c hc
      · obtain rfl := List.mem_singleton.1 hc
        rfl
    rw [hafter, takeWhile_run hnameChar' rfl, dropWhile_run hnameChar' rfl, selfClosed?_of_slash]
    simp [WrittenTag.tag, WrittenTag.settings, hnone, hself, Attributes.ofList]
  · obtain ⟨c, tail, hending, hc⟩ :
        ∃ c tail, t.ending ++ rest = c :: tail ∧ (c = '/' ∨ c = '>') := by
      unfold WrittenTag.ending
      cases t.isSelfClosing with
      | true => exact ⟨'/', _, rfl, Or.inl rfl⟩
      | false => exact ⟨'>', _, rfl, Or.inr rfl⟩
    have hafter : t.afterName ++ rest =
        t.attributes.flatMap WrittenAttribute.text ++ (t.blanks ++ c :: tail) := by
      rw [WrittenTag.afterName, List.append_assoc, List.append_assoc, hending]
    have hstop := hafterName hshort rest
    rw [takeWhile_run hnameChar hstop, dropWhile_run hnameChar hstop,
      selfClosed?_of_noSlash hnoSlash, hafter, readAttributes_written hattributes hblanks hc,
      ← hending]
    dsimp only
    rw [readEnding_written]
    rfl

theorem read_written {t : WrittenTag} (ht : t.Valid) (rest : List Char) :
    read (t.text ++ rest) = .ok (.tag t.tag, rest) := by
  have htag := readTag_written ht rest
  have htext : t.text ++ rest =
      '<' :: ((if t.isClose then ['/'] else []) ++ (t.name ++ (t.afterName ++ rest))) := by
    simp [WrittenTag.text]
  rw [List.append_assoc, List.append_assoc] at htag
  rw [htext]
  exact read_of_readTag ht.opening htag

end Chunk

/-! ## Calls -/

namespace Scan

/-- The text of a tag is taken as one span of its own, whatever stands behind it, and the reader of
tags is asked about the tag that is written: its name, how it starts and ends, and its attributes in
the order in which each key stands first, with the value that it is given last. -/
theorem call_written {t : WrittenTag} (ht : t.Valid) :
    ∃ tag : Tag, tag.name = String.ofList t.name ∧ tag.isClose = t.isClose ∧
      tag.isSelfClosing = t.isSelfClosing ∧
      tag.attributes.map (·.1) = (t.settings.map (·.1)).eraseDups ∧
      (∀ key, tag.attributes.lookup key = t.settings.reverse.lookup key) ∧
      ∀ (reader : TagReader) (place : List Char → Interpolation.Locator) (rest : List Char),
        (call reader place (t.text ++ rest) =
          match (tagYield reader tag).fault with
          | some fault => .refused fault
          | none => .took ⟨t.text, .tag tag, (tagYield reader tag).parts⟩ rest) ∧
        scanFrom reader place (t.text ++ rest) =
          match (tagYield reader tag).fault with
          | some fault => failed (tagYield reader tag).parts [tag] fault
          | none => (tagYield reader tag).before (.tag tag) (scanFrom reader place rest) := by
  refine ⟨t.tag, rfl, rfl, rfl, Attributes.map_fst_ofList t.settings,
    Attributes.lookup_ofList t.settings, fun reader place rest => ?_⟩
  have hne : t.text ++ rest ≠ [] := List.cons_ne_nil _ _
  have hread := Chunk.read_written ht rest
  refine ⟨?_, scanFrom_of_read hne hread⟩
  have htake : (t.text ++ rest).take ((t.text ++ rest).length - rest.length) = t.text := by
    rw [List.length_append, Nat.add_sub_cancel]
    exact List.take_left
  rw [call_of_read hne hread, htake]
  rfl

/-- Every form of value, with a key that is written twice and a name that holds a slash. -/
theorem call_written_sample : ∃ t : WrittenTag, t.Valid ∧
    t.text = "<a/b x=1 y=\"\x7b\x7b\"\nx=\x7b\x7b \x7dz \x7d\x7d w= />".toList ∧
    ∃ tag : Tag, tag.name = "a/b" ∧ tag.isSelfClosing = true ∧
      tag.attributes.map (·.1) = ["x", "y", "w"] ∧
      tag.attributes.lookup "x" = some (.text "\x7b\x7b \x7dz \x7d\x7d") ∧
      ∀ reader place rest,
        (scanFrom reader place (t.text ++ rest)).tags.head? = some tag := by
  have valid : ∀ (blank key : Char) (value : WrittenValue), isBlank blank = true →
      isBlank key = false ∧ key ≠ '/' ∧ key ≠ '>' ∧ key ≠ '=' → value.Valid →
      WrittenAttribute.Valid ⟨[blank], [key], value⟩ := fun _ _ _ hblank hkey hvalue =>
    ⟨List.cons_ne_nil _ _, List.forall_mem_singleton.2 hblank, List.cons_ne_nil _ _,
      List.forall_mem_singleton.2 hkey, hvalue⟩
  have bare := valid ' ' 'x' (.bare ['1']) (by decide) (by decide)
    ⟨List.forall_mem_singleton.2 (by decide), by decide, by decide⟩
  have quoted := valid ' ' 'y' (.quoted ['{', '{']) (by decide) (by decide)
    ⟨by decide, by decide⟩
  have braced := valid '\n' 'x' (.braced [' ', '}', 'z', ' ']) (by decide) (by decide)
    ⟨by decide, by decide, by decide⟩
  have empty := valid ' ' 'w' (.bare []) (by decide) (by decide)
    ⟨fun _ h => absurd h List.not_mem_nil, by decide, by decide⟩
  have hname : ∀ c ∈ ['a', '/', 'b'], isBlank c = false ∧ c ≠ '>' :=
    List.forall_mem_cons.2 ⟨by decide, List.forall_mem_cons.2 ⟨by decide,
      List.forall_mem_singleton.2 (by decide)⟩⟩
  have hvalid : WrittenTag.Valid ⟨false, ['a', '/', 'b'], [_, _, _, _], [' '], true⟩ :=
    ⟨by decide, hname, by decide, fun _ => ⟨'a', rfl, by decide⟩,
      List.forall_mem_cons.2 ⟨bare, List.forall_mem_cons.2 ⟨quoted, List.forall_mem_cons.2
        ⟨braced, List.forall_mem_singleton.2 empty⟩⟩⟩,
      List.forall_mem_singleton.2 (by decide)⟩
  obtain ⟨tag, hname, -, hself, hkeys, hlookup, hscan⟩ := call_written hvalid
  refine ⟨_, hvalid, rfl, tag, hname, hself, ?_, ?_, ?_⟩
  · rw [hkeys]
    rfl
  · rw [hlookup]
    rfl
  · intro reader place rest
    rw [(hscan reader place rest).2]
    split <;> rfl

end Scan
end HtmlTemplate
