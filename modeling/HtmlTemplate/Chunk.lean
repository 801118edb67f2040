import HtmlTemplate.Marker
import HtmlTemplate.Tag
import HtmlTemplate.Text.Identifier

/-!
# Chunk — a template's source as texts, comments and tags

Just enough markup is understood to find tags and their attributes:

* a tag or comment starts at a `<` before `/`, `!` or an ASCII word character; all before is text,
* a comment or document type, `<!…`, ends with the first `>` or with the source,
* a tag is a name, attributes, and `>` or `/>`.

`Chunk.read` takes one chunk off the front of a source and always makes it shorter.
-/

namespace HtmlTemplate

open Text

inductive ChunkKind where
  | text
  | comment
  | tag
  deriving DecidableEq, Repr

inductive Chunk where
  | text (cs : List Char)
  | comment (cs : List Char)
  | tag (tag : Tag)
  deriving DecidableEq, Repr

/-- A tag that does not end: neither an attribute nor an ending can be read at `rest`. -/
structure Malformed where
  isClose : Bool
  name : String
  rest : List Char
  deriving DecidableEq, Repr

namespace Chunk

def kind : Chunk → ChunkKind
  | text _ => .text
  | comment _ => .comment
  | tag _ => .tag

/-! ## Attributes -/

def isTagNameChar (c : Char) : Bool := !isBlank c && c != '>'

def isKeyChar (c : Char) : Bool := !isBlank c && c != '/' && c != '>' && c != '='

def isBareChar (c : Char) : Bool := !isBlank c && c != '/' && c != '>'

/-- A value up to its closing quote, on one line. -/
def readQuotedValue : List Char → Option (List Char × List Char)
  | [] => none
  | c :: cs =>
    if c == '"' then some ([], cs)
    else if c == '\n' then none
    else (readQuotedValue cs).map fun (value, rest) => (c :: value, rest)

/-- The value after an equals sign: a marker with its braces, a text between double quotes, or a
run of other characters.  A marker or quote that is not closed is no value and stays unread. -/
def readValue : List Char → List Char × List Char
  | '{' :: '{' :: cs =>
    match Marker.readExpression cs with
    | some (expression, rest) => ('{' :: '{' :: expression ++ ['}', '}'], rest)
    | none => ([], '{' :: '{' :: cs)
  | '"' :: cs =>
    match readQuotedValue cs with
    | some (value, rest) => (value, rest)
    | none => ([], '"' :: cs)
  | cs => (cs.takeWhile isBareChar, cs.dropWhile isBareChar)

theorem dropWhile_length_le (p : Char → Bool) (cs : List Char) :
    (cs.dropWhile p).length ≤ cs.length := (List.dropWhile_sublist p).length_le

theorem readQuotedValue_length {cs value rest : List Char}
    (h : readQuotedValue cs = some (value, rest)) : rest.length < cs.length := by
  induction cs generalizing value with
  | nil => simp [readQuotedValue] at h
  | cons c cs ih =>
    unfold readQuotedValue at h
    split at h
    · obtain ⟨_, rfl⟩ := Prod.mk.injEq .. ▸ Option.some.injEq .. ▸ h
      simp
    · split at h
      · simp at h
      · obtain ⟨⟨v, r⟩, hv, h⟩ := Option.map_eq_some_iff.1 h
        obtain ⟨_, rfl⟩ := Prod.mk.injEq .. ▸ h
        exact Nat.lt_succ_of_lt (ih hv)

theorem readValue_length (cs : List Char) : (readValue cs).2.length ≤ cs.length := by
  unfold readValue
  split
  · split
    · rename_i h
      have := Marker.readExpression_length h
      simp only [List.length_cons]
      omega
    · simp
  · split
    · rename_i h
      have := readQuotedValue_length h
      simp only [List.length_cons]
      omega
    · simp
  · exact dropWhile_length_le _ _

/-- Reads attributes as long as there is a blank, a name or an equals sign to take, `attributes`
being those before. -/
def readAttributes (attributes : Attributes) (cs : List Char) : Attributes × List Char :=
  let start := cs.dropWhile isBlank
  let key := start.takeWhile isKeyChar
  match h : start.dropWhile isKeyChar with
  | '=' :: after =>
    have : (readValue after).2.length < cs.length := by
      have h₁ := readValue_length after
      have h₂ := dropWhile_length_le isKeyChar start
      have h₃ : start.length ≤ cs.length := dropWhile_length_le isBlank cs
      rw [h] at h₂
      simp only [List.length_cons] at h₂
      omega
    readAttributes
      (attributes.set (String.ofList key) (.text (String.ofList (readValue after).1)))
      (readValue after).2
  | rest =>
    if rest.length < cs.length then
      readAttributes (attributes.setPresent (String.ofList key)) rest
    else (attributes, cs)
termination_by cs.length

/-! ## Tags -/

/-- Reads the end of a tag, and tells whether it closes itself. -/
def readEnding (cs : List Char) : Option (Bool × List Char) :=
  match cs.dropWhile isBlank with
  | '/' :: '>' :: rest => some (true, rest)
  | '>' :: rest => some (false, rest)
  | _ => none

/-- A name with the slash of `/>` at its end, less the slash, and what follows the tag. -/
def selfClosed? (name rest : List Char) : Option (List Char × List Char) :=
  match name.reverse, rest with
  | '/' :: rev, '>' :: after => some (rev.reverse, after)
  | _, _ => none

/-- Whether a closing slash stands first, and what follows it. -/
def readSlash : List Char → Bool × List Char
  | '/' :: cs => (true, cs)
  | cs => (false, cs)

/-- Reads a tag whose `<` has been taken. -/
def readTag (cs : List Char) : Except Malformed (Tag × List Char) :=
  let (isClose, cs) := readSlash cs
  let name := cs.takeWhile isTagNameChar
  let rest := cs.dropWhile isTagNameChar
  match selfClosed? name rest with
  | some (name, after) => .ok (⟨String.ofList name, [], isClose, true⟩, after)
  | none =>
    let (attributes, rest) := readAttributes [] rest
    match readEnding rest with
    | some (isSelfClosing, after) =>
      .ok (⟨String.ofList name, attributes, isClose, isSelfClosing⟩, after)
    | none => .error ⟨isClose, String.ofList name, rest⟩

/-! ## Chunks -/

/-- Whether a tag or comment starts here. -/
def startsMarkup : List Char → Bool
  | '<' :: c :: _ => c == '/' || c == '!' || isWordChar c
  | _ => false

/-- The text up to the next tag or comment, and the rest. -/
def readText : List Char → List Char × List Char
  | [] => ([], [])
  | c :: cs =>
    if startsMarkup (c :: cs) then ([], c :: cs)
    else
      let (run, rest) := readText cs
      (c :: run, rest)

/-- Everything up to the first `>`, and the rest. -/
def readComment : List Char → List Char × List Char
  | [] => ([], [])
  | c :: cs =>
    if c == '>' then ([c], cs)
    else
      let (run, rest) := readComment cs
      (c :: run, rest)

/-- Takes one chunk off a source that is not empty. -/
def read (cs : List Char) : Except Malformed (Chunk × List Char) :=
  if startsMarkup cs then
    match cs with
    | '<' :: '!' :: _ =>
      let (run, rest) := readComment cs
      .ok (.comment run, rest)
    | _ => (readTag cs.tail).map fun (t, rest) => (.tag t, rest)
  else
    let (run, rest) := readText cs
    .ok (.text run, rest)

/-! ## Every chunk makes the source shorter -/

theorem readAttributes_length (attributes : Attributes) (cs : List Char) :
    (readAttributes attributes cs).2.length ≤ cs.length := by
  fun_induction readAttributes attributes cs with
  | case1 attributes cs start key after h hlt ih => omega
  | case2 attributes cs start key rest hlt ih => omega
  | case3 => simp

theorem readEnding_length {cs rest : List Char} {b : Bool} (h : readEnding cs = some (b, rest)) :
    rest.length < cs.length := by
  have hle := dropWhile_length_le isBlank cs
  unfold readEnding at h
  split at h
  · rename_i e
    cases h
    rw [e] at hle
    exact Nat.lt_of_succ_lt hle
  · rename_i e
    cases h
    rw [e] at hle
    exact hle
  · cases h

theorem selfClosed?_length {name rest name' after : List Char}
    (h : selfClosed? name rest = some (name', after)) : after.length < rest.length := by
  unfold selfClosed? at h
  split at h
  · cases h
    exact Nat.lt_succ_self _
  · cases h

theorem readSlash_length (cs : List Char) : (readSlash cs).2.length ≤ cs.length := by
  unfold readSlash
  split <;> simp

theorem readTag_length {cs rest : List Char} {t : Tag} (h : readTag cs = .ok (t, rest)) :
    rest.length < cs.length := by
  have h₁ := readSlash_length cs
  have h₂ := dropWhile_length_le isTagNameChar (readSlash cs).2
  have h₃ := readAttributes_length [] ((readSlash cs).2.dropWhile isTagNameChar)
  unfold readTag at h
  simp only at h
  split at h
  · rename_i hs
    have := selfClosed?_length hs
    cases h
    omega
  · split at h
    · rename_i he
      have := readEnding_length he
      cases h
      omega
    · cases h

theorem readComment_length (cs : List Char) : (readComment cs).2.length ≤ cs.length := by
  induction cs with
  | nil => simp [readComment]
  | cons c cs ih =>
    unfold readComment
    split
    · simp
    · exact Nat.le_succ_of_le ih

theorem readText_length (cs : List Char) : (readText cs).2.length ≤ cs.length := by
  induction cs with
  | nil => simp [readText]
  | cons c cs ih =>
    unfold readText
    split
    · simp
    · exact Nat.le_succ_of_le ih

theorem read_length {cs rest : List Char} {chunk : Chunk} (hne : cs ≠ [])
    (h : read cs = .ok (chunk, rest)) : rest.length < cs.length := by
  obtain ⟨c, cs, rfl⟩ := List.exists_cons_of_ne_nil hne
  unfold read at h
  split at h
  · split at h
    · rename_i hm _ tail heq
      obtain ⟨rfl, rfl⟩ := List.cons.inj heq
      simp only [Except.ok.injEq, Prod.mk.injEq] at h
      have h₁ := readComment_length ('!' :: tail)
      rw [← h.2]
      unfold readComment
      exact Nat.lt_succ_of_le h₁
    · simp only [List.tail_cons] at h
      cases ht : readTag cs with
      | error e => simp [ht, Except.map] at h
      | ok r =>
        simp only [ht, Except.map, Except.ok.injEq, Prod.mk.injEq] at h
        have : r.2.length < cs.length := readTag_length ht
        rw [← h.2]
        exact Nat.lt_succ_of_lt this
  · rename_i hm
    simp only [Except.ok.injEq, Prod.mk.injEq] at h
    rw [← h.2]
    unfold readText
    rw [if_neg hm]
    exact Nat.lt_succ_of_le (readText_length cs)

end Chunk
end HtmlTemplate
