import HtmlTemplate.Chunk

/-!
# Reading — what the readers of chunks take

Every reader takes something off the front of a source and leaves the rest as it is.  A text ends
where markup starts, a comment with the first `>` and a tag with a `>` (`Chunk.read_fits`).
-/

namespace HtmlTemplate

open Text

/-- Whether a tag or comment starts here: a `<` with a slash, an exclamation mark or a word
character behind it. -/
def MarkupAt (cs : List Char) : Prop :=
  ∃ c tail, cs = '<' :: c :: tail ∧ (c = '/' ∨ c = '!' ∨ isWordChar c = true)

/-- What a chunk of some kind looks like in a source that goes on with `rest`. -/
def ChunkKind.Fits (kind : ChunkKind) (chars rest : List Char) : Prop :=
  match kind with
  | .text =>
    (∀ before after, chars = before ++ after → after ≠ [] → ¬ MarkupAt (after ++ rest)) ∧
      (rest = [] ∨ MarkupAt rest)
  | .comment =>
    ∃ body, '>' ∉ body ∧
      (chars = '<' :: '!' :: body ++ ['>'] ∨ chars = '<' :: '!' :: body ∧ rest = [])
  | .tag =>
    ∃ c body, (c = '/' ∨ isWordChar c = true) ∧ chars = '<' :: c :: body ++ ['>']

/-- An expression stands before the closing braces that end it. -/
theorem Marker.readExpression_eq {cs expression rest : List Char}
    (h : readExpression cs = some (expression, rest)) :
    cs = expression ++ '}' :: '}' :: rest := by
  fun_induction readExpression cs generalizing expression with
  | case1 => cases h
  | case2 =>
    cases h
    rfl
  | case3 => cases h
  | case4 c cs _ _ ih =>
    obtain ⟨⟨e, r⟩, he, h⟩ := Option.map_eq_some_iff.1 h
    cases h
    rw [ih he, List.cons_append]

theorem Marker.readExpression_suffix {cs expression rest : List Char}
    (h : readExpression cs = some (expression, rest)) : rest <:+ cs :=
  ⟨expression ++ ['}', '}'], by rw [readExpression_eq h, List.append_assoc]; rfl⟩

namespace Chunk

theorem startsMarkup_iff (cs : List Char) : startsMarkup cs = true ↔ MarkupAt cs := by
  unfold startsMarkup MarkupAt
  split
  · rename_i c tail
    simp [or_assoc]
  · rename_i hne
    constructor
    · intro h
      cases h
    · rintro ⟨c, tail, rfl, -⟩
      exact absurd rfl (hne c tail)

/-! ## Texts and comments -/

theorem readText_append (cs : List Char) : (readText cs).1 ++ (readText cs).2 = cs := by
  induction cs with
  | nil => rfl
  | cons c cs ih =>
    unfold readText
    split
    · rfl
    · exact congrArg (c :: ·) ih

/-- No markup starts within a text. -/
theorem not_markupAt_readText {cs before after : List Char} (h : (readText cs).1 = before ++ after)
    (hne : after ≠ []) : ¬ MarkupAt (after ++ (readText cs).2) := by
  induction cs generalizing before with
  | nil =>
    obtain ⟨-, rfl⟩ := List.append_eq_nil_iff.1 h.symm
    exact absurd rfl hne
  | cons c cs ih =>
    unfold readText at h ⊢
    split at h
    · obtain ⟨-, rfl⟩ := List.append_eq_nil_iff.1 h.symm
      exact absurd rfl hne
    · rename_i hstart
      rw [if_neg hstart]
      rcases List.cons_eq_append_iff.1 h with ⟨-, rfl⟩ | ⟨before, -, h⟩
      · -- Here `after` is the whole text, and the text was not ended before its first character.
        rw [← startsMarkup_iff, List.cons_append, readText_append]
        exact hstart
      · exact ih h

theorem readText_rest (cs : List Char) : (readText cs).2 = [] ∨ MarkupAt (readText cs).2 := by
  induction cs with
  | nil => exact Or.inl rfl
  | cons c cs ih =>
    unfold readText
    split
    · rename_i hstart
      exact Or.inr ((startsMarkup_iff _).1 hstart)
    · exact ih

theorem not_startsMarkup {c : Char} (h : c ≠ '<') (cs : List Char) :
    startsMarkup (c :: cs) = false := by
  rw [Bool.eq_false_iff, Ne, startsMarkup_iff]
  rintro ⟨d, tail, he, -⟩
  exact h (List.cons.inj he).1

/-- A text without angle brackets goes up to the markup behind it, or to the end. -/
theorem readText_before {cs rest : List Char} (h : '<' ∉ cs)
    (hrest : rest = [] ∨ MarkupAt rest) : readText (cs ++ rest) = (cs, rest) := by
  induction cs with
  | nil =>
    rcases hrest with rfl | hrest
    · rfl
    · have hstart := (startsMarkup_iff rest).2 hrest
      obtain ⟨c, tail, rfl, -⟩ := hrest
      rw [List.nil_append, readText, if_pos hstart]
  | cons c cs ih =>
    rw [List.mem_cons, not_or] at h
    rw [List.cons_append, readText, not_startsMarkup (Ne.symm h.1), ih h.2]
    rfl

theorem read_before {cs rest : List Char} (hne : cs ≠ []) (h : '<' ∉ cs)
    (hrest : rest = [] ∨ MarkupAt rest) : read (cs ++ rest) = .ok (.text cs, rest) := by
  have hstart : startsMarkup (cs ++ rest) = false := by
    obtain ⟨c, cs, rfl⟩ := List.exists_cons_of_ne_nil hne
    exact not_startsMarkup (fun he => h (he ▸ List.mem_cons_self)) _
  unfold read
  rw [hstart, if_neg Bool.false_ne_true, readText_before h hrest]

/-- A comment ends with the first `>`, or with the source if there is none. -/
theorem readComment_cases (cs : List Char) :
    (∃ body rest, '>' ∉ body ∧ cs = body ++ '>' :: rest ∧ readComment cs = (body ++ ['>'], rest)) ∨
      '>' ∉ cs ∧ readComment cs = (cs, []) := by
  induction cs with
  | nil => exact Or.inr ⟨List.not_mem_nil, rfl⟩
  | cons c cs ih =>
    unfold readComment
    split
    · rename_i hc
      obtain rfl := beq_iff_eq.1 hc
      exact Or.inl ⟨[], cs, List.not_mem_nil, rfl, rfl⟩
    · rename_i hc
      have hne : '>' ≠ c := fun he => hc (beq_iff_eq.2 he.symm)
      rcases ih with ⟨body, rest, hbody, rfl, hread⟩ | ⟨hcs, hread⟩
      · rw [hread]
        exact Or.inl ⟨c :: body, rest, List.not_mem_cons_of_ne_of_not_mem hne hbody, rfl, rfl⟩
      · rw [hread]
        exact Or.inr ⟨List.not_mem_cons_of_ne_of_not_mem hne hcs, rfl⟩

theorem readComment_append (cs : List Char) : (readComment cs).1 ++ (readComment cs).2 = cs := by
  rcases readComment_cases cs with ⟨body, rest, -, rfl, hread⟩ | ⟨-, hread⟩
  · rw [hread]
    simp
  · rw [hread]
    simp

/-! ## Tags -/

theorem readQuotedValue_suffix {cs value rest : List Char}
    (h : readQuotedValue cs = some (value, rest)) : rest <:+ cs := by
  induction cs generalizing value with
  | nil => cases h
  | cons c cs ih =>
    unfold readQuotedValue at h
    split at h
    · cases h
      exact List.suffix_cons _ _
    · split at h
      · cases h
      · obtain ⟨⟨v, r⟩, hv, h⟩ := Option.map_eq_some_iff.1 h
        cases h
        exact (ih hv).trans (List.suffix_cons _ _)

theorem readValue_suffix (cs : List Char) : (readValue cs).2 <:+ cs := by
  unfold readValue
  split
  · split
    · rename_i h
      exact (Marker.readExpression_suffix h).trans
        ((List.suffix_cons _ _).trans (List.suffix_cons _ _))
    · exact List.suffix_refl _
  · split
    · rename_i h
      exact (readQuotedValue_suffix h).trans (List.suffix_cons _ _)
    · exact List.suffix_refl _
  · exact List.dropWhile_suffix _

theorem readAttributes_suffix (attributes : Attributes) (cs : List Char) :
    (readAttributes attributes cs).2 <:+ cs := by
  fun_induction readAttributes attributes cs with
  | case1 attributes cs start key after h hlt ih =>
    have hstart : '=' :: after <:+ cs :=
      h ▸ (List.dropWhile_suffix _).trans (List.dropWhile_suffix _)
    exact ih.trans ((readValue_suffix after).trans ((List.suffix_cons _ _).trans hstart))
  | case2 attributes cs start key rest hlt ih =>
    exact ih.trans ((List.dropWhile_suffix _).trans (List.dropWhile_suffix _))
  | case3 => exact List.suffix_refl _

/-- The end of a tag is a `>`. -/
theorem readEnding_suffix {cs rest : List Char} {b : Bool} (h : readEnding cs = some (b, rest)) :
    '>' :: rest <:+ cs := by
  have hdrop := List.dropWhile_suffix (l := cs) isBlank
  unfold readEnding at h
  split at h
  · rename_i he
    cases h
    rw [he] at hdrop
    exact (List.suffix_cons _ _).trans hdrop
  · rename_i he
    cases h
    rw [he] at hdrop
    exact hdrop
  · cases h

theorem selfClosed?_suffix {name rest name' after : List Char}
    (h : selfClosed? name rest = some (name', after)) : rest = '>' :: after := by
  unfold selfClosed? at h
  split at h
  · cases h
    rfl
  · cases h

theorem readSlash_suffix (cs : List Char) : (readSlash cs).2 <:+ cs := by
  unfold readSlash
  split
  · exact List.suffix_cons _ _
  · exact List.suffix_refl _

/-- A tag ends with a `>`. -/
theorem readTag_suffix {cs rest : List Char} {t : Tag} (h : readTag cs = .ok (t, rest)) :
    '>' :: rest <:+ cs := by
  have hname := (List.dropWhile_suffix isTagNameChar).trans (readSlash_suffix cs)
  unfold readTag at h
  dsimp only at h
  split at h
  · rename_i hs
    cases h
    rw [selfClosed?_suffix hs] at hname
    exact hname
  · split at h
    · rename_i he
      cases h
      exact (readEnding_suffix he).trans ((readAttributes_suffix _ _).trans hname)
    · cases h

/-! ## Chunks -/

/-- A chunk is read off the front of a source, and what it takes has the form of its kind. -/
theorem read_fits {cs rest : List Char} {chunk : Chunk} (h : read cs = .ok (chunk, rest)) :
    ∃ chars, cs = chars ++ rest ∧ chunk.kind.Fits chars rest := by
  unfold read at h
  split at h
  · rename_i hstart
    obtain ⟨c, tail, rfl, hc⟩ := (startsMarkup_iff cs).1 hstart
    split at h
    · rename_i tail heq
      obtain ⟨-, heq⟩ := List.cons.inj heq
      obtain ⟨rfl, rfl⟩ := List.cons.inj heq
      have hread : readComment ('<' :: '!' :: tail) =
          ('<' :: '!' :: (readComment tail).1, (readComment tail).2) := rfl
      rw [hread] at h
      cases h
      rcases readComment_cases tail with ⟨body, rest, hbody, rfl, hread⟩ | ⟨htail, hread⟩
      · rw [hread]
        exact ⟨'<' :: '!' :: body ++ ['>'], by simp, body, hbody, Or.inl rfl⟩
      · rw [hread]
        exact ⟨'<' :: '!' :: tail, by simp, tail, htail, Or.inr ⟨rfl, rfl⟩⟩
    · rename_i hcomment
      have hslash : c = '/' ∨ isWordChar c = true := by
        rcases hc with hc | rfl | hc
        · exact Or.inl hc
        · exact absurd rfl (hcomment _)
        · exact Or.inr hc
      have hclose : c ≠ '>' := by
        rintro rfl
        revert hslash
        decide
      cases ht : readTag (c :: tail) with
      | error m =>
        rw [List.tail_cons, ht] at h
        cases h
      | ok r =>
        rw [List.tail_cons, ht] at h
        cases h
        obtain ⟨inner, hinner⟩ := readTag_suffix ht
        rcases List.append_eq_cons_iff.1 hinner with ⟨-, he⟩ | ⟨body, rfl, rfl⟩
        · exact absurd (List.cons.inj he).1.symm hclose
        · exact ⟨'<' :: c :: body ++ ['>'], by simp, c, body, hslash, rfl⟩
  · cases h
    exact ⟨_, (readText_append cs).symm, fun _ _ => not_markupAt_readText, readText_rest cs⟩

/-- A text or comment is what it takes. -/
theorem read_verbatim {cs run rest : List Char}
    (h : read cs = .ok (.text run, rest) ∨ read cs = .ok (.comment run, rest)) :
    cs = run ++ rest := by
  have hread := h
  unfold read at hread
  split at hread
  · split at hread
    · rcases hread with hread | hread
      · cases hread
      · cases hread
        exact (readComment_append _).symm
    · cases htag : readTag cs.tail <;> rw [htag] at hread <;>
        rcases hread with hread | hread <;> cases hread
  · rcases hread with hread | hread
    · cases hread
      exact (readText_append cs).symm
    · cases hread

end Chunk
end HtmlTemplate
