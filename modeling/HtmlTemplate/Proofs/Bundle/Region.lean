import HtmlTemplate.Bundle.Stray.Lexeme

/-!
# Region — what a module's text is by its lexical rules

A comment reaches to the end of its line, a text in quotes to the next quote and a block in triple
quotes to the next triple quote, where a backslash takes the character behind it along.  What else
there is, is code.  `Region.all` cuts a text into comments, texts, blocks and characters of code.
Pieces that are cut in one way whatever follows them can be put together (`Region.CutsInto.append`).
-/

namespace HtmlTemplate

open Text

/-- A stretch of a module's text. -/
inductive Region where
  | code (c : Char)
  /-- A comment without the line break behind it. -/
  | comment (text : List Char)
  /-- A text with its quotes. -/
  | text (text : List Char)
  /-- A text with its triple quotes. -/
  | block (text : List Char)
  /-- A text without its closing quotes, and all that follows. -/
  | unclosed (text : List Char)
  deriving DecidableEq, Repr

namespace Region

/-! ## Cutting -/

theorem closeText_length {quote : Char} {breaks more : Nat} {cs rest : List Char}
    (h : Lexeme.closeText quote breaks cs = .ok (more, rest)) : rest.length ≤ cs.length := by
  fun_induction Lexeme.closeText quote breaks cs with
  | case1 => cases h
  | case2 breaks c cs ih => exact Nat.le_add_right_of_le (Nat.le_add_right_of_le (ih h))
  | case3 => cases h; exact Nat.le_succ _
  | case4 => cases h
  | case5 breaks c cs _ _ _ ih => exact Nat.le_add_right_of_le (ih h)

theorem closeBlock_length {quote : Char} {breaks more : Nat} {cs rest : List Char}
    (h : Lexeme.closeBlock quote breaks cs = .ok (more, rest)) : rest.length ≤ cs.length := by
  fun_induction Lexeme.closeBlock quote breaks cs with
  | case1 => cases h
  | case2 breaks c cs ih => exact Nat.le_add_right_of_le (Nat.le_add_right_of_le (ih h))
  | case3 breaks c cs =>
    cases h
    exact Nat.le_add_right_of_le (List.drop_sublist 2 cs).length_le
  | case4 breaks c cs _ _ ih => exact Nat.le_add_right_of_le (ih h)

/-- A text in quotes up to where it was closed. -/
def closed (region : List Char → Region) (cs : List Char) :
    Except Nat (Nat × List Char) → Region × List Char
  | .ok (_, rest) => (region (cs.take (cs.length - rest.length)), rest)
  | .error _ => (.unclosed cs, [])

/-- The region that starts with a character, and the rest. -/
def next (c : Char) (cs : List Char) : Region × List Char :=
  if c == '#' then (.comment (c :: cs.takeWhile (· != '\n')), cs.dropWhile (· != '\n'))
  else if c == '\'' || c == '"' then
    if cs.take 2 == [c, c] then closed .block (c :: cs) (Lexeme.closeBlock c 0 (cs.drop 2))
    else closed .text (c :: cs) (Lexeme.closeText c 0 cs)
  else (.code c, cs)

theorem next_length (c : Char) (cs : List Char) : (next c cs).2.length ≤ cs.length := by
  unfold next closed
  split
  · exact (List.dropWhile_sublist _).length_le
  · split
    · split
      · split
        · rename_i hclose
          exact Nat.le_trans (closeBlock_length hclose) (List.drop_sublist 2 cs).length_le
        · exact Nat.zero_le _
      · split
        · rename_i hclose
          exact closeText_length hclose
        · exact Nat.zero_le _
    · exact Nat.le_refl _

/-- The regions of a text. -/
def all : List Char → List Region
  | [] => []
  | c :: cs => (next c cs).1 :: all (next c cs).2
termination_by cs => cs.length
decreasing_by exact Nat.lt_succ_of_le (next_length c cs)

@[simp] theorem all_nil : all [] = [] := by rw [all]

theorem all_cons (c : Char) (cs : List Char) :
    all (c :: cs) = (next c cs).1 :: all (next c cs).2 := by
  rw [all]

/-- What is neither comment nor block. -/
def codeOf (regions : List Region) : List Char :=
  regions.flatMap fun
    | code c => [c]
    | text cs => cs
    | _ => []

@[simp] theorem codeOf_append (rs ss : List Region) : codeOf (rs ++ ss) = codeOf rs ++ codeOf ss :=
  List.flatMap_append

/-! ## Pieces -/

/-- Whether a piece of a text is cut into regions of its own, whatever follows it. -/
def CutsInto (piece : List Char) (regions : List Region) : Prop :=
  ∀ rest, all (piece ++ rest) = regions ++ all rest

theorem CutsInto.nil : CutsInto [] [] := fun _ => rfl

theorem CutsInto.append {as bs : List Char} {rs ss : List Region} (has : CutsInto as rs)
    (hbs : CutsInto bs ss) : CutsInto (as ++ bs) (rs ++ ss) := fun rest => by
  rw [List.append_assoc, has, hbs, List.append_assoc]

/-- A piece is cut alone as it is cut where it stands. -/
theorem CutsInto.all_eq {piece : List Char} {regions : List Region} (h : CutsInto piece regions) :
    all piece = regions := by
  have hall := h []
  rwa [List.append_nil, all_nil, List.append_nil] at hall

/-- A character that starts neither a comment nor a text, nor stands for another. -/
def isCode (c : Char) : Bool := c != '#' && c != '\'' && c != '"' && c != '\r'

theorem cutsInto_code {cs : List Char} (h : cs.all isCode = true) : CutsInto cs (cs.map code) := by
  intro rest
  induction cs with
  | nil => rfl
  | cons c cs ih =>
    rw [List.all_cons, Bool.and_eq_true] at h
    have hnext : next c (cs ++ rest) = (code c, cs ++ rest) := by
      have hc : ((c ≠ '#' ∧ c ≠ '\'') ∧ c ≠ '"') ∧ c ≠ '\r' := by simpa [isCode] using h.1
      simp [next, hc]
    rw [List.cons_append, all_cons, hnext, ih h.2]
    rfl

theorem not_mem_of_isCode {cs : List Char} (h : cs.all isCode = true) : '\r' ∉ cs := fun hmem =>
  absurd (List.all_eq_true.1 h '\r' hmem) (by decide)

theorem codeOf_code (cs : List Char) : codeOf (cs.map code) = cs := by
  unfold codeOf
  rw [List.flatMap_map, List.flatMap_singleton']

/-- A comment ends where its line does. -/
theorem all_comment {cs : List Char} (h : '\n' ∉ cs) (rest : List Char) :
    all ('#' :: cs ++ '\n' :: rest) = comment ('#' :: cs) :: all ('\n' :: rest) := by
  have hline : ∀ c ∈ cs, (c != '\n') = true := by
    intro c hc
    rw [bne_iff_ne]
    rintro rfl
    exact h hc
  have hnext : next '#' (cs ++ '\n' :: rest) = (comment ('#' :: cs), '\n' :: rest) := by
    simp [next, List.takeWhile_append_of_pos hline, List.dropWhile_append_of_pos hline]
  rw [List.cons_append, all_cons, hnext]

/-! ## Texts in quotes -/

/-- Whether a search for closing quotes goes past a text, whatever stands around it. -/
def PassedBy (close : Nat → List Char → Except Nat (Nat × List Char)) (cs : List Char) : Prop :=
  ∀ breaks rest, ∃ more, close breaks (cs ++ rest) = close more rest

section PassedBy

variable {close : Nat → List Char → Except Nat (Nat × List Char)} {quote c : Char}

theorem PassedBy.nil : PassedBy close [] := fun breaks _ => ⟨breaks, rfl⟩

theorem PassedBy.append {as bs : List Char} (has : PassedBy close as) (hbs : PassedBy close bs) :
    PassedBy close (as ++ bs) := by
  intro breaks rest
  obtain ⟨more, ha⟩ := has breaks (bs ++ rest)
  obtain ⟨most, hb⟩ := hbs more rest
  exact ⟨most, by rw [List.append_assoc, ha, hb]⟩

theorem PassedBy.flatMap {α : Type} {l : List α} {piece : α → List Char}
    (h : ∀ a ∈ l, PassedBy close (piece a)) : PassedBy close (l.flatMap piece) := by
  induction l with
  | nil => exact .nil
  | cons a l ih =>
    rw [List.flatMap_cons]
    exact (h a List.mem_cons_self).append (ih fun b hb => h b (List.mem_cons_of_mem a hb))

theorem passedBy_block_escape : PassedBy (Lexeme.closeBlock quote) ['\\', c] :=
  fun _ _ => ⟨_, by rw [List.cons_append, List.cons_append, List.nil_append, Lexeme.closeBlock]⟩

theorem closeText_char (hquote : c ≠ quote) (hslash : c ≠ '\\') (hline : c ≠ '\n') (breaks : Nat)
    (rest : List Char) :
    Lexeme.closeText quote breaks (c :: rest) = Lexeme.closeText quote breaks rest := by
  rw [Lexeme.closeText]
  · simp [hquote, hline]
  · exact fun _ _ h _ => hslash h

theorem closeText_quote (hslash : quote ≠ '\\') (breaks : Nat) (rest : List Char) :
    Lexeme.closeText quote breaks (quote :: rest) = .ok (breaks, rest) := by
  rw [Lexeme.closeText]
  · simp
  · exact fun _ _ h _ => hslash h

theorem passedBy_block_char (hquote : c ≠ quote) (hslash : c ≠ '\\') :
    PassedBy (Lexeme.closeBlock quote) [c] := by
  intro breaks rest
  refine ⟨if c == '\n' then breaks + 1 else breaks, ?_⟩
  rw [List.singleton_append, Lexeme.closeBlock]
  · rw [if_neg (by simp [hquote])]
  · exact fun _ _ h _ => hslash h

theorem passedBy_block_plain {cs : List Char} (h : ∀ c ∈ cs, c ≠ quote ∧ c ≠ '\\') :
    PassedBy (Lexeme.closeBlock quote) cs := by
  rw [← List.flatMap_singleton' cs]
  exact .flatMap fun c hc => passedBy_block_char (h c hc).1 (h c hc).2

/-- A quote that is not the first of three. -/
theorem closeBlock_quote (breaks : Nat) {cs : List Char} (h : cs.take 2 ≠ ['"', '"']) :
    Lexeme.closeBlock '"' breaks ('"' :: cs) = Lexeme.closeBlock '"' breaks cs := by
  rw [Lexeme.closeBlock]
  · rw [if_neg (by simpa using h)]
    rfl
  · exact fun _ _ hslash _ => absurd hslash (by decide)

end PassedBy

theorem closed_append (region : List Char → Region) (cs rest : List Char) (breaks : Nat) :
    closed region (cs ++ rest) (.ok (breaks, rest)) = (region cs, rest) := by
  simp [closed]

/-- A text in quotes that is no start of a block. -/
theorem all_text {quote : Char} (hq : quote = '\'' ∨ quote = '"') {more : Nat}
    {body rest : List Char}
    (hclose : Lexeme.closeText quote 0 (body ++ quote :: rest) = .ok (more, rest))
    (hblock : (body ++ quote :: rest).take 2 ≠ [quote, quote]) :
    all (quote :: body ++ quote :: rest) = text (quote :: body ++ [quote]) :: all rest := by
  have hcomment : (quote == '#') = false := by rcases hq with rfl | rfl <;> rfl
  have hquote : (quote == '\'' || quote == '"') = true := by rcases hq with rfl | rfl <;> rfl
  have hnext : next quote (body ++ quote :: rest) = (text (quote :: body ++ [quote]), rest) := by
    have hcut := closed_append text (quote :: body ++ [quote]) rest more
    unfold next
    rw [hcomment, hquote, if_neg Bool.false_ne_true, if_pos rfl, if_neg (by simpa using hblock),
      hclose]
    simpa using hcut
  rw [List.cons_append, all_cons, hnext]

/-- The triple quotes around a block. -/
def tripleQuote : List Char := ['"', '"', '"']

/-- A text that a search for triple quotes goes past makes a block. -/
theorem cutsInto_block {body : List Char} (hbody : PassedBy (Lexeme.closeBlock '"') body) :
    CutsInto (tripleQuote ++ body ++ tripleQuote) [block (tripleQuote ++ body ++ tripleQuote)] := by
  intro rest
  obtain ⟨more, hclose⟩ := hbody 0 (tripleQuote ++ rest)
  have hend : Lexeme.closeBlock '"' more (tripleQuote ++ rest) = .ok (more, rest) := by
    simp [tripleQuote, Lexeme.closeBlock]
  have hnext : next '"' ('"' :: '"' :: body ++ (tripleQuote ++ rest)) =
      (block (tripleQuote ++ body ++ tripleQuote), rest) := by
    have hcut := closed_append block (tripleQuote ++ body ++ tripleQuote) rest more
    have hdrop : ('"' :: '"' :: body ++ (tripleQuote ++ rest)).drop 2 =
      body ++ (tripleQuote ++ rest) := rfl
    unfold next
    rw [if_neg (by decide), if_pos (by decide), if_pos (by simp), hdrop, hclose, hend]
    simpa [tripleQuote] using hcut
  have hshape : tripleQuote ++ body ++ tripleQuote ++ rest =
      '"' :: ('"' :: '"' :: body ++ (tripleQuote ++ rest)) := by
    simp [tripleQuote]
  rw [hshape, all_cons, hnext]
  rfl

end Region
end HtmlTemplate
