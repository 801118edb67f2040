import HtmlTemplate.Proofs.Bundle.Region
import HtmlTemplate.Proofs.Code.Written
import HtmlTemplate.Proofs.Text.Key
import Mathlib.Data.List.Chain

/-!
# Tokens — the regions of an expression's text

A literal is a text, and every other token is code.  Tokens are cut one by one as long as no two
literals stand side by side (`Token.all_chars`), which is so in what is written of an expression
(`Expr.spaced_written`).
-/

namespace HtmlTemplate

open Text Region

/-! ## Literals -/

namespace Text

variable {quote : Char}

/-- A character is written as itself or by an escape, which goes on in letters and digits. -/
theorem encodeCharBy_cases (printable : Char → Bool) (hq : IsQuote quote) (c : Char) :
    (encodeCharBy printable quote c = [c] ∧ c ≠ quote ∧ c ≠ '\\' ∧ c ≠ '\n' ∧ c ≠ '\r') ∨
      ∃ d ds, encodeCharBy printable quote c = '\\' :: d :: ds ∧ (d ≠ '\n' ∧ d ≠ '\r') ∧
        ∀ e ∈ ds, ∃ m : Fin 16, e = hexDigit m := by
  have hdigits : ∀ width n, ∀ e ∈ hexDigits width n, ∃ m : Fin 16, e = hexDigit m :=
    forall_hexDigits (P := fun e => ∃ m : Fin 16, e = hexDigit m) fun m => ⟨m, rfl⟩
  have hnone : ∀ e ∈ ([] : List Char), ∃ m : Fin 16, e = hexDigit m :=
    fun _ he => absurd he List.not_mem_nil
  unfold encodeCharBy
  -- The cases of `encodeCharBy`, in its order.
  split
  · rename_i hc
    refine Or.inr ⟨c, [], rfl, ?_, hnone⟩
    rcases Bool.or_eq_true .. ▸ hc with hc | hc
    · obtain rfl := eq_of_beq hc
      rcases hq with rfl | rfl <;> decide
    · obtain rfl := eq_of_beq hc
      decide
  · rename_i hc
    split
    · exact Or.inr ⟨'t', [], rfl, by decide, hnone⟩
    · split
      · exact Or.inr ⟨'n', [], rfl, by decide, hnone⟩
      · rename_i hn
        split
        · exact Or.inr ⟨'r', [], rfl, by decide, hnone⟩
        · rename_i hr
          split
          · simp only [Bool.or_eq_true, beq_iff_eq, not_or] at hc hn hr
            exact Or.inl ⟨rfl, hc.1, hc.2, hn, hr⟩
          · unfold escapeCode
            split
            · exact Or.inr ⟨'x', _, rfl, by decide, hdigits 2 _⟩
            · split
              · exact Or.inr ⟨'u', _, rfl, by decide, hdigits 4 _⟩
              · exact Or.inr ⟨'U', _, rfl, by decide, hdigits 8 _⟩

/-- A search for the closing quote goes past the characters of a literal, on the same line. -/
theorem closeText_encodeCharBy (printable : Char → Bool) (hq : IsQuote quote) (c : Char)
    (breaks : Nat) (rest : List Char) :
    Lexeme.closeText quote breaks (encodeCharBy printable quote c ++ rest) =
      Lexeme.closeText quote breaks rest := by
  rcases encodeCharBy_cases printable hq c with
    ⟨h, hquote, hslash, hline, -⟩ | ⟨d, ds, h, ⟨hline, -⟩, hds⟩
  · rw [h]
    exact closeText_char hquote hslash hline breaks rest
  · rw [h, List.cons_append, List.cons_append, Lexeme.closeText, if_neg (by simpa using hline)]
    clear h
    induction ds with
    | nil => rfl
    | cons e ds ih =>
      obtain ⟨he, hrest⟩ := List.forall_mem_cons.1 hds
      obtain ⟨m, rfl⟩ := he
      have hdigit : ∀ m : Fin 16, hexDigit m ≠ '\'' ∧ hexDigit m ≠ '"' ∧ hexDigit m ≠ '\\' ∧
          hexDigit m ≠ '\n' := by decide
      obtain ⟨hsingle, hdouble, hslash, hbreak⟩ := hdigit m
      have hquote : hexDigit m ≠ quote := by
        rcases hq with rfl | rfl
        · exact hsingle
        · exact hdouble
      exact (closeText_char hquote hslash hbreak breaks (ds ++ rest)).trans (ih hrest)

/-- The first quote that is not escaped is the closing one. -/
theorem closeText_flatMap (printable : Char → Bool) (hq : IsQuote quote) (cs rest : List Char) :
    Lexeme.closeText quote 0 (cs.flatMap (encodeCharBy printable quote) ++ quote :: rest) =
      .ok (0, rest) := by
  induction cs with
  | nil => exact closeText_quote (by rcases hq with rfl | rfl <;> decide) 0 rest
  | cons c cs ih =>
    rw [List.flatMap_cons, List.append_assoc, closeText_encodeCharBy printable hq, ih]

/-- A literal is a text, if no quote follows it. -/
theorem all_encodeLiteralBy (printable : Char → Bool) (cs : List Char) {rest : List Char}
    (hrest : ∀ c ∈ rest.head?, ¬ IsQuote c) : all (encodeLiteralBy printable cs ++ rest) =
      text (encodeLiteralBy printable cs) :: all rest := by
  have hq := isQuote_chooseQuote cs
  have hclose := closeText_flatMap printable hq cs rest
  have hblock : (cs.flatMap (encodeCharBy printable (chooseQuote cs)) ++
      chooseQuote cs :: rest).take 2 ≠ [chooseQuote cs, chooseQuote cs] := by
    generalize chooseQuote cs = quote at hq
    cases cs with
    | nil =>
      -- The quotes of an empty text are the start of a block only if a third one follows.
      cases rest with
      | nil => simp
      | cons d ds =>
        have hd : d ≠ quote := fun h => hrest d rfl (h ▸ hq)
        simpa using hd
    | cons c cs =>
      rcases encodeCharBy_cases printable hq c with ⟨h, hquote, -⟩ | ⟨d, ds, h, -⟩
      · simp [h, hquote]
      · have hslash : '\\' ≠ quote := by rcases hq with rfl | rfl <;> decide
        simp [h, hslash]
  have hall := all_text hq hclose hblock
  unfold encodeLiteralBy
  simpa using hall

/-- A literal lies on one line. -/
theorem not_mem_encodeLiteralBy (printable : Char → Bool) (cs : List Char) :
    '\n' ∉ encodeLiteralBy printable cs ∧ '\r' ∉ encodeLiteralBy printable cs := by
  have hq := isQuote_chooseQuote cs
  have hquote : '\n' ≠ chooseQuote cs ∧ '\r' ≠ chooseQuote cs := by
    rcases hq with h | h <;> rw [h] <;> decide
  have hchar : ∀ c, '\n' ∉ encodeCharBy printable (chooseQuote cs) c ∧
      '\r' ∉ encodeCharBy printable (chooseQuote cs) c := by
    intro c
    rcases encodeCharBy_cases printable hq c with ⟨h, -, -, hn, hr⟩ | ⟨d, ds, h, ⟨hn, hr⟩, hds⟩
    · simpa [h] using ⟨Ne.symm hn, Ne.symm hr⟩
    · have hdigit : ∀ m : Fin 16, '\n' ≠ hexDigit m ∧ '\r' ≠ hexDigit m := by decide
      have hfree : ∀ e ∈ ds, '\n' ≠ e ∧ '\r' ≠ e := by
        intro e he
        obtain ⟨m, rfl⟩ := hds e he
        exact hdigit m
      rw [h]
      simp only [List.mem_cons, not_or]
      exact ⟨⟨by decide, Ne.symm hn, fun hmem => (hfree _ hmem).1 rfl⟩,
        by decide, Ne.symm hr, fun hmem => (hfree _ hmem).2 rfl⟩
  unfold encodeLiteralBy
  simp [hquote, hchar]

theorem ne_of_continuesIdentifier {c d : Char} (hc : continuesIdentifier c = true)
    (hd : continuesIdentifier d = false) : c ≠ d := by
  rintro rfl
  rw [hc] at hd
  cases hd

/-- A character of an identifier is code. -/
theorem isCode_of_continuesIdentifier {c : Char} (h : continuesIdentifier c = true) :
    isCode c = true := by
  have hne : ∀ d, continuesIdentifier d = false → c ≠ d := fun d => ne_of_continuesIdentifier h
  simp [isCode, hne '#' (by decide), hne '\'' (by decide), hne '"' (by decide),
    hne '\r' (by decide)]

theorem continuesIdentifier_of_mem {word : String} (h : isIdentifier word = true) {c : Char}
    (hc : c ∈ word.toList) : continuesIdentifier c = true := by
  have hstarts : ∀ {c}, startsIdentifier c = true → continuesIdentifier c = true := by
    intro c hc
    unfold startsIdentifier at hc
    unfold continuesIdentifier
    split at hc
    · rename_i hascii
      rcases Bool.or_eq_true .. ▸ hc with hc | hc
      · simp [hascii, isWordChar, Char.isAlphanum, hc]
      · simp [hascii, isWordChar, hc]
    · rename_i hother
      simp [hother, hc]
  unfold isIdentifier at h
  cases hword : word.toList with
  | nil =>
    rw [hword] at hc
    cases hc
  | cons d ds =>
    rw [hword] at h hc
    obtain ⟨hfirst, hothers⟩ := Bool.and_eq_true_iff.1 h
    rcases List.mem_cons.1 hc with rfl | hc
    · exact hstarts hfirst
    · exact List.all_eq_true.1 hothers c hc

theorem isCode_of_isIdentifier {word : String} (h : isIdentifier word = true) :
    word.toList.all isCode = true :=
  List.all_eq_true.2 fun _ hc => isCode_of_continuesIdentifier (continuesIdentifier_of_mem h hc)

end Text

/-! ## Expressions -/

namespace Token

/-- Whether a token is neither a literal nor a word. -/
def isSign : Token → Bool
  | literal _ => false
  | word _ => false
  | _ => true

/-- Whether one of any two tokens that stand side by side is a sign. -/
def Spaced (tokens : List Token) : Prop := tokens.IsChain fun a b => (a.isSign || b.isSign) = true

/-- Whether a sequence goes on with a sign, if it goes on. -/
def startsWithSign (tokens : List Token) : Bool := tokens.head?.all isSign

section Spaced

variable {token : Token} {tokens : List Token}

theorem Spaced.sign_cons (h : Spaced tokens) (htoken : token.isSign = true) :
    Spaced (token :: tokens) :=
  h.cons fun _ _ => by rw [htoken, Bool.true_or]

theorem Spaced.cons_sign (h : Spaced tokens) (htokens : startsWithSign tokens = true) :
    Spaced (token :: tokens) :=
  h.cons fun next hnext => by
    unfold startsWithSign at htokens
    rw [Option.mem_def.1 hnext] at htokens
    rw [show next.isSign = true from htokens, Bool.or_true]

end Spaced

/-- The regions of a token. -/
def regions : Token → List Region
  | literal content => [.text (encodeLiteral content.toList)]
  | token => token.chars.map .code

theorem codeOf_regions (tokens : List Token) :
    codeOf (tokens.flatMap regions) = tokens.flatMap chars := by
  induction tokens with
  | nil => rfl
  | cons token tokens ih =>
    have htoken : codeOf token.regions = token.chars := by
      cases token with
      | literal content => simp [regions, codeOf, chars]
      | _ => exact codeOf_code _
    rw [List.flatMap_cons, List.flatMap_cons, codeOf_append, htoken, ih]

/-- What starts with a sign does not start with a quote. -/
theorem head_chars {tokens : List Token} (h : startsWithSign tokens = true) {rest : List Char}
    (hrest : ∀ c ∈ rest.head?, ¬ IsQuote c) :
    ∀ c ∈ (tokens.flatMap chars ++ rest).head?, ¬ IsQuote c := by
  intro c hc
  cases tokens with
  | nil => exact hrest c hc
  | cons token tokens =>
    cases token with
    | literal content => cases h
    | word name => cases h
    | _ =>
      cases hc
      exact fun hquote => hquote.elim (by decide) (by decide)

/-- Tokens are cut one by one. -/
theorem all_chars {tokens : List Token} (hapart : Apart tokens) (hspaced : Spaced tokens)
    {rest : List Char} (hrest : ∀ c ∈ rest.head?, ¬ IsQuote c) :
    all (tokens.flatMap chars ++ rest) = tokens.flatMap regions ++ all rest := by
  induction tokens with
  | nil => rfl
  | cons token tokens ih =>
    have htail := ih hapart.tail (List.IsChain.tail hspaced)
    rw [List.flatMap_cons, List.append_assoc, List.flatMap_cons, List.append_assoc, ← htail]
    cases token with
    | literal content =>
      refine all_encodeLiteralBy isPrintable content.toList (head_chars ?_ hrest)
      cases tokens with
      | nil => rfl
      | cons next tokens => exact (List.isChain_cons_cons.1 hspaced).1
    | word name => exact cutsInto_code (isCode_of_isIdentifier hapart.1) _
    | _ => exact cutsInto_code (by decide) _

/-- The text of tokens is cut into their regions. -/
theorem all_textOf {tokens : List Token} (hapart : Apart tokens) (hspaced : Spaced tokens) :
    all (textOf tokens).toList = tokens.flatMap regions := by
  have hend : ∀ c ∈ ([] : List Char).head?, ¬ IsQuote c := fun c hc => by cases hc
  have hall := all_chars hapart hspaced hend
  rw [textOf, String.toList_ofList]
  rwa [List.append_nil, all_nil, List.append_nil] at hall

theorem not_mem_chars {tokens : List Token} (h : Apart tokens) : '\r' ∉ tokens.flatMap chars := by
  induction tokens with
  | nil => exact List.not_mem_nil
  | cons token tokens ih =>
    have htoken : '\r' ∉ token.chars := by
      cases token with
      | literal content => exact (not_mem_encodeLiteralBy isPrintable content.toList).2
      | word name => exact not_mem_of_isCode (isCode_of_isIdentifier h.1)
      | _ => exact (by decide)
    rw [List.flatMap_cons]
    exact List.not_mem_append htoken (ih h.tail)

end Token

namespace Expr

open Token

theorem spaced_functionOpen (parameter? : Option String) {rest : List Token} (h : Spaced rest) :
    Spaced (Generate.functionOpen parameter? ++ rest) := by
  cases parameter? with
  | none => exact ((h.sign_cons rfl).sign_cons rfl).cons_sign rfl
  | some p => exact ((((h.sign_cons rfl).sign_cons rfl).cons_sign rfl).sign_cons rfl).cons_sign rfl

theorem startsWithSign_writtenFurther (es : List Expr) {rest : List Token}
    (h : startsWithSign rest = true) : startsWithSign (writtenFurther es ++ rest) = true := by
  cases es with
  | nil => exact h
  | cons e es => rfl

mutual

-- An operand starts behind a sign or at the start, and a sign follows it except at its end: there
-- it is up to `rest`.
theorem spaced_written : ∀ (e : Expr) (rest : List Token), Spaced rest →
    startsWithSign rest = true → Spaced (e.written ++ rest)
  | literal _, _, h, hs => h.cons_sign hs
  | name _, _, h, hs => h.cons_sign hs
  | tuple items, rest, h, _ => by
    have hitems := spaced_writtenItems items (.closeParen :: rest) (h.sign_cons rfl) rfl
    have hopen : Spaced (.openParen :: (writtenItems items ++ .closeParen :: rest)) :=
      hitems.sign_cons rfl
    simpa [written] using hopen
  | member target w, rest, h, hs => by
    have htarget := spaced_written target (.dot :: .word w :: rest)
      ((h.cons_sign hs).sign_cons rfl) rfl
    simpa [written] using htarget
  | call target arguments, rest, h, _ => by
    have harguments := spaced_writtenArguments arguments (.closeParen :: rest) (h.sign_cons rfl) rfl
    have htarget := spaced_written target
      (.openParen :: (writtenArguments arguments ++ .closeParen :: rest))
      (harguments.sign_cons rfl) rfl
    simpa [written] using htarget
  | function parameter? body, rest, h, hs => by
    have hbody := spaced_written body rest h hs
    simpa [written] using spaced_functionOpen parameter? hbody
  | negation operand, rest, h, hs => by
    have hoperand := spaced_written operand rest h hs
    exact (hoperand.sign_cons rfl).cons_sign rfl
  | plus left right, rest, h, hs => by
    have hright := spaced_written right rest h hs
    have hleft := spaced_written left (.space :: .plus :: .space :: (right.written ++ rest))
      (((hright.sign_cons rfl).sign_cons rfl).sign_cons rfl) rfl
    simpa [written] using hleft

theorem spaced_writtenItems : ∀ (es : List Expr) (rest : List Token), Spaced rest →
    startsWithSign rest = true → Spaced (writtenItems es ++ rest)
  | [], _, h, _ => h
  | e :: es, rest, h, hs => by
    have hes := spaced_writtenItems es rest h hs
    have he := spaced_written e (.comma :: .space :: (writtenItems es ++ rest))
      ((hes.sign_cons rfl).sign_cons rfl) rfl
    simpa [writtenItems, Generate.separator] using he

theorem spaced_writtenArguments : ∀ (es : List Expr) (rest : List Token), Spaced rest →
    startsWithSign rest = true → Spaced (writtenArguments es ++ rest)
  | [], _, h, _ => h
  | e :: es, rest, h, hs => by
    have hes := spaced_writtenFurther es rest h hs
    have he := spaced_written e _ hes (startsWithSign_writtenFurther es hs)
    simpa [writtenArguments] using he

theorem spaced_writtenFurther : ∀ (es : List Expr) (rest : List Token), Spaced rest →
    startsWithSign rest = true → Spaced (writtenFurther es ++ rest)
  | [], _, h, _ => h
  | e :: es, rest, h, hs => by
    have hes := spaced_writtenFurther es rest h hs
    have he := spaced_written e _ hes (startsWithSign_writtenFurther es hs)
    have hcomma : Spaced (.comma :: .space :: (e.written ++ (writtenFurther es ++ rest))) :=
      (he.sign_cons rfl).sign_cons rfl
    simpa [writtenFurther, Generate.separator] using hcomma

end

end Expr

end HtmlTemplate
