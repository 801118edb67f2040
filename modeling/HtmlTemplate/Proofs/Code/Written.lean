import HtmlTemplate.Code.Expr
import HtmlTemplate.Code.Generator
import HtmlTemplate.Proofs.Text.Literal

/-!
# Written — the text of an expression, and how it reads

`Expr.written` is the one text that generated code uses for an expression.  Reading it gives the
expression back, its names in their normal spelling (`Expr.ofText_written`), as long as the names
are identifiers and every operand stands where its operator is allowed (`Expr.Writable`).
-/

namespace HtmlTemplate

open Text

namespace Token

/-! ## Scanning -/

/-- Whether a sequence goes on with a name or keyword. -/
def startsWithWord : List Token → Bool
  | .word _ :: _ => true
  | _ => false

/-- Whether tokens stay apart when they are written one after another. -/
def Apart : List Token → Prop
  | [] => True
  | .word w :: rest => isIdentifier w = true ∧ startsWithWord rest = false ∧ Apart rest
  | _ :: rest => Apart rest

/-- The characters of a token, if `printable` tells which ones are written as they are in
literals. -/
def charsBy (printable : Char → Bool) : Token → List Char
  | literal text => encodeLiteralBy printable text.toList
  | token => token.chars

/-- The text of tokens, if `printable` tells which characters are written as they are. -/
def textBy (printable : Char → Bool) (tokens : List Token) : String :=
  String.ofList (tokens.flatMap (charsBy printable))

theorem charsBy_isPrintable : charsBy isPrintable = chars := by
  funext token
  cases token <;> rfl

theorem textBy_isPrintable : textBy isPrintable = textOf := by
  funext tokens
  rw [textBy, charsBy_isPrintable, textOf]

theorem head_encodeLiteralBy (printable : Char → Bool) (cs : List Char) :
    ∃ quote rest, encodeLiteralBy printable cs = quote :: rest ∧ IsQuote quote :=
  ⟨chooseQuote cs, _, rfl, isQuote_chooseQuote cs⟩

section Scanning

variable {printable : Char → Bool}

/-- Nothing but a word goes on with a character that a word could take up. -/
theorem continues_charsBy {tokens : List Token} (h : startsWithWord tokens = false) :
    ∀ c ∈ (tokens.flatMap (charsBy printable)).head?, continuesIdentifier c = false := by
  intro c hc
  cases tokens with
  | nil => cases hc
  | cons token rest =>
    cases token with
    | literal text =>
      obtain ⟨quote, cs, he, hq⟩ := head_encodeLiteralBy printable text.toList
      simp only [List.flatMap_cons, charsBy, he, List.cons_append, List.head?_cons,
        Option.mem_some_iff] at hc
      subst hc
      rcases hq with rfl | rfl <;> decide
    | word w => cases h
    | _ =>
      simp only [List.flatMap_cons, charsBy, chars, List.cons_append, List.head?_cons,
        Option.mem_some_iff] at hc
      subst hc
      decide

theorem read_literal (text : String) (rest : List Char) :
    read ((literal text).charsBy printable ++ rest) = some (literal text, rest) := by
  obtain ⟨quote, cs, he, hq⟩ := head_encodeLiteralBy printable text.toList
  have hread := readLiteral_encodeLiteralBy printable text.toList rest
  change read (encodeLiteralBy printable text.toList ++ rest) = _
  rw [he, List.cons_append] at hread ⊢
  have hstarts : startsIdentifier quote = false := by rcases hq with rfl | rfl <;> decide
  have hsign : ofSign? quote = none := by rcases hq with rfl | rfl <;> rfl
  unfold read
  simp [hstarts, hsign, hread]

theorem read_word {w : String} (hw : isIdentifier w = true) {rest : List Char}
    (hrest : ∀ c ∈ rest.head?, continuesIdentifier c = false) :
    read (w.toList ++ rest) = some (word w, rest) := by
  cases hcs : w.toList with
  | nil => simp [isIdentifier, hcs, isIdentifierText] at hw
  | cons c cs =>
    have hcont : startsIdentifier c = true ∧ ∀ d ∈ cs, continuesIdentifier d = true := by
      simpa [isIdentifier, hcs, isIdentifierText] using hw
    -- The word takes up its own characters, and stops at the first behind them.
    have htake : (cs ++ rest).takeWhile continuesIdentifier = cs := by
      rw [List.takeWhile_append_of_pos hcont.2]
      cases rest with
      | nil => simp
      | cons d ds => simp [hrest d rfl]
    have hdrop : (cs ++ rest).dropWhile continuesIdentifier = rest := by
      rw [List.dropWhile_append_of_pos hcont.2]
      cases rest with
      | nil => simp
      | cons d ds => simp [hrest d rfl]
    unfold read
    simp only [List.cons_append, hcont.1, if_true, htake, hdrop]
    rw [← hcs, String.ofList_toList]

/-- A token that stands in front of others is the first that is read. -/
theorem read_charsBy (printable : Char → Bool) {token : Token} {rest : List Token}
    (h : Apart (token :: rest)) :
    read (token.charsBy printable ++ rest.flatMap (charsBy printable)) =
      some (token, rest.flatMap (charsBy printable)) := by
  cases token with
  | literal text => exact read_literal text _
  | word w => exact read_word h.1 (continues_charsBy h.2.1)
  | _ => rfl

theorem Apart.tail {token : Token} {rest : List Token} (h : Apart (token :: rest)) :
    Apart rest := by
  cases token with
  | word w => exact h.2.2
  | _ => exact h

/-- A text that is written token by token scans into the same tokens, whatever is printable. -/
theorem scan_charsBy {tokens : List Token} (h : Apart tokens) :
    scan (tokens.flatMap (charsBy printable)) = some tokens := by
  induction tokens with
  | nil => rw [scan.eq_def]; rfl
  | cons token rest ih =>
    have hread := read_charsBy printable h
    rw [scan.eq_def, List.flatMap_cons]
    split
    · rename_i hempty
      rw [List.isEmpty_iff.1 hempty] at hread
      cases hread
    · split
      · rename_i hnone
        rw [hread] at hnone
        cases hnone
      · rename_i hsome
        rw [hread] at hsome
        cases hsome
        rw [ih h.tail]
        rfl

end Scanning

end Token

namespace Expr

/-! ## Writing -/

mutual

/-- The tokens of an expression.  Every item of a tuple has a comma of its own. -/
def written : Expr → List Token
  | literal text => [.literal text]
  | name word => [.word word]
  | tuple items => .openParen :: (writtenItems items ++ [.closeParen])
  | member target word => target.written ++ [.dot, .word word]
  | call target arguments =>
    target.written ++ .openParen :: (writtenArguments arguments ++ [.closeParen])
  | function parameter? body => Generate.functionOpen parameter? ++ body.written
  | negation operand => .word "not" :: .space :: operand.written
  | plus left right => left.written ++ .space :: .plus :: .space :: right.written

def writtenItems : List Expr → List Token
  | [] => []
  | e :: es => e.written ++ Generate.separator ++ writtenItems es

def writtenArguments : List Expr → List Token
  | [] => []
  | e :: es => e.written ++ writtenFurther es

def writtenFurther : List Expr → List Token
  | [] => []
  | e :: es => Generate.separator ++ e.written ++ writtenFurther es

end

mutual

/-- An expression with all its names in their normal spelling. -/
def normal : Expr → Expr
  | literal text => literal text
  | name word => name (normalName word)
  | tuple items => tuple (normalAll items)
  | member target word => member target.normal (normalName word)
  | call target arguments => call target.normal (normalAll arguments)
  | function parameter? body => function (parameter?.map normalName) body.normal
  | negation operand => negation operand.normal
  | plus left right => plus left.normal right.normal

def normalAll : List Expr → List Expr
  | [] => []
  | e :: es => e.normal :: normalAll es

end

/-- How loosely an expression holds together without brackets around it. -/
def looseness : Expr → Nat
  | function _ _ => 3
  | negation _ => 2
  | plus _ _ => 1
  | _ => 0

/-- Whether a name may stand in an expression. -/
def Usable (word : String) : Prop := isIdentifier word = true ∧ isKeyword word = false

mutual

/-- Whether an expression can be written without further brackets. -/
def Writable : Expr → Prop
  | literal _ => True
  | name word => Usable word
  | tuple items => WritableAll items
  | member target word => target.looseness = 0 ∧ target.Writable ∧ Usable word
  | call target arguments => target.looseness = 0 ∧ target.Writable ∧ WritableAll arguments
  | function parameter? body => (∀ p ∈ parameter?, Usable p) ∧ body.Writable
  | negation operand => operand.looseness ≤ 2 ∧ operand.Writable
  | plus left right =>
    left.looseness ≤ 1 ∧ right.looseness = 0 ∧ left.Writable ∧ right.Writable

def WritableAll : List Expr → Prop
  | [] => True
  | e :: es => e.Writable ∧ WritableAll es

end

/-! ## Scanning what is written -/

section Apart

open Token

theorem startsWithWord_writtenFurther (es : List Expr) {rest : List Token}
    (h : startsWithWord rest = false) : startsWithWord (writtenFurther es ++ rest) = false := by
  cases es with
  | nil => exact h
  | cons e es => rfl

theorem apart_functionOpen {parameter? : Option String} (hp : ∀ p ∈ parameter?, Usable p)
    {rest : List Token} (h : Apart rest) : Apart (Generate.functionOpen parameter? ++ rest) := by
  cases parameter? with
  | none => exact ⟨by decide, rfl, h⟩
  | some p => exact ⟨by decide, rfl, (hp p rfl).1, rfl, h⟩

mutual

-- What follows the words of an expression is a bracket, a sign or a space, except at its end: there
-- it is up to `rest`.
theorem apart_written : ∀ (e : Expr) (rest : List Token), e.Writable → Apart rest →
    startsWithWord rest = false → Apart (e.written ++ rest)
  | literal _, _, _, h, _ => h
  | name _, _, hw, h, hs => ⟨hw.1, hs, h⟩
  | tuple items, rest, hw, h, _ => by
    have hitems := apart_writtenItems items (.closeParen :: rest) hw h rfl
    simpa [written, Apart] using hitems
  | member target w, rest, hw, h, hs => by
    have htarget := apart_written target (.dot :: .word w :: rest) hw.2.1
      ⟨hw.2.2.1, hs, h⟩ rfl
    simpa [written] using htarget
  | call target arguments, rest, hw, h, _ => by
    have harguments := apart_writtenArguments arguments (.closeParen :: rest) hw.2.2 h rfl
    have htarget := apart_written target
      (.openParen :: (writtenArguments arguments ++ .closeParen :: rest)) hw.2.1 harguments rfl
    simpa [written] using htarget
  | function parameter? body, rest, hw, h, hs => by
    have hbody := apart_written body rest hw.2 h hs
    simpa [written] using apart_functionOpen hw.1 hbody
  | negation operand, rest, hw, h, hs => by
    have hoperand := apart_written operand rest hw.2 h hs
    exact ⟨by decide, rfl, hoperand⟩
  | plus left right, rest, hw, h, hs => by
    have hright := apart_written right rest hw.2.2.2 h hs
    have hleft := apart_written left
      (.space :: .plus :: .space :: (right.written ++ rest)) hw.2.2.1 hright rfl
    simpa [written] using hleft

theorem apart_writtenItems : ∀ (es : List Expr) (rest : List Token), WritableAll es →
    Apart rest → startsWithWord rest = false → Apart (writtenItems es ++ rest)
  | [], _, _, h, _ => h
  | e :: es, rest, hw, h, hs => by
    have hes := apart_writtenItems es rest hw.2 h hs
    have he := apart_written e
      (.comma :: .space :: (writtenItems es ++ rest)) hw.1 hes rfl
    simpa [writtenItems, Generate.separator] using he

theorem apart_writtenArguments : ∀ (es : List Expr) (rest : List Token), WritableAll es →
    Apart rest → startsWithWord rest = false → Apart (writtenArguments es ++ rest)
  | [], _, _, h, _ => h
  | e :: es, rest, hw, h, hs => by
    have hes := apart_writtenFurther es rest hw.2 h hs
    have he := apart_written e _ hw.1 hes (startsWithWord_writtenFurther es hs)
    simpa [writtenArguments] using he

theorem apart_writtenFurther : ∀ (es : List Expr) (rest : List Token), WritableAll es →
    Apart rest → startsWithWord rest = false → Apart (writtenFurther es ++ rest)
  | [], _, _, h, _ => h
  | e :: es, rest, hw, h, hs => by
    have hes := apart_writtenFurther es rest hw.2 h hs
    have he := apart_written e _ hw.1 hes (startsWithWord_writtenFurther es hs)
    simpa [writtenFurther, Generate.separator, Apart] using he

end

end Apart

/-! ## Reading what is written -/

/-- Where a reader stands after an expression: the operand that it has, and what is open. -/
def reached : Expr → List Opening → Expr × List Opening
  | function parameter? body, stack => body.reached (.function (parameter?.map normalName) :: stack)
  | negation operand, stack => operand.reached (.negation :: stack)
  | plus left right, stack => (right.normal, .plus left.normal :: stack)
  | e, stack => (e.normal, stack)

theorem reached_of_tight {e : Expr} (h : e.looseness = 0) (stack : List Opening) :
    e.reached stack = (e.normal, stack) := by
  cases e with
  | function => cases h
  | negation => cases h
  | plus => cases h
  | _ => rfl

theorem settle_reached (e : Expr) (stack : List Opening) :
    settle (e.reached stack).1 (e.reached stack).2 = settle e.normal stack := by
  -- The induction follows the operand that stands last and is still open.
  induction e, stack using reached.induct with
  | case1 parameter? body stack ih => exact ih
  | case2 operand stack ih => exact ih
  | case3 left right stack => rfl
  | case4 e stack hfun hneg hplus =>
    rw [reached]
    · exact hfun
    · exact hneg
    · exact hplus

/-- Whether an expression may start where these brackets and operators are open. -/
def Admits : List Opening → Nat → Prop
  | .plus _ :: _, n => n = 0
  | .negation :: _, n => n ≤ 2
  | _, _ => True

theorem admits_zero (stack : List Opening) : Admits stack 0 := by
  cases stack with
  | nil => trivial
  | cons opening stack => cases opening <;> simp [Admits]

theorem settleSum_reached {e : Expr} {stack : List Opening} (he : e.looseness ≤ 1)
    (ha : Admits stack 1) :
    settleSum (e.reached stack).1 (e.reached stack).2 = (e.normal, stack) := by
  -- Only a sum that waits for its right side could be settled further, and that admits no sum.
  have htight : settleSum e.normal stack = (e.normal, stack) := by
    cases stack with
    | nil => rfl
    | cons opening stack => cases opening <;> first | rfl | cases ha
  cases e with
  | function => simp [looseness] at he
  | negation => simp [looseness] at he
  | plus left right => rfl
  | _ => exact htight

theorem admitsFunction_of_admits {stack : List Opening} (h : Admits stack 3) :
    admitsFunction stack = true := by
  cases stack with
  | nil => rfl
  | cons opening stack => cases opening <;> first | rfl | simp [Admits] at h

theorem admitsNegation_of_admits {stack : List Opening} (h : Admits stack 2) :
    admitsNegation stack = true := by
  cases stack with
  | nil => rfl
  | cons opening stack => cases opening <;> first | rfl | simp [Admits] at h

theorem Usable.ne_lambda {w : String} (h : Usable w) : w ≠ "lambda" := by
  rintro rfl
  exact absurd h.2 (by decide)

theorem Usable.ne_not {w : String} (h : Usable w) : w ≠ "not" := by
  rintro rfl
  exact absurd h.2 (by decide)

theorem readOperand_word {w : String} (h : Usable w) (stack : List Opening) :
    readOperand stack (.word w) = .ok ⟨.operator (name (normalName w)), stack⟩ := by
  simp [readOperand, h.ne_lambda, h.ne_not, h.2]

/-- Reads tokens one after another. -/
def readAll (tokens : List Token) (r : Reading) : Except RenderFault Reading :=
  tokens.foldlM readToken r

theorem readAll_append {tokens more : List Token} {r next : Reading}
    (h : readAll tokens r = .ok next) : readAll (tokens ++ more) r = readAll more next := by
  unfold readAll at h ⊢
  rw [List.foldlM_append, h]
  rfl

theorem readAll_cons {token : Token} {tokens : List Token} {r next : Reading}
    (h : readToken r token = .ok next) : readAll (token :: tokens) r = readAll tokens next := by
  unfold readAll
  rw [List.foldlM_cons, h]
  rfl

/-- The start of a function, read where an operand may start. -/
theorem readAll_functionOpen {parameter? : Option String} (hp : ∀ p ∈ parameter?, Usable p)
    {stack : List Opening} (ha : Admits stack 3) :
    readAll (Generate.functionOpen parameter?) ⟨.operand, stack⟩ =
      .ok ⟨.operand, .function (parameter?.map normalName) :: stack⟩ := by
  have hlambda : readToken ⟨.operand, stack⟩ (.word "lambda") = .ok ⟨.parameter, stack⟩ :=
    if_pos (admitsFunction_of_admits ha)
  cases parameter? with
  | none =>
    unfold Generate.functionOpen
    rw [readAll_cons hlambda]
    rfl
  | some p =>
    have hword : readToken ⟨.parameter, stack⟩ (.word p) = .ok ⟨.colon (normalName p), stack⟩ := by
      simp [readToken, (hp p rfl).2]
    have hspace : readToken ⟨.parameter, stack⟩ .space = .ok ⟨.parameter, stack⟩ := rfl
    unfold Generate.functionOpen
    rw [readAll_cons hlambda, readAll_cons hspace, readAll_cons hword]
    rfl

section Brackets

variable {e settled target : Expr} {done : List Expr} {pending stack : List Opening}

theorem readToken_comma_group (h : settle e pending = (settled, .group done :: stack)) :
    readToken ⟨.operator e, pending⟩ .comma = .ok ⟨.operand, .group (done ++ [settled]) :: stack⟩ := by
  simp [readToken, readOperator, h]

theorem readToken_comma_call (h : settle e pending = (settled, .call target done :: stack)) :
    readToken ⟨.operator e, pending⟩ .comma =
      .ok ⟨.operand, .call target (done ++ [settled]) :: stack⟩ := by
  simp [readToken, readOperator, h]

theorem readToken_close_call (h : settle e pending = (settled, .call target done :: stack)) :
    readToken ⟨.operator e, pending⟩ .closeParen =
      .ok ⟨.operator (call target (done ++ [settled])), stack⟩ := by
  simp [readToken, readOperator, h]

theorem readAll_separator {r : Reading} (h : readToken ⟨.operator e, pending⟩ .comma = .ok r) :
    readAll Generate.separator ⟨.operator e, pending⟩ = .ok r := by
  unfold Generate.separator
  rw [readAll_cons h]
  rfl

end Brackets

mutual

/-- A written expression is read as itself, up to the operators that wait for what follows. -/
theorem readAll_written : ∀ (e : Expr) (stack : List Opening), e.Writable →
    Admits stack e.looseness → readAll e.written ⟨.operand, stack⟩ =
      .ok ⟨.operator (e.reached stack).1, (e.reached stack).2⟩
  | literal text, stack, _, _ => rfl
  | name word, stack, hw, _ => by
    have hword : readToken ⟨.operand, stack⟩ (.word word) =
        .ok ⟨.operator (name (normalName word)), stack⟩ := readOperand_word hw stack
    exact readAll_cons hword
  | tuple items, stack, hw, _ => by
    have hitems := readAll_writtenItems items [] stack hw
    have hopen : readToken ⟨.operand, stack⟩ .openParen = .ok ⟨.operand, .group [] :: stack⟩ := rfl
    exact (readAll_cons hopen).trans hitems
  | member target word, stack, hw, _ => by
    obtain ⟨htight, htarget, hword⟩ := hw
    -- A target holds together, so that it is settled as soon as it has been read.
    have ht := readAll_written target stack htarget (htight ▸ admits_zero stack)
    rw [reached_of_tight htight] at ht
    have hmember : readToken ⟨.member target.normal, stack⟩ (.word word) =
        .ok ⟨.operator (member target.normal (normalName word)), stack⟩ := by
      simp [readToken, hword.2]
    have hdot : readToken ⟨.operator target.normal, stack⟩ .dot =
        .ok ⟨.member target.normal, stack⟩ := rfl
    rw [written, readAll_append ht, readAll_cons hdot, readAll_cons hmember]
    rfl
  | call target arguments, stack, hw, _ => by
    obtain ⟨htight, htarget, harguments⟩ := hw
    have ht := readAll_written target stack htarget (htight ▸ admits_zero stack)
    rw [reached_of_tight htight] at ht
    have hopen : readToken ⟨.operator target.normal, stack⟩ .openParen =
        .ok ⟨.operand, .call target.normal [] :: stack⟩ := rfl
    rw [written, readAll_append ht, readAll_cons hopen,
      readAll_writtenArguments arguments target.normal stack harguments]
    rfl
  | function parameter? body, stack, hw, ha => by
    have hbody := readAll_written body (.function (parameter?.map normalName) :: stack) hw.2 trivial
    rw [written, readAll_append (readAll_functionOpen hw.1 ha), hbody]
    rfl
  | negation operand, stack, hw, ha => by
    have hnot : readToken ⟨.operand, stack⟩ (.word "not") =
        .ok ⟨.operand, .negation :: stack⟩ := if_pos (admitsNegation_of_admits ha)
    have hspace : readToken ⟨.operand, .negation :: stack⟩ .space =
        .ok ⟨.operand, .negation :: stack⟩ := rfl
    have hoperand := readAll_written operand (.negation :: stack) hw.2 hw.1
    rw [written, readAll_cons hnot, readAll_cons hspace, hoperand]
    rfl
  | plus left right, stack, hw, ha => by
    obtain ⟨hleft, hright, hwl, hwr⟩ := hw
    have hal : Admits stack left.looseness := by
      rcases Nat.le_one_iff_eq_zero_or_eq_one.1 hleft with h | h
      · exact h ▸ admits_zero stack
      · exact h ▸ ha
    -- The sign settles the left side, whatever that has left open.
    have hplus : readToken ⟨.operator (left.reached stack).1, (left.reached stack).2⟩ .plus =
        .ok ⟨.operand, .plus left.normal :: stack⟩ := by
      simp [readToken, readOperator, settleSum_reached hleft ha]
    have hspace : readToken ⟨.operand, .plus left.normal :: stack⟩ .space =
        .ok ⟨.operand, .plus left.normal :: stack⟩ := rfl
    have hr := readAll_written right (.plus left.normal :: stack) hwr
      (hright ▸ admits_zero (.plus left.normal :: stack))
    rw [reached_of_tight hright] at hr
    rw [written, readAll_append (readAll_written left stack hwl hal), readAll_cons (by rfl),
      readAll_cons hplus, readAll_cons hspace, hr]
    rfl

theorem readAll_writtenItems : ∀ (es done : List Expr) (stack : List Opening), WritableAll es →
    readAll (writtenItems es ++ [.closeParen]) ⟨.operand, .group done :: stack⟩ =
      .ok ⟨.operator (tuple (done ++ normalAll es)), stack⟩
  | [], done, stack, _ => by
    rw [normalAll, List.append_nil]
    rfl
  | e :: es, done, stack, hw => by
    have he := readAll_written e (.group done :: stack) hw.1 trivial
    -- The comma settles the item, and the group is on top of the stack again.
    have hcomma := readAll_separator (readToken_comma_group (settle_reached e (.group done :: stack)))
    rw [writtenItems, List.append_assoc, List.append_assoc, readAll_append he, readAll_append hcomma,
      readAll_writtenItems es _ stack hw.2, normalAll, List.append_assoc]
    rfl

theorem readAll_writtenArguments : ∀ (es : List Expr) (target : Expr) (stack : List Opening),
    WritableAll es → readAll (writtenArguments es ++ [.closeParen])
      ⟨.operand, .call target [] :: stack⟩ = .ok ⟨.operator (call target (normalAll es)), stack⟩
  | [], _, _, _ => rfl
  | e :: es, target, stack, hw => by
    have he := readAll_written e (.call target [] :: stack) hw.1 trivial
    rw [writtenArguments, List.append_assoc, readAll_append he,
      readAll_writtenFurther es hw.2 (settle_reached e (.call target [] :: stack)), normalAll]
    rfl

theorem readAll_writtenFurther : ∀ (es : List Expr) {e settled target : Expr} {done : List Expr}
    {pending stack : List Opening}, WritableAll es →
    settle e pending = (settled, .call target done :: stack) →
    readAll (writtenFurther es ++ [.closeParen]) ⟨.operator e, pending⟩ =
      .ok ⟨.operator (call target (done ++ settled :: normalAll es)), stack⟩
  | [], e, settled, target, done, pending, stack, _, h => readAll_cons (readToken_close_call h)
  | next :: es, e, settled, target, done, pending, stack, hw, h => by
    have hcomma := readAll_separator (readToken_comma_call h)
    have hnext := readAll_written next (.call target (done ++ [settled]) :: stack) hw.1 trivial
    have hes := readAll_writtenFurther es hw.2
      (settle_reached next (.call target (done ++ [settled]) :: stack))
    rw [writtenFurther, List.append_assoc, List.append_assoc, readAll_append hcomma,
      readAll_append hnext, hes, normalAll, List.append_assoc]
    rfl

end

theorem ofTokens_written {e : Expr} (hw : e.Writable) : ofTokens e.written = .ok e.normal := by
  have hread := readAll_written e [] hw (by cases e <;> trivial)
  have hfinish : finish ⟨.operator (e.reached []).1, (e.reached []).2⟩ = .ok e.normal := by
    unfold finish
    simp only [settle_reached]
    rfl
  have hall : (e.written.foldlM readToken ⟨.operand, []⟩ >>= finish) = .ok e.normal := by
    rw [show e.written.foldlM readToken ⟨.operand, []⟩ = _ from hread]
    exact hfinish
  unfold ofTokens
  rw [hall]

/-- The text of an expression is read as that expression, whatever is printable. -/
theorem ofText_textBy (printable : Char → Bool) {e : Expr} (hw : e.Writable) :
    ofText (Token.textBy printable e.written) = .ok e.normal := by
  have happart := apart_written e [] hw trivial rfl
  rw [List.append_nil] at happart
  unfold ofText Token.textBy
  rw [String.toList_ofList, Token.scan_charsBy happart]
  exact ofTokens_written hw

/-- The text of an expression is read as that expression. -/
theorem ofText_written {e : Expr} (hw : e.Writable) :
    ofText (Token.textOf e.written) = .ok e.normal := by
  rw [← Token.textBy_isPrintable]
  exact ofText_textBy isPrintable hw

end Expr
end HtmlTemplate
