import HtmlTemplate.Proofs.Bundle.Tokens

/-!
# Brackets — how deep the brackets of a text nest

Read from left to right, the regions of a text open and close brackets; what stands inside texts in
quotes, blocks and comments is passed over (`Region.openBehind`).  Tokens climb from some number of
open brackets to another (`Token.Climbs`), and so does their text (`Token.Climbs.nests`).  How high
an expression climbs above the place where it stands is told by its tree (`Expr.climbs_written`).
-/

namespace HtmlTemplate

open Text

namespace Region

/-! ## Open brackets -/

/-- Whether a character closes a bracket. -/
def isClosing (c : Char) : Bool := c == ')' || c == ']' || c == '\x7d'

/-- The brackets that are open behind a character of code, the innermost first.  Only the innermost
one can be closed, by the bracket that belongs to it. -/
def turnAt (c : Char) (opened : List Char) : Option (List Char) :=
  if (Lexeme.closingOf? c).isSome then some (c :: opened)
  else if isClosing c then
    match opened with
    | [] => none
    | b :: outer => if Lexeme.closingOf? b = some c then some outer else none
  else some opened

/-- The brackets that are open behind a region. -/
def turn (opened : List Char) : Region → Option (List Char)
  | code c => turnAt c opened
  | unclosed _ => none
  | _ => some opened

/-- The brackets that are open behind regions, if all closing ones match. -/
def openBehind (opened : List Char) (rs : List Region) : Option (List Char) := rs.foldlM turn opened

/-- Whether regions turn the brackets that are open into others, with never more than `limit` of
them open on the way. -/
structure Nests (limit : Nat) (opened : List Char) (rs : List Region) (after : List Char) :
    Prop where
  behind : openBehind opened rs = some after
  within : ∀ before, before <+: rs →
    ∃ between, openBehind opened before = some between ∧ between.length ≤ limit

section Nests

variable {limit : Nat} {opened between after outer : List Char} {r : Region} {rs ss : List Region}

theorem openBehind_cons (h : turn opened r = some between) (rs : List Region) :
    openBehind opened (r :: rs) = openBehind between rs := by
  unfold openBehind
  rw [List.foldlM_cons, h]
  rfl

theorem Nests.nil (h : opened.length ≤ limit) : Nests limit opened [] opened where
  behind := rfl
  within := by
    intro before hbefore
    obtain rfl := List.prefix_nil.1 hbefore
    exact ⟨opened, rfl, h⟩

theorem Nests.cons (hr : turn opened r = some between) (h : opened.length ≤ limit)
    (hrs : Nests limit between rs after) : Nests limit opened (r :: rs) after where
  behind := (openBehind_cons hr rs).trans hrs.behind
  within := by
    intro before hbefore
    cases before with
    | nil => exact ⟨opened, rfl, h⟩
    | cons s before =>
      obtain ⟨rfl, htail⟩ := List.cons_prefix_cons.1 hbefore
      rw [openBehind_cons hr]
      exact hrs.within before htail

theorem Nests.length_le (h : Nests limit opened rs after) : opened.length ≤ limit := by
  obtain ⟨between, hbetween, hle⟩ := h.within [] List.nil_prefix
  obtain rfl := Option.some.inj hbetween
  exact hle

theorem Nests.append (hrs : Nests limit opened rs between) (hss : Nests limit between ss after) :
    Nests limit opened (rs ++ ss) after := by
  induction rs generalizing opened with
  | nil =>
    obtain rfl := Option.some.inj hrs.behind
    exact hss
  | cons r rs ih =>
    obtain ⟨next, hnext, -⟩ := hrs.within [r] (List.prefix_append [r] rs)
    have hr : turn opened r = some next := by
      cases hturn : turn opened r with
      | none => simp [openBehind, hturn] at hnext
      | some other => simpa [openBehind, hturn] using hnext
    refine Nests.cons hr hrs.length_le (ih ⟨(openBehind_cons hr rs).symm.trans hrs.behind, ?_⟩)
    intro before hbefore
    rw [← openBehind_cons hr]
    exact hrs.within (r :: before) (List.cons_prefix_cons.2 ⟨rfl, hbefore⟩)

/-! ## Brackets around -/

theorem turnAt_append {c : Char} (h : turnAt c opened = some between) :
    turnAt c (opened ++ outer) = some (between ++ outer) := by
  unfold turnAt at h ⊢
  split
  · rename_i hopening
    rw [if_pos hopening] at h
    rw [← Option.some.inj h]
    rfl
  · rename_i hopening
    rw [if_neg hopening] at h
    split
    · rename_i hclosing
      rw [if_pos hclosing] at h
      cases opened with
      | nil => cases h
      | cons b inner =>
        dsimp only [List.cons_append] at h ⊢
        split at h
        · rename_i hfits
          rw [if_pos hfits, ← Option.some.inj h]
        · cases h
    · rename_i hclosing
      rw [if_neg hclosing] at h
      rw [← Option.some.inj h]

/-- What a region opens or closes does not depend on the brackets further out. -/
theorem turn_append (h : turn opened r = some between) :
    turn (opened ++ outer) r = some (between ++ outer) := by
  cases r with
  | code c => exact turnAt_append h
  | unclosed cs => cases h
  | _ =>
    obtain rfl := Option.some.inj h
    rfl

theorem openBehind_append (rs : List Region) : ∀ {opened : List Char},
    openBehind opened rs = some after →
      openBehind (opened ++ outer) rs = some (after ++ outer) := by
  induction rs with
  | nil =>
    intro opened h
    obtain rfl := Option.some.inj h
    rfl
  | cons r rs ih =>
    intro opened h
    cases hr : turn opened r with
    | none => simp [openBehind, hr] at h
    | some between =>
      rw [openBehind_cons hr] at h
      rw [openBehind_cons (turn_append hr)]
      exact ih h

/-- Inside of further brackets, as many more are open. -/
theorem Nests.enclosed (h : Nests limit opened rs after) (outer : List Char) :
    Nests (limit + outer.length) (opened ++ outer) rs (after ++ outer) where
  behind := openBehind_append rs h.behind
  within := by
    intro before hbefore
    obtain ⟨between, hbetween, hle⟩ := h.within before hbefore
    refine ⟨between ++ outer, openBehind_append before hbetween, ?_⟩
    rw [List.length_append]
    exact Nat.add_le_add_right hle _

/-! ## Regions without brackets -/

/-- Whether a region neither opens nor closes a bracket. -/
def Flat (r : Region) : Prop := ∀ opened, turn opened r = some opened

theorem Nests.flat (h : ∀ r ∈ rs, r.Flat) (hopened : opened.length ≤ limit) :
    Nests limit opened rs opened := by
  induction rs with
  | nil => exact .nil hopened
  | cons r rs ih =>
    obtain ⟨hr, hrs⟩ := List.forall_mem_cons.1 h
    exact .cons (hr opened) hopened (ih hrs)

theorem flat_code {c : Char} (hopening : Lexeme.closingOf? c = none)
    (hclosing : isClosing c = false) : (code c).Flat := by
  intro opened
  simp [turn, turnAt, hopening, hclosing]

theorem flat_of_all (cs : List Char)
    (h : cs.all (fun c => (Lexeme.closingOf? c).isNone && !isClosing c) = true) :
    ∀ r ∈ cs.map code, r.Flat := by
  intro r hr
  obtain ⟨c, hc, rfl⟩ := List.mem_map.1 hr
  have hflat := List.all_eq_true.1 h c hc
  rw [Bool.and_eq_true, Option.isNone_iff_eq_none, Bool.not_eq_true'] at hflat
  exact flat_code hflat.1 hflat.2

/-- A character of an identifier is no bracket. -/
theorem flat_of_continuesIdentifier {c : Char} (h : continuesIdentifier c = true) :
    (code c).Flat := by
  have hne : ∀ d, continuesIdentifier d = false → c ≠ d := fun d => ne_of_continuesIdentifier h
  have hround := hne '(' (by decide)
  have hsquare := hne '[' (by decide)
  have hcurly := hne '\x7b' (by decide)
  apply flat_code
  · unfold Lexeme.closingOf?
    split <;> first | rfl | contradiction
  · simp [isClosing, hne ')' (by decide), hne ']' (by decide), hne '\x7d' (by decide)]

theorem flat_of_isIdentifier {word : String} (h : isIdentifier word = true) :
    ∀ r ∈ word.toList.map code, r.Flat := by
  intro r hr
  obtain ⟨c, hc, rfl⟩ := List.mem_map.1 hr
  exact flat_of_continuesIdentifier (continuesIdentifier_of_mem h hc)

end Nests

end Region

/-! ## Tokens -/

namespace Token

/-- Whether tokens lead from `n` open brackets to `m`, with never more than `limit` open. -/
def Climbs (limit : Nat) : Nat → List Token → Nat → Prop
  | n, [], m => n = m ∧ n ≤ limit
  | n, .openParen :: tokens, m => Climbs limit (n + 1) tokens m
  | 0, .closeParen :: _, _ => False
  | n + 1, .closeParen :: tokens, m => n + 1 ≤ limit ∧ Climbs limit n tokens m
  | n, _ :: tokens, m => Climbs limit n tokens m

variable {limit n m k : Nat} {tokens more : List Token}

theorem Climbs.le (h : Climbs limit n tokens m) : n ≤ limit := by
  fun_induction Climbs limit n tokens m with
  | case1 => exact h.2
  | case2 n tokens m ih => exact Nat.le_of_succ_le (ih h)
  | case3 => exact h.elim
  | case4 n tokens m ih => exact h.1
  | case5 n token tokens m _ _ _ ih => exact ih h

theorem Climbs.append (h : Climbs limit n tokens m) (hmore : Climbs limit m more k) :
    Climbs limit n (tokens ++ more) k := by
  induction tokens generalizing n with
  | nil =>
    obtain ⟨rfl, -⟩ := h
    exact hmore
  | cons token tokens ih =>
    cases token with
    | closeParen =>
      cases n with
      | zero => exact h.elim
      | succ n => exact ⟨h.1, ih h.2⟩
    | _ => exact ih h

theorem Apart.of_append (h : Apart (tokens ++ more)) : Apart tokens := by
  induction tokens with
  | nil => trivial
  | cons token tokens ih =>
    cases token with
    | word w =>
      refine ⟨h.1, ?_, ih h.2.2⟩
      cases tokens with
      | nil => rfl
      | cons next tokens => cases next <;> exact h.2.1
    | _ => exact ih h

/-- The text of tokens nests as the tokens climb: all their brackets are round. -/
theorem Climbs.nests (h : Climbs limit n tokens m) (hapart : Apart tokens) :
    Region.Nests limit (List.replicate n '(') (tokens.flatMap regions)
      (List.replicate m '(') := by
  induction tokens generalizing n with
  | nil =>
    obtain ⟨rfl, hle⟩ := h
    exact .nil (by simpa using hle)
  | cons token tokens ih =>
    have hle : (List.replicate n '(').length ≤ limit := by simpa using h.le
    rw [List.flatMap_cons]
    cases token with
    | openParen => exact .cons rfl hle (ih h hapart.tail)
    | closeParen =>
      cases n with
      | zero => exact h.elim
      | succ n => exact .cons rfl hle (ih h.2 hapart.tail)
    | literal content => exact .cons rfl hle (ih h hapart.tail)
    | word w =>
      exact (Region.Nests.flat (Region.flat_of_isIdentifier hapart.1) hle).append (ih h hapart.tail)
    | _ => exact .cons rfl hle (ih h hapart.tail)

end Token

/-! ## Expressions -/

namespace Expr

open Token

mutual

/-- How many brackets an expression has open at most. -/
def height : Expr → Nat
  | literal _ => 0
  | name _ => 0
  | tuple items => heightOfAll items + 1
  | member target _ => target.height
  | call target arguments => max target.height (heightOfAll arguments + 1)
  | function _ body => body.height
  | negation operand => operand.height
  | plus left right => max left.height right.height

def heightOfAll : List Expr → Nat
  | [] => 0
  | e :: es => max e.height (heightOfAll es)

end

variable {limit n : Nat}

theorem climbs_functionOpen (parameter? : Option String) (h : n ≤ limit) :
    Climbs limit n (Generate.functionOpen parameter?) n := by
  cases parameter? <;> exact ⟨rfl, h⟩

mutual

-- An expression closes the brackets that it opens, so that it ends where it started.
theorem climbs_written : ∀ (e : Expr) {n : Nat}, n + e.height ≤ limit → Climbs limit n e.written n
  | literal _, _, h => ⟨rfl, h⟩
  | name _, _, h => ⟨rfl, h⟩
  | tuple items, n, h => by
    have hitems := climbs_writtenItems items (n := n + 1) (by rw [height] at h; omega)
    have hclose : Climbs limit (n + 1) [.closeParen] n :=
      ⟨hitems.le, rfl, Nat.le_of_succ_le hitems.le⟩
    exact hitems.append hclose
  | member target w, n, h => by
    have htarget := climbs_written target h
    have hmember : Climbs limit n [.dot, .word w] n := ⟨rfl, htarget.le⟩
    exact htarget.append hmember
  | call target arguments, n, h => by
    rw [height] at h
    have htarget := climbs_written target (n := n) (by omega)
    have harguments := climbs_writtenArguments arguments (n := n + 1) (by omega)
    have hclose : Climbs limit (n + 1) [.closeParen] n := ⟨harguments.le, rfl, htarget.le⟩
    have hcall : Climbs limit n (.openParen :: (writtenArguments arguments ++ [.closeParen])) n :=
      harguments.append hclose
    exact htarget.append hcall
  | function parameter? body, n, h => by
    have hbody := climbs_written body h
    exact (climbs_functionOpen parameter? hbody.le).append hbody
  | negation operand, n, h => climbs_written operand h
  | plus left right, n, h => by
    rw [height] at h
    have hleft := climbs_written left (n := n) (by omega)
    have hright := climbs_written right (n := n) (by omega)
    have hsum : Climbs limit n (.space :: .plus :: .space :: right.written) n := hright
    exact hleft.append hsum

theorem climbs_writtenItems : ∀ (es : List Expr) {n : Nat}, n + heightOfAll es ≤ limit →
    Climbs limit n (writtenItems es) n
  | [], _, h => ⟨rfl, h⟩
  | e :: es, n, h => by
    rw [heightOfAll] at h
    have he := climbs_written e (n := n) (by omega)
    have hes := climbs_writtenItems es (n := n) (by omega)
    have hseparator : Climbs limit n Generate.separator n := ⟨rfl, he.le⟩
    exact (he.append hseparator).append hes

theorem climbs_writtenArguments : ∀ (es : List Expr) {n : Nat}, n + heightOfAll es ≤ limit →
    Climbs limit n (writtenArguments es) n
  | [], _, h => ⟨rfl, h⟩
  | e :: es, n, h => by
    rw [heightOfAll] at h
    have he := climbs_written e (n := n) (by omega)
    have hes := climbs_writtenFurther es (n := n) (by omega)
    exact he.append hes

theorem climbs_writtenFurther : ∀ (es : List Expr) {n : Nat}, n + heightOfAll es ≤ limit →
    Climbs limit n (writtenFurther es) n
  | [], _, h => ⟨rfl, h⟩
  | e :: es, n, h => by
    rw [heightOfAll] at h
    have he := climbs_written e (n := n) (by omega)
    have hes := climbs_writtenFurther es (n := n) (by omega)
    have hseparator : Climbs limit n Generate.separator n := ⟨rfl, he.le⟩
    exact (hseparator.append he).append hes

end

end Expr
end HtmlTemplate
