import HtmlTemplate.Proofs.Bundle.Tokens
import HtmlTemplate.Proofs.Template.Compiled

/-!
# Literals — the texts of a template in its code

What a template says itself stands in its code as literals: its texts, what surrounds the values of
attributes, and the segments of its paths (`Template.literalsOfAll_code`).  Each of them is read
back from the text of the code as it was, whatever it holds and whichever characters count as
printable (`Compiled.literals_survive`).
-/

namespace HtmlTemplate

open Text

namespace Expr

/-! ## Literals of an expression -/

mutual

/-- The texts of the literals in an expression, from left to right. -/
def literals : Expr → List String
  | literal text => [text]
  | name _ => []
  | tuple items => literalsOfAll items
  | member target _ => target.literals
  | call target arguments => target.literals ++ literalsOfAll arguments
  | function _ body => body.literals
  | negation operand => operand.literals
  | plus left right => left.literals ++ right.literals

def literalsOfAll : List Expr → List String
  | [] => []
  | e :: es => e.literals ++ literalsOfAll es

end

theorem literalsOfAll_append (es fs : List Expr) :
    literalsOfAll (es ++ fs) = literalsOfAll es ++ literalsOfAll fs := by
  induction es with
  | nil => rfl
  | cons e es ih => rw [List.cons_append, literalsOfAll, literalsOfAll, ih, List.append_assoc]

theorem literalsOfAll_singleton (e : Expr) : literalsOfAll [e] = e.literals := List.append_nil _

theorem literalsOfAll_literals (texts : List String) :
    literalsOfAll (texts.map literal) = texts := by
  induction texts with
  | nil => rfl
  | cons text texts ih => rw [List.map_cons, literalsOfAll, ih, literals, List.singleton_append]

theorem literals_helperCall (h : Helper) (arguments : List Expr) :
    (helperCall h arguments).literals = literalsOfAll arguments := rfl

/-- A body starts with the text between its pieces, which is empty. -/
theorem literals_joined (items : List Expr) :
    (joined items).literals = "" :: literalsOfAll items :=
  congrArg ("" :: ·) (literalsOfAll_singleton (tuple items))

end Expr

/-! ## Texts of a template -/

section Texts

variable (live : List String)

/-- The segments that are looked up for a path: all of them, but for the name of a live binding. -/
def pathTexts (path : String) : List String :=
  match Path.segments path with
  | [] => []
  | head :: rest => if head ∈ live then rest else head :: rest

/-- The texts of a composite value, `literal` telling whether its first segment is text. -/
def compositeTexts : Bool → List String → List String
  | _, [] => []
  | true, text :: rest => (if text.isEmpty then [] else [text]) ++ compositeTexts false rest
  | false, path :: rest => pathTexts live path ++ compositeTexts true rest

def Insertion.texts : Insertion → List String
  | raw text => [text]
  | body path => pathTexts live path
  | comment path => pathTexts live path
  | composite segments => compositeTexts live true (Generate.quoteSegments segments)
  | optional key path => pathTexts live path ++ [" " ++ key ++ "=\"", "\""]
  | flag key path => pathTexts live path ++ [" " ++ key]

def Head.texts : Head → List String
  | conditional path _ _ => pathTexts live path
  | loop path _ => pathTexts live path

end Texts

/-- What a template says itself, in the order in which it is read. -/
def Template.texts : List String → Template → List String
  | _, done => []
  | live, insert insertion rest => insertion.texts live ++ rest.texts live
  | live, block head body rest =>
    head.texts live ++ "" :: body.texts (head.within live) ++ rest.texts live
  | live, choice head body other rest =>
    head.texts live ++ "" :: body.texts (head.within live) ++ "" :: other.texts live ++
      rest.texts live

/-! ## Literals of a template's code -/

section Code

open HtmlTemplate.Expr

variable (contextName : String) (live : List String)

theorem literals_access (root : String) (path : List String) :
    (access root path).literals = path := by
  cases path with
  | nil => rfl
  | cons segment path =>
    calc (access root (segment :: path)).literals
        = literalsOfAll ((segment :: path).map literal) := rfl
      _ = segment :: path := literalsOfAll_literals _

theorem literals_pathCode (path : String) :
    (pathCode contextName live path).literals = pathTexts live path := by
  obtain ⟨head, rest, hsegments⟩ := Path.exists_segments path
  unfold pathCode pathTexts
  simp only [hsegments]
  split <;> exact literals_access _ _

/-- A helper is called with a path first. -/
theorem literals_call (h : Helper) (path : String) (arguments : List Expr) :
    (helperCall h (pathCode contextName live path :: arguments)).literals =
      pathTexts live path ++ literalsOfAll arguments := by
  rw [literals_helperCall, literalsOfAll, literals_pathCode]

theorem literals_call_one (h : Helper) (path : String) :
    (helperCall h [pathCode contextName live path]).literals = pathTexts live path := by
  rw [literals_call, literalsOfAll, List.append_nil]

theorem literals_segmentCode (segments : List String) : ∀ literal : Bool,
    literalsOfAll (segmentCode contextName live literal segments) =
      compositeTexts live literal segments := by
  induction segments with
  | nil =>
    intro literal
    cases literal <;> rfl
  | cons segment rest ih =>
    intro literal
    cases literal with
    | true =>
      rw [segmentCode, compositeTexts, ← ih false]
      split <;> rfl
    | false => rw [segmentCode, compositeTexts, literalsOfAll, literals_call_one, ih]

theorem literals_insertion (insertion : Insertion) :
    literalsOfAll (insertion.code contextName live) = insertion.texts live := by
  cases insertion with
  | raw text => rfl
  | body path => exact (literalsOfAll_singleton _).trans (literals_call_one contextName live _ path)
  | comment path =>
    exact (literalsOfAll_singleton _).trans (literals_call_one contextName live _ path)
  | composite segments => exact literals_segmentCode contextName live _ true
  | optional key path =>
    exact (literalsOfAll_singleton _).trans (literals_call contextName live _ path _)
  | flag key path =>
    exact (literalsOfAll_singleton _).trans (literals_call contextName live _ path _)

/-- What surrounds the test of a conditional adds no literals. -/
theorem literals_testCode (path : String) (inverted emptiness : Bool) :
    (testCode contextName live path inverted emptiness).literals = pathTexts live path := by
  have hpath := literals_pathCode contextName live path
  have hempty := literals_call_one contextName live .isNonempty path
  cases inverted <;> cases emptiness
  · exact hpath
  · exact hempty
  · exact hpath
  · exact hempty

theorem literals_head (head : Head) (body others : List Expr) :
    (head.code contextName live body others).literals =
      head.texts live ++ "" :: literalsOfAll body ++ literalsOfAll others := by
  cases head with
  | conditional path inverted emptiness =>
    rw [Head.code, literals_helperCall, literalsOfAll, literalsOfAll, literals_testCode, literals,
      literals_joined, ← List.append_assoc]
    rfl
  | loop path binding =>
    rw [Head.code, literals_helperCall, literalsOfAll, literalsOfAll, literals_pathCode, literals,
      literals_joined, ← List.append_assoc]
    rfl

/-- The literals in the code of a template are its texts. -/
theorem Template.literalsOfAll_code (t : Template) : ∀ live : List String,
    literalsOfAll (t.code contextName live) = t.texts live := by
  induction t with
  | done => exact fun live => rfl
  | insert insertion rest ih =>
    intro live
    rw [code, texts, literalsOfAll_append, literals_insertion, ih]
  | block head body rest ihbody ihrest =>
    intro live
    rw [code, texts, literalsOfAll, literals_head, ihbody, ihrest, literalsOfAll, List.append_nil]
  | choice head body other rest ihbody ihother ihrest =>
    intro live
    rw [code, texts, literalsOfAll, literals_head, ihbody, ihrest, literalsOfAll_singleton,
      literals, literals_joined, ihother]

end Code

/-! ## What is compiled -/

namespace Compiled

/-- Texts survive being written into code and read from it.

The literal of a text lies on one line, whatever the text is and whichever characters are taken to
be printable.  It ends at the first quote of its own kind that is not escaped, whatever follows, and
stands for the text.  The code of a template holds its texts in such literals, so that what is read
from the code has exactly these texts, in their order. -/
theorem literals_survive (printable : Char → Bool) :
    encodeLiteralBy isPrintable = encodeLiteral ∧
    (∀ text : List Char, '\n' ∉ encodeLiteralBy printable text ∧
      '\r' ∉ encodeLiteralBy printable text ∧
      ∃ quote body, IsQuote quote ∧ encodeLiteralBy printable text = quote :: (body ++ [quote]) ∧
        ∀ rest, Lexeme.closeText quote 0 (body ++ quote :: rest) = .ok (0, rest) ∧
          readLiteral (encodeLiteralBy printable text ++ rest) = some (text, rest) ∧
          ((∀ c ∈ rest.head?, ¬ IsQuote c) →
            Region.all (encodeLiteralBy printable text ++ rest) =
              .text (encodeLiteralBy printable text) :: Region.all rest)) ∧
    ∀ name ps c, ofParts name ps = .ok c → ∃ t tokens e, Template.ofParts? ps = some t ∧
      c.expression = Token.textBy isPrintable tokens ∧
      Expr.ofText (Token.textBy printable tokens) = .ok e ∧ Expr.ofText c.expression = .ok e ∧
      e.literals = "" :: t.texts [] := by
  refine ⟨encodeLiteralBy_isPrintable, fun text => ?_, fun name ps c h => ?_⟩
  · obtain ⟨hline, hreturn⟩ := not_mem_encodeLiteralBy printable text
    refine ⟨hline, hreturn, chooseQuote text,
      text.flatMap (encodeCharBy printable (chooseQuote text)), isQuote_chooseQuote text, rfl, ?_⟩
    intro rest
    exact ⟨closeText_flatMap printable (isQuote_chooseQuote text) text rest,
      readLiteral_encodeLiteralBy printable text rest, all_encodeLiteralBy printable text⟩
  · obtain ⟨hn, -, k, hfold, htext, -⟩ := ofParts_ok h
    obtain ⟨t, ht, hsound, hcode⟩ := Generate.fold_ok hfold
    have husable := (Generator.checkContextName_ok hn).1
    have hexpression : c.expression =
        Token.textBy isPrintable (Expr.joined (t.code name [])).written := by
      rw [Token.textBy_isPrintable]
      exact Except.ok.inj (htext.symm.trans hcode)
    refine ⟨t, _, _, ht, hexpression, Template.ofText_codeBy husable printable hsound, ?_, ?_⟩
    · rw [hexpression]
      exact Template.ofText_codeBy husable isPrintable hsound
    · rw [Expr.literals_joined, t.literalsOfAll_code]

/-- An attribute whose name has both quotes, a backslash and a line break in it, with nothing taken
to be printable. -/
theorem literals_survive_attribute :
    ∃ c tokens e, ofParts "context" [.optional "a'\"\\\n" "x.y"] = .ok c ∧
      c.expression = Token.textBy isPrintable tokens ∧
      Expr.ofText (Token.textBy (fun _ => false) tokens) = .ok e ∧
      e.literals = ["", "x", "y", " a'\"\\\n=\"", "\""] := by
  have hok : ∃ c, ofParts "context" [.optional "a'\"\\\n" "x.y"] = .ok c :=
    ⟨_, by with_unfolding_all rfl⟩
  obtain ⟨c, hc⟩ := hok
  obtain ⟨t, tokens, e, ht, htokens, hread, -, htexts⟩ :=
    (literals_survive fun _ => false).2.2 _ _ c hc
  obtain rfl : Template.insert (.optional "a'\"\\\n" "x.y") .done = t := Template.eq_of_ofParts? ht
  exact ⟨c, tokens, e, hc, htokens, hread, htexts.trans (by decide)⟩

end Compiled
end HtmlTemplate
