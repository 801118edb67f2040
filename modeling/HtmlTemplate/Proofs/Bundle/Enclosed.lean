import HtmlTemplate.Proofs.Bundle.Building
import HtmlTemplate.Proofs.Bundle.Description
import HtmlTemplate.Proofs.Bundle.Tokens

/-!
# Enclosed — names of folders and files in the text of a module

The name of a file stands in the description of its function, which is one block whatever the name
is (`TemplateFunction.Clean.cutsInto_text`).  The path of the folder stands in the first comment, which
holds it exactly if it has no line break (`Bundle.all_text_iff`); what follows its first line break
is read as lines of the module are (`Bundle.all_text_of_break`).
-/

namespace HtmlTemplate

open Text Region

/-! ## Functions -/

/-- The tokens of a fold that succeeds stay apart when they are written. -/
theorem Generate.tokens_fold {name : String} {ps : List Part} {h : Generator}
    (hn : Expr.Usable name) (hy : Generate.Yields (fold ps) ⟨name, .empty, #[], none⟩ () h) :
    Token.Apart h.output.toList ∧ Token.Spaced h.output.toList := by
  obtain ⟨t, -, hsound, houtput⟩ := output_fold hy
  obtain ⟨hwritable, -⟩ := Expr.readAs_joined
    (readAsAll_code hn t hsound [] fun b hb => by cases hb)
  have hapart := Expr.apart_written _ [] hwritable trivial rfl
  have hspaced := Expr.spaced_written (Expr.joined (t.code name [])) [] .nil rfl
  rw [List.append_nil] at hapart hspaced
  rw [houtput]
  exact ⟨hapart, hspaced⟩

/-- The text of an expression is that of tokens which stay apart. -/
theorem Compiled.exists_tokens {name : String} {ps : List Part} {c : Compiled}
    (h : Compiled.ofParts name ps = .ok c) :
    ∃ tokens, c.expression.toList = tokens.flatMap Token.chars ∧ Token.Apart tokens ∧
      Token.Spaced tokens := by
  obtain ⟨hn, -, k, hfold, htext, -⟩ := ofParts_ok h
  have hy : Generate.Yields (Generate.fold ps) ⟨name, .empty, #[], none⟩ () k := hfold
  refine ⟨k.output.toList, ?_, Generate.tokens_fold (Generator.checkContextName_ok hn).1 hy⟩
  obtain ⟨l, -, -, rfl⟩ := hy.of_fold
  rw [← Except.ok.inj htext, Token.textOf, String.toList_ofList]

namespace TemplateFunction

variable (f : TemplateFunction)

/-- The text of a function up to its description. -/
def signature : String :=
  "\n\ndef " ++ f.name ++ "(" ++ f.compiled.contextName ++
    (if f.compiled.anyRequired then "" else "=None") ++ "):\n    "

/-- The description with its quotes, as it is read. -/
def block : List Char :=
  unifyLineEnds (tripleQuote ++ (description f.file f.compiled).toList ++ tripleQuote)

/-- The text of a function behind its description. -/
def answer : String := "\n    return unsafe(" ++ f.compiled.expression ++ ")\n"

/-- What a function's text is cut into: its description is one block, and its expression is cut as
it is by itself. -/
def regions : List Region :=
  f.signature.toList.map .code ++ .block f.block ::
    ("\n    return unsafe(".toList.map .code ++ all f.compiled.expression.toList ++
      ")\n".toList.map .code)

/-- A function whose names are identifiers, whose expression is one of tokens, and whose context has
the text of a shape. -/
structure Clean : Prop where
  name : ∀ c ∈ f.name.toList, isWordChar c = true
  contextName : isIdentifier f.compiled.contextName = true
  expression : ∃ tokens, f.compiled.expression.toList = tokens.flatMap Token.chars ∧
    Token.Apart tokens ∧ Token.Spaced tokens
  shape : ∃ s : Shape, f.compiled.typeText = s.text

variable {f}

theorem clean_of_parts {contextName : String} {ps : List Part}
    (hname : ∀ c ∈ f.name.toList, isWordChar c = true)
    (h : Compiled.ofParts contextName ps = .ok f.compiled) : f.Clean := by
  obtain ⟨hn, hcontext, k, -, -, htype, -⟩ := Compiled.ofParts_ok h
  refine ⟨hname, ?_, Compiled.exists_tokens h, _, htype⟩
  rw [hcontext]
  exact (Generator.checkContextName_ok hn).1.1

theorem clean_of_makes {contextName : String} {file : String × List UInt8}
    (h : Bundle.Makes contextName file f) : f.Clean := by
  obtain ⟨ps, hparts⟩ := h.exists_parts
  exact clean_of_parts (FunctionName.isWordChar_of_ofStem h.name) hparts

section Clean

variable (h : f.Clean)

include h

theorem Clean.isCode_signature : f.signature.toList.all isCode = true := by
  have hname : f.name.toList.all isCode = true := List.all_eq_true.2 fun c hc =>
    isCode_of_continuesIdentifier (continuesIdentifier_of_isWordChar (h.name c hc))
  have hcontext := isCode_of_isIdentifier h.contextName
  have hdefault :
      (if f.compiled.anyRequired then "" else "=None" : String).toList.all isCode = true := by
    split <;> decide
  have hdef : "\n\ndef ".toList.all isCode = true := by decide
  have hopen : "(".toList.all isCode = true := by decide
  have hclose : "):\n    ".toList.all isCode = true := by decide
  simp only [signature, String.toList_append, List.all_append, Bool.and_eq_true]
  exact ⟨⟨⟨⟨⟨hdef, hname⟩, hopen⟩, hcontext⟩, hdefault⟩, hclose⟩

theorem Clean.not_mem_answer : '\r' ∉ f.answer.toList := by
  obtain ⟨tokens, htokens, hapart, -⟩ := h.expression
  have hexpression : '\r' ∉ f.compiled.expression.toList := htokens ▸ Token.not_mem_chars hapart
  unfold answer
  rw [String.toList_append, String.toList_append]
  apply List.not_mem_append
  · exact List.not_mem_append (not_mem_of_isCode (by decide)) hexpression
  · exact not_mem_of_isCode (by decide)

end Clean

/-- What the description holds behind the name of the file. -/
def details (f : TemplateFunction) : List Char :=
  ".\n\n    Context:\n".toList ++ (indent margin f.compiled.typeText).toList ++ "\n    ".toList

theorem toList_description : (description f.file f.compiled).toList =
    "Render ".toList ++ (f.file.toList.flatMap encodeDocChar ++ f.details) := by
  unfold description details
  rw [String.toList_append, String.toList_append, String.toList_append, String.toList_append,
    toList_encodeDoc]
  simp only [List.append_assoc]

theorem toList_text : (text f.name f.file f.compiled).toList =
    f.signature.toList ++
      (tripleQuote ++ ((description f.file f.compiled).toList ++
        (tripleQuote ++ f.answer.toList))) := by
  have hopening : "):\n".toList ++ "    \"\"\"".toList = "):\n    ".toList ++ tripleQuote := by
    decide
  have hclosing : "\"\"\"\n".toList ++ "    return unsafe(".toList =
      tripleQuote ++ "\n    return unsafe(".toList := by decide
  unfold text signature answer
  simp only [String.toList_append, List.append_assoc]
  rw [← List.append_assoc "):\n".toList, hopening, ← List.append_assoc "\"\"\"\n".toList, hclosing]
  simp only [List.append_assoc]

theorem Clean.inside_details (h : f.Clean) : Inside f.details := by
  obtain ⟨s, hs⟩ := h.shape
  have hshape : Lined Inside f.compiled.typeText.toList := by
    rw [hs]
    exact Shape.lined_describe s fun _ hc => absurd hc List.not_mem_nil
  have hindented : Inside (indent margin f.compiled.typeText).toList :=
    indent_lined Inside.append (inside_of_inert (by decide)) (inside_of_inert (by decide)) hshape
  exact ((inside_of_inert (by decide)).append hindented).append (inside_of_inert (by decide))

/-- The name of a file as it stands in a description. -/
def shownFile (f : TemplateFunction) : List Char :=
  unifyLineEnds (f.file.toList.flatMap encodeDocChar)

theorem not_mem_start : '\r' ∉ tripleQuote ++ "Render ".toList :=
  List.not_mem_append (by decide) (not_mem_of_isCode (by decide))

/-- Line breaks that become line feeds are only those of the file's name. -/
theorem unifyLineEnds_around {before after : List Char} (hbefore : '\r' ∉ before)
    (hafter : '\r' ∉ after) (hdot : after.head? = some '.') (rest : List Char) :
    unifyLineEnds (before ++ (f.file.toList.flatMap encodeDocChar ++ (after ++ rest))) =
      before ++ (f.shownFile ++ (after ++ unifyLineEnds rest)) := by
  have hcut : (after ++ rest).head? ≠ some '\n' := by
    cases after with
    | nil => cases hdot
    | cons c after =>
      cases hdot
      exact fun h => absurd (Option.some.inj h) (by decide)
  rw [unifyLineEnds_append_of_not_mem hbefore, unifyLineEnds_append _ hcut,
    unifyLineEnds_append_of_not_mem hafter]
  rfl

section Clean

variable (h : f.Clean)

include h

theorem Clean.block_eq :
    f.block = tripleQuote ++ ("Render ".toList ++ f.shownFile ++ f.details) ++ tripleQuote := by
  have hshape : tripleQuote ++ (description f.file f.compiled).toList ++ tripleQuote =
      tripleQuote ++ "Render ".toList ++
        (f.file.toList.flatMap encodeDocChar ++ (f.details ++ tripleQuote)) := by
    rw [toList_description]
    simp only [List.append_assoc]
  have hafter : '\r' ∉ f.details ++ tripleQuote :=
    List.not_mem_append h.inside_details.unified (by decide)
  have haround := unifyLineEnds_around (f := f) not_mem_start hafter rfl []
  rw [List.append_nil, ← hshape, unifyLineEnds, List.append_nil] at haround
  unfold block
  rw [haround]
  simp only [List.append_assoc]

/-- A function's text with line feeds, whatever follows it. -/
theorem Clean.unifyLineEnds_text (rest : List Char) :
    unifyLineEnds ((text f.name f.file f.compiled).toList ++ rest) =
      f.signature.toList ++ (f.block ++ (f.answer.toList ++ unifyLineEnds rest)) := by
  have hshape : (text f.name f.file f.compiled).toList ++ rest =
      f.signature.toList ++ (tripleQuote ++ "Render ".toList) ++
        (f.file.toList.flatMap encodeDocChar ++
          (f.details ++ tripleQuote ++ f.answer.toList ++ rest)) := by
    rw [toList_text, toList_description]
    simp only [List.append_assoc]
  have hbefore : '\r' ∉ f.signature.toList ++ (tripleQuote ++ "Render ".toList) :=
    List.not_mem_append (not_mem_of_isCode h.isCode_signature) not_mem_start
  have hafter : '\r' ∉ f.details ++ tripleQuote ++ f.answer.toList := by
    apply List.not_mem_append
    · exact List.not_mem_append h.inside_details.unified (by decide)
    · exact h.not_mem_answer
  rw [hshape, unifyLineEnds_around hbefore hafter rfl, h.block_eq]
  simp only [List.append_assoc]

/-- An expression is cut alone as it is cut in front of anything but a quote, and is all code. -/
theorem Clean.all_expression :
    (∀ rest, (∀ c ∈ rest.head?, ¬ IsQuote c) →
      all (f.compiled.expression.toList ++ rest) =
        all f.compiled.expression.toList ++ all rest) ∧
    codeOf (all f.compiled.expression.toList) = f.compiled.expression.toList := by
  obtain ⟨tokens, htokens, hapart, hspaced⟩ := h.expression
  have halone : all f.compiled.expression.toList = tokens.flatMap Token.regions := by
    have hall := Token.all_textOf hapart hspaced
    rwa [Token.textOf, String.toList_ofList, ← htokens] at hall
  rw [halone]
  refine ⟨fun rest hrest => ?_, (Token.codeOf_regions tokens).trans htokens.symm⟩
  rw [htokens]
  exact Token.all_chars hapart hspaced hrest

theorem Clean.cutsInto_answer : CutsInto f.answer.toList
    ("\n    return unsafe(".toList.map .code ++ all f.compiled.expression.toList ++
      ")\n".toList.map .code) := by
  have hstart : CutsInto "\n    return unsafe(".toList _ := cutsInto_code (by decide)
  have hend : CutsInto ")\n".toList _ := cutsInto_code (by decide)
  intro rest
  have hbracket : ∀ c ∈ (")\n".toList ++ rest).head?, ¬ IsQuote c := by
    intro c hc
    obtain rfl : ')' = c := Option.some.inj hc
    unfold IsQuote
    decide
  unfold answer
  rw [String.toList_append, String.toList_append, List.append_assoc, List.append_assoc, hstart,
    h.all_expression.1 _ hbracket, hend]
  simp only [List.append_assoc]

theorem Clean.unifyLineEnds_alone : unifyLineEnds (text f.name f.file f.compiled).toList =
    f.signature.toList ++ (f.block ++ f.answer.toList) := by
  have htext := h.unifyLineEnds_text []
  rwa [List.append_nil, unifyLineEnds, List.append_nil] at htext

theorem Clean.unifyLineEnds_append (rest : List Char) :
    unifyLineEnds ((text f.name f.file f.compiled).toList ++ rest) =
      unifyLineEnds (text f.name f.file f.compiled).toList ++ unifyLineEnds rest := by
  rw [h.unifyLineEnds_text, h.unifyLineEnds_alone]
  simp only [List.append_assoc]

/-- Whatever the name of its file is, a function's text is cut into its regions. -/
theorem Clean.cutsInto_text :
    CutsInto (unifyLineEnds (text f.name f.file f.compiled).toList) f.regions := by
  have hbody : Inside ("Render ".toList ++ f.shownFile ++ f.details) :=
    ((inside_of_inert (by decide)).append (inside_encodeDoc _)).append h.inside_details
  have hblock : CutsInto f.block [.block f.block] := h.block_eq ▸ cutsInto_block hbody.passed
  rw [h.unifyLineEnds_alone]
  exact (cutsInto_code h.isCode_signature).append (hblock.append h.cutsInto_answer)

/-- The code of a function is its text without the description. -/
theorem Clean.codeOf_regions : codeOf f.regions = f.signature.toList ++ f.answer.toList := by
  have hblock : ∀ regions, codeOf (.block f.block :: regions) = codeOf regions := fun _ => rfl
  unfold regions answer
  rw [codeOf_append, codeOf_code, hblock, codeOf_append, codeOf_append, codeOf_code,
    h.all_expression.2, codeOf_code, String.toList_append, String.toList_append]

end Clean

end TemplateFunction

/-! ## Modules -/

namespace Bundle

open FunctionName

/-- The start of the first comment, which the path of the folder follows. -/
def origin : String := "# Generated by hcompile from "

/-- The end of the first comment. -/
def warning : String := ". Do not edit."

/-- The code before the functions. -/
def imports : String :=
  "\n\n" ++ "from hcompile.runtime import (\n    if_check,\n    if_defined,\n    is_nonempty,\n" ++
    "    lookup,\n    loop,\n    render_body,\n    unsafe,\n)\n"

/-- What a module's text is cut into: the first comment, the import and the functions. -/
def regions (b : Bundle) : List Region :=
  .comment (origin ++ b.folder ++ warning).toList ::
    (imports.toList.map .code ++ b.functions.flatMap (·.regions))

/-- The texts of functions, one after another. -/
def functionTexts (functions : List TemplateFunction) : List Char :=
  functions.flatMap fun f => (TemplateFunction.text f.name f.file f.compiled).toList

theorem imports_eq : ∃ code, imports.toList = '\n' :: code := by
  unfold imports
  rw [String.toList_append, String.toList_append]
  exact ⟨_, rfl⟩

theorem isCode_imports : imports.toList.all isCode = true := by decide +kernel

theorem isCode_warning : warning.toList.all isCode = true := by decide

theorem toList_text (b : Bundle) : b.text.toList =
    origin.toList ++ (b.folder.toList ++ (warning.toList ++ (imports.toList ++
      functionTexts b.functions))) := by
  have hsplit : ". Do not edit.\n\n" = warning ++ "\n\n" := by decide
  have hheader : header b.folder = origin ++ b.folder ++ warning ++ imports := by
    unfold header imports
    rw [hsplit]
    simp only [String.append_assoc]
    rfl
  rw [text_eq, hheader]
  simp only [String.toList_append, String.toList_join, List.flatMap_map, List.append_assoc]
  rfl

section Clean

variable {b : Bundle} (hclean : ∀ f ∈ b.functions, f.Clean)

include hclean

theorem cutsInto_functions :
    CutsInto (unifyLineEnds (functionTexts b.functions)) (b.functions.flatMap (·.regions)) := by
  unfold functionTexts
  generalize b.functions = functions at hclean
  induction functions with
  | nil => exact .nil
  | cons f functions ih =>
    have hf : f.Clean := hclean f List.mem_cons_self
    rw [List.flatMap_cons, List.flatMap_cons, hf.unifyLineEnds_append]
    exact hf.cutsInto_text.append (ih fun g hg => hclean g (List.mem_cons_of_mem f hg))

omit hclean in
/-- The text of a module with line feeds. -/
theorem unifyLineEnds_text (b : Bundle) : unifyLineEnds b.text.toList =
    origin.toList ++ (unifyLineEnds b.folder.toList ++ (warning.toList ++ (imports.toList ++
      unifyLineEnds (functionTexts b.functions)))) := by
  have horigin : '\r' ∉ origin.toList := by decide
  have hfolder : (warning.toList ++ (imports.toList ++ functionTexts b.functions)).head? ≠
      some '\n' := fun h => absurd (Option.some.inj h) (by decide)
  rw [toList_text, unifyLineEnds_append_of_not_mem horigin, unifyLineEnds_append _ hfolder,
    unifyLineEnds_append_of_not_mem (not_mem_of_isCode isCode_warning),
    unifyLineEnds_append_of_not_mem (not_mem_of_isCode isCode_imports)]

end Clean

/-- What follows the first line break of the folder's path is cut as the module's lines are. -/
theorem all_text_of_break {b : Bundle} {line rest : List Char}
    (hbreak : unifyLineEnds b.folder.toList = line ++ '\n' :: rest) (hline : '\n' ∉ line) :
    all (unifyLineEnds b.text.toList) =
      .comment (origin.toList ++ line) :: all ('\n' :: (rest ++ (warning.toList ++
        (imports.toList ++ unifyLineEnds (functionTexts b.functions))))) := by
  have horigin : origin.toList = '#' :: origin.toList.tail := rfl
  have hcomment : '\n' ∉ origin.toList.tail ++ line := List.not_mem_append (by decide) hline
  rw [unifyLineEnds_text, hbreak, horigin]
  simpa only [List.append_assoc, List.cons_append] using all_comment hcomment _

/-- A path without line breaks stays in the first comment. -/
theorem all_text {b : Bundle} (hclean : ∀ f ∈ b.functions, f.Clean)
    (hline : '\n' ∉ b.folder.toList) (hreturn : '\r' ∉ b.folder.toList) :
    all (unifyLineEnds b.text.toList) = b.regions := by
  have horigin : origin.toList = '#' :: origin.toList.tail := rfl
  obtain ⟨code, himports⟩ := imports_eq
  have hcomment : '\n' ∉ origin.toList.tail ++ (b.folder.toList ++ warning.toList) := by
    apply List.not_mem_append
    · decide
    · exact List.not_mem_append hline (by decide)
  have hcode : all (imports.toList ++ unifyLineEnds (functionTexts b.functions)) =
      imports.toList.map .code ++ b.functions.flatMap (·.regions) := by
    rw [cutsInto_code isCode_imports, (cutsInto_functions hclean).all_eq]
  have hlines : '\n' :: (code ++ unifyLineEnds (functionTexts b.functions)) =
      imports.toList ++ unifyLineEnds (functionTexts b.functions) := by
    rw [himports]
    rfl
  have hall := all_comment hcomment (code ++ unifyLineEnds (functionTexts b.functions))
  rw [hlines, hcode] at hall
  unfold regions
  rw [unifyLineEnds_text, unifyLineEnds_of_not_mem hreturn, String.toList_append,
    String.toList_append, horigin]
  simpa only [List.append_assoc, List.cons_append] using hall

/-- The first comment of a module holds the path of its folder exactly if that has no line break. -/
theorem all_text_iff {b : Bundle} (hclean : ∀ f ∈ b.functions, f.Clean) :
    all (unifyLineEnds b.text.toList) = b.regions ↔
      '\n' ∉ b.folder.toList ∧ '\r' ∉ b.folder.toList := by
  constructor
  · intro hall
    rw [← not_or, ← mem_unifyLineEnds_iff]
    intro hbreak
    obtain ⟨line, rest, hfolder, hline⟩ := List.eq_append_cons_of_mem hbreak
    have hreturn : '\r' ∉ line := fun hmem => by
      apply not_mem_unifyLineEnds b.folder.toList
      rw [hfolder]
      exact List.mem_append_left _ hmem
    -- A comment that is read holds no line break, but the whole path does.
    rw [all_text_of_break hfolder hline] at hall
    have hcomment := Region.comment.inj (List.cons.inj hall).1
    rw [String.toList_append, String.toList_append, List.append_assoc] at hcomment
    have hpath := List.append_cancel_left hcomment
    rcases mem_unifyLineEnds_iff.1 hbreak with hmem | hmem
    · exact hline (hpath ▸ List.mem_append_left _ hmem)
    · exact hreturn (hpath ▸ List.mem_append_left _ hmem)
  · rintro ⟨hline, hreturn⟩
    exact all_text hclean hline hreturn

/-- All code of a module is its import and its functions without their descriptions. -/
theorem codeOf_regions {b : Bundle} (hclean : ∀ f ∈ b.functions, f.Clean) :
    codeOf b.regions = imports.toList ++
      b.functions.flatMap fun f => f.signature.toList ++ f.answer.toList := by
  have hfunctions : codeOf (b.functions.flatMap (·.regions)) =
      b.functions.flatMap fun f => f.signature.toList ++ f.answer.toList := by
    generalize b.functions = functions at hclean
    induction functions with
    | nil => rfl
    | cons f functions ih =>
      rw [List.flatMap_cons, List.flatMap_cons, codeOf_append,
        (hclean f List.mem_cons_self).codeOf_regions,
        ih fun g hg => hclean g (List.mem_cons_of_mem f hg)]
  have hcomment : ∀ cs regions, codeOf (.comment cs :: regions) = codeOf regions := fun _ _ => rfl
  unfold regions
  rw [hcomment, codeOf_append, codeOf_code, hfunctions]

/-- Every function of a module that was built comes from a file. -/
theorem makes_of_build {path contextName : String} {found : Except OpenFault Folder} {b : Bundle}
    (h : (build path found contextName).result = .ok b) :
    ∀ f ∈ b.functions, ∃ file, Makes contextName file f := by
  intro f hf
  cases found with
  | error fault => cases h
  | ok folder =>
    obtain ⟨-, hcovers⟩ := (within_build path folder contextName).of_ok h
    obtain ⟨file, -, hmakes⟩ := exists_of_forall₂_right hcovers.made hf
    exact ⟨file, hmakes⟩

/-- Names of folders and files in the text of a module.

The text is cut into one comment with the path of the folder, the import and the functions exactly
if the path has no line break; otherwise the comment ends at the first line break, and the rest of
the path is cut as lines of the module are.  The text of a function is cut into its signature, its
description with the name of the file, and its answer, whatever the name is and whatever follows it.
So the code is the import and the definitions of the functions, in which no names stand but
identifiers. -/
theorem build_enclosed {path contextName : String} {found : Except OpenFault Folder} {b : Bundle}
    (h : (build path found contextName).result = .ok b) :
    (all (unifyLineEnds b.text.toList) = b.regions ↔
      '\n' ∉ path.toList ∧ '\r' ∉ path.toList) ∧
    (∀ line rest, unifyLineEnds path.toList = line ++ '\n' :: rest → '\n' ∉ line →
      all (unifyLineEnds b.text.toList) =
        .comment (origin.toList ++ line) :: all ('\n' :: (rest ++ (warning.toList ++
          (imports.toList ++ unifyLineEnds (functionTexts b.functions)))))) ∧
    (∀ f ∈ b.functions, CutsInto
      (unifyLineEnds (TemplateFunction.text f.name f.file f.compiled).toList) f.regions) ∧
    codeOf b.regions = imports.toList ++
      b.functions.flatMap (fun f => f.signature.toList ++ f.answer.toList) ∧
    ∀ f ∈ b.functions, Expr.Usable f.name ∧ f.compiled.contextName = contextName ∧
      Expr.Usable contextName := by
  have hmakes := makes_of_build h
  cases found with
  | error fault => cases h
  | ok folder =>
    obtain ⟨rfl, -⟩ := (within_build path folder contextName).of_ok h
    have hclean : ∀ f ∈ b.functions, f.Clean := fun f hf => by
      obtain ⟨file, hmakes⟩ := hmakes f hf
      exact TemplateFunction.clean_of_makes hmakes
    refine ⟨all_text_iff hclean, fun line rest => all_text_of_break,
      fun f hf => (hclean f hf).cutsInto_text, codeOf_regions hclean, fun f hf => ?_⟩
    obtain ⟨file, hmakes⟩ := hmakes f hf
    obtain ⟨ps, hparts⟩ := hmakes.exists_parts
    obtain ⟨hn, hname, -⟩ := Compiled.ofParts_ok hparts
    exact ⟨isIdentifier_ofStem hmakes.name, hname, (Generator.checkContextName_ok hn).1⟩

/-- A file whose name has triple quotes, a line break and a comment in it. -/
theorem build_enclosed_quotes :
    ∃ b, (build "t" (.ok ⟨[("a\"\"\"\nraise #.html", [0x41])]⟩) "context").result = .ok b ∧
      all (unifyLineEnds b.text.toList) = b.regions ∧
      b.functions.map (·.signature) = ["\n\ndef template_a_raise(context=None):\n    "] := by
  have htemplate : isTemplate "a\"\"\"\nraise #.html" = true :=
    isTemplate_iff.2 ⟨['a', '"', '"', '"', '\n', 'r', 'a', 'i', 's', 'e', ' ', '#'], rfl⟩
  have hfiles : Folder.templates ⟨[("a\"\"\"\nraise #.html", [0x41])]⟩ =
      [("a\"\"\"\nraise #.html", [0x41])] := by
    simp [Folder.templates, htemplate]
  have hok : (build "t" (.ok ⟨[("a\"\"\"\nraise #.html", [0x41])]⟩) "context").result =
      .ok ⟨"t", [⟨"template_a_raise", "a\"\"\"\nraise #.html",
        ⟨"''.join(('A', ))", "Any", false, "context"⟩⟩]⟩ := by
    rw [result_build, hfiles]
    with_unfolding_all rfl
  exact ⟨_, hok, (build_enclosed hok).1.2 ⟨by decide, by decide⟩, rfl⟩

/-- A line break in the path of the folder ends the first comment, and lets code out. -/
theorem not_enclosed_line_break :
    ∃ b, (build "x\n1/0 #" (.ok ⟨[("a.html", [0x7b, 0x7b, 0x78, 0x7d, 0x7d])]⟩) "context").result =
        .ok b ∧
      ∃ rest, all (unifyLineEnds b.text.toList) =
        .comment "# Generated by hcompile from x".toList ::
          ("\n1/0 ".toList.map .code ++ .comment "#. Do not edit.".toList :: rest) := by
  have htemplate : isTemplate "a.html" = true := isTemplate_iff.2 ⟨['a'], rfl⟩
  have hfiles : Folder.templates ⟨[("a.html", [0x7b, 0x7b, 0x78, 0x7d, 0x7d])]⟩ =
      [("a.html", [0x7b, 0x7b, 0x78, 0x7d, 0x7d])] := by
    simp [Folder.templates, htemplate]
  have hok : ∃ functions, (build "x\n1/0 #"
      (.ok ⟨[("a.html", [0x7b, 0x7b, 0x78, 0x7d, 0x7d])]⟩) "context").result =
      .ok ⟨"x\n1/0 #", functions⟩ := by
    rw [result_build, hfiles]
    exact ⟨_, by with_unfolding_all rfl⟩
  obtain ⟨functions, hok⟩ := hok
  have hfolder : unifyLineEnds "x\n1/0 #".toList = ['x'] ++ '\n' :: "1/0 #".toList := by decide
  have hout : CutsInto "\n1/0 ".toList ("\n1/0 ".toList.map .code) := cutsInto_code (by decide)
  obtain ⟨code, himports⟩ := imports_eq
  refine ⟨_, hok, all ('\n' :: (code ++ unifyLineEnds (functionTexts functions))), ?_⟩
  calc all (unifyLineEnds (Bundle.text ⟨"x\n1/0 #", functions⟩).toList)
      = .comment (origin.toList ++ ['x']) :: all ('\n' :: ("1/0 #".toList ++ (warning.toList ++
          (imports.toList ++ unifyLineEnds (functionTexts functions))))) :=
        all_text_of_break hfolder (by decide)
    _ = .comment (origin.toList ++ ['x']) :: all ("\n1/0 ".toList ++ ('#' :: warning.toList ++
          '\n' :: (code ++ unifyLineEnds (functionTexts functions)))) := by
        rw [himports]
        rfl
    _ = _ := by
        rw [hout, all_comment (by decide)]
        rfl

end Bundle
end HtmlTemplate
