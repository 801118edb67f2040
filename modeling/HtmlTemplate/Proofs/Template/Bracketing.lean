import HtmlTemplate.Proofs.Bundle.Enclosed
import HtmlTemplate.Proofs.Code.Brackets
import HtmlTemplate.Proofs.Template.Admission

/-!
# Bracketing — how deep the brackets of a template's code nest

A body opens two brackets, and a block one more for the call of its helper.  So at a place among
parts `2 + 3 * depth` brackets are open, `depth` being the number of open blocks, and a part that is
accepted climbs two or three brackets above that at most (`Generator.Bracketed.part`).  As blocks
nest only so deep, the brackets of an expression stay below the depth that a reader of the code
can manage (`Generator.brackets_nest`).
-/

namespace HtmlTemplate

open Text

/-! ## The height of code -/

section Height

open HtmlTemplate.Expr

variable (contextName : String) (live : List String)

theorem heightOfAll_literals (path : List String) : heightOfAll (path.map .literal) = 0 := by
  induction path with
  | nil => rfl
  | cons segment path ih => simp [heightOfAll, height, ih]

theorem height_helperCall (h : Helper) (arguments : List Expr) :
    (helperCall h arguments).height = heightOfAll arguments + 1 := by
  simp [helperCall, height]

theorem height_access (root : String) (path : List String) : (access root path).height ≤ 1 := by
  unfold access
  split
  · exact Nat.zero_le 1
  · rw [height_helperCall, heightOfAll, heightOfAll_literals]
    exact Nat.le_refl 1

theorem height_pathCode (path : String) : (pathCode contextName live path).height ≤ 1 := by
  unfold pathCode
  split
  · exact Nat.zero_le 1
  · split <;> exact height_access _ _

/-- A helper is called with a path first. -/
theorem height_call (h : Helper) (path : String) {arguments : List Expr}
    (ha : heightOfAll arguments = 0) :
    (helperCall h (pathCode contextName live path :: arguments)).height ≤ 2 := by
  have hpath := height_pathCode contextName live path
  rw [height_helperCall, heightOfAll, ha]
  omega

theorem height_segmentCode (segments : List String) : ∀ literal : Bool,
    heightOfAll (segmentCode contextName live literal segments) ≤ 2 := by
  induction segments with
  | nil =>
    intro literal
    cases literal <;> exact Nat.zero_le 2
  | cons segment rest ih =>
    intro literal
    cases literal with
    | true =>
      rw [segmentCode]
      split
      · exact ih false
      · exact max_le (Nat.zero_le 2) (ih false)
    | false => exact max_le (height_call contextName live .ifDefined segment rfl) (ih true)

theorem height_insertion (insertion : Insertion) :
    heightOfAll (insertion.code contextName live) ≤ 2 := by
  have hone : ∀ {e : Expr}, e.height ≤ 2 → heightOfAll [e] ≤ 2 :=
    fun he => max_le he (Nat.zero_le 2)
  cases insertion with
  | raw text => exact Nat.zero_le 2
  | body path => exact hone (height_call contextName live .renderBody path rfl)
  | comment path => exact hone (height_call contextName live .ifDefined path rfl)
  | composite segments => exact height_segmentCode contextName live _ true
  | optional key path => exact hone (height_call contextName live .ifDefined path rfl)
  | flag key path => exact hone (height_call contextName live .ifCheck path rfl)

theorem height_testCode (path : String) (inverted emptiness : Bool) :
    (testCode contextName live path inverted emptiness).height ≤ 2 := by
  have hpath : (pathCode contextName live path).height ≤ 2 :=
    Nat.le_succ_of_le (height_pathCode contextName live path)
  have hempty : (helperCall .isNonempty [pathCode contextName live path]).height ≤ 2 :=
    height_call contextName live .isNonempty path rfl
  cases inverted <;> cases emptiness
  · exact hpath
  · exact hempty
  · exact hpath
  · exact hempty

end Height

/-! ## Starts and ends of bodies -/

namespace Token

open Generate

variable {limit n : Nat}

theorem climbs_bodyOpen (h : n + 2 ≤ limit) : Climbs limit n bodyOpen (n + 2) := ⟨rfl, h⟩

theorem climbs_bodyClose (h : n + 2 ≤ limit) : Climbs limit (n + 2) bodyClose n :=
  ⟨h, Nat.le_of_succ_le h, rfl, by omega⟩

/-- The start of a block leaves its call and its body open. -/
theorem climbs_openTokens (contextName : String) (live : List String) (head : Head)
    (h : n + 3 ≤ limit) : Climbs limit n (openTokens contextName live head) (n + 3) := by
  have hblock : ∀ (helper : Helper) (e : Expr) (parameter? : Option String), e.height ≤ 2 →
      Climbs limit n (blockOpen helper e.written parameter?) (n + 3) := by
    intro helper e parameter? he
    have hvalue : Climbs limit (n + 1) e.written (n + 1) := Expr.climbs_written e (by omega)
    have hseparator : Climbs limit (n + 1) separator (n + 1) := ⟨rfl, hvalue.le⟩
    have hfunction := Expr.climbs_functionOpen parameter? hvalue.le
    have hbody : Climbs limit (n + 1) bodyOpen (n + 3) := climbs_bodyOpen h
    exact ((hvalue.append hseparator).append hfunction).append hbody
  cases head with
  | conditional path inverted emptiness =>
    exact hblock .ifCheck _ none (height_testCode contextName live path inverted emptiness)
  | loop path binding =>
    exact hblock .loop _ _ (Nat.le_succ_of_le (height_pathCode contextName live path))

/-- Going over to the other body closes the first and opens the second. -/
theorem climbs_otherwise (h : n + 2 ≤ limit) :
    Climbs limit (n + 2) (bodyClose ++ separator ++ functionOpen none ++ bodyOpen) (n + 2) := by
  have hbetween : Climbs limit n (separator ++ functionOpen none) n := ⟨rfl, by omega⟩
  have hbodies := (climbs_bodyClose h).append (hbetween.append (climbs_bodyOpen h))
  simpa only [List.append_assoc] using hbodies

theorem climbs_close (h : n + 3 ≤ limit) :
    Climbs limit (n + 3) (bodyClose ++ [.closeParen] ++ separator) n := by
  have hbody : Climbs limit (n + 3) bodyClose (n + 1) := climbs_bodyClose h
  have hcall : Climbs limit (n + 1) (.closeParen :: separator) n := ⟨by omega, rfl, by omega⟩
  simpa only [List.append_assoc, List.singleton_append] using hbody.append hcall

end Token

namespace Generator

open Generate

/-! ## Parts -/

/-- How many brackets are open at most at any place of an expression. -/
def bracketBound : Nat := 3 * maxDepth + 4

/-- How many brackets are open between two parts, at some depth of blocks. -/
def bracketsAt (depth : Nat) : Nat := 2 + 3 * depth

/-- What holds of a generator between two parts: so many brackets are open as its blocks need. -/
structure Bracketed (g : Generator) : Prop where
  consistent : g.scope.Consistent
  depth : g.scope.depth ≤ maxDepth
  climbs : Token.Climbs bracketBound 0 g.output.toList (bracketsAt g.scope.depth)

namespace Bracketed

variable {g h : Generator} {name : String} {p : Part} {ps : List Part}

theorem builtIn_of_yields (hc : g.scope.Consistent) (hy : Yields (Generate.part p) g () h) :
    p.BuiltIn := by
  rcases p.kinds with ⟨insertion, rfl⟩ | ⟨head, rfl⟩ | rfl | rfl | ⟨kind, rfl⟩
  · exact Insertion.builtIn (hy.of_insertion hc).2
  · exact Head.builtIn head
  · trivial
  · trivial
  · exact hy.of_throw.elim

/-- A part that is accepted fits where it stands, and turns the blocks that are open. -/
theorem fits_of_yields (hc : g.scope.Consistent) (hy : Yields (Generate.part p) g () h) :
    p.FitsIn g.blocks ∧ h.blocks = p.turn g.blocks := by
  have hobeys := obeys_part (g := g) (builtIn_of_yields hc hy)
  have hspelled : p.Spelled g.contextName := by
    by_contra hno
    obtain ⟨fault, k, herror⟩ := hobeys.misspelled hno
    cases hy.symm.trans herror
  have hfits : p.FitsIn g.blocks := by
    by_contra hno
    obtain ⟨fault, k, herror⟩ := hobeys.misplaced hspelled hno
    cases hy.symm.trans herror
  obtain ⟨_, k, hok, -, hblocks⟩ := hobeys.accepted hspelled hfits
  obtain rfl : h = k := congrArg Prod.snd (hy.symm.trans hok)
  exact ⟨hfits, hblocks⟩

/-- What an accepted part appends leads from the brackets of one place to those of the next. -/
theorem appends (hg : g.Bracketed) (hy : Yields (Generate.part p) g () h) :
    h.scope.Consistent ∧ ∃ added, h.output.toList = g.output.toList ++ added ∧
      Token.Climbs bracketBound (bracketsAt g.scope.depth) added (bracketsAt h.scope.depth) := by
  have hc := hg.consistent
  have hroom : bracketsAt g.scope.depth + 2 ≤ bracketBound := by
    have hdepth := hg.depth
    unfold bracketsAt bracketBound
    omega
  rcases p.kinds with ⟨insertion, rfl⟩ | ⟨head, rfl⟩ | rfl | rfl | ⟨kind, rfl⟩
  · obtain ⟨hemits, -⟩ := hy.of_insertion hc
    have hheight := height_insertion g.contextName (liveNames g.scope.frames) insertion
    have hdepth : h.scope.depth = g.scope.depth := congrArg List.length hemits.frames
    refine ⟨hemits.consistent, _, hemits.output, ?_⟩
    rw [hdepth]
    exact Expr.climbs_writtenItems _ (by omega)
  · have hopen := hy.of_head hc
    obtain ⟨frame, hframes, -⟩ := hopen.frame
    have hdepth : h.scope.depth = g.scope.depth + 1 := congrArg List.length hframes
    have hlow : g.scope.depth < maxDepth := by
      rw [← length_blocks]
      exact (Template.fitsIn_head head).1 (fits_of_yields hc hy).1
    refine ⟨hopen.consistent, _, hopen.output, ?_⟩
    rw [hdepth]
    apply Token.climbs_openTokens
    unfold bracketsAt bracketBound
    omega
  · obtain ⟨frame, rest, hbefore, -, hafter, hconsistent, -, houtput⟩ := hy.of_otherwise hc
    have hdepth : h.scope.depth = g.scope.depth := by
      unfold Scope.depth
      rw [hbefore, hafter]
      rfl
    refine ⟨hconsistent, _, houtput, ?_⟩
    have hlimit : 3 * g.scope.depth + 2 ≤ bracketBound := by
      unfold bracketsAt at hroom
      omega
    have hswitch := Token.climbs_otherwise hlimit
    rwa [hdepth, bracketsAt, Nat.add_comm]
  · obtain ⟨frame, rest, hbefore, hafter, hconsistent, -, houtput⟩ := hy.of_close hc
    have hdepth : g.scope.depth = h.scope.depth + 1 := by
      unfold Scope.depth
      rw [hbefore, hafter]
      rfl
    refine ⟨hconsistent, _, houtput, ?_⟩
    rw [hdepth] at hroom ⊢
    exact Token.climbs_close (Nat.le_of_add_right_le hroom)
  · exact hy.of_throw.elim

/-- A part that is accepted keeps the brackets balanced with the blocks. -/
theorem part (hg : g.Bracketed) (hy : Yields (Generate.part p) g () h) : h.Bracketed := by
  obtain ⟨hconsistent, added, houtput, hclimbs⟩ := hg.appends hy
  obtain ⟨hfits, hblocks⟩ := fits_of_yields hg.consistent hy
  refine ⟨hconsistent, ?_, ?_⟩
  · have hdepth : g.blocks.length ≤ maxDepth := (length_blocks g).trans_le hg.depth
    rw [← length_blocks, hblocks]
    exact hfits.length_turn hdepth
  · rw [houtput]
    exact hg.climbs.append hclimbs

/-- So it is after any parts, which append to the output and turn the open blocks one by one. -/
theorem parts (hg : g.Bracketed) (hy : Yields (Generate.parts ps) g () h) :
    h.Bracketed ∧ h.blocks = ps.foldl Part.turn g.blocks ∧ g.output.toList <+: h.output.toList := by
  induction ps generalizing g with
  | nil =>
    obtain ⟨-, rfl⟩ := hy.of_pure
    exact ⟨hg, rfl, List.prefix_rfl⟩
  | cons p ps ih =>
    obtain ⟨k, hpart, hparts⟩ := hy.of_parts_cons
    obtain ⟨-, added, houtput, -⟩ := hg.appends hpart
    obtain ⟨hbracketed, hblocks, hprefix⟩ := ih (hg.part hpart) hparts
    refine ⟨hbracketed, ?_, (houtput ▸ List.prefix_append _ _).trans hprefix⟩
    rw [hblocks, (fits_of_yields hg.consistent hpart).2, List.foldl_cons]

/-- The start of a body opens its two brackets. -/
theorem started (hg : ofContextName name = .ok g) : g.started.Bracketed := by
  obtain ⟨rfl, -⟩ := ofContextName_ok hg
  refine ⟨Scope.consistent_empty, Nat.zero_le _, ?_⟩
  exact Token.climbs_bodyOpen (by unfold bracketBound; omega)

end Bracketed

/-! ## Expressions -/

/-- How many brackets may be open at once in code that is read. -/
def bracketLimit : Nat := 200

/-- Tokens that stay apart nest as they climb from no open bracket. -/
theorem nests_of_climbs {tokens : List Token} {limit n : Nat} (hapart : Token.Apart tokens)
    (hspaced : Token.Spaced tokens) (h : Token.Climbs limit 0 tokens n) :
    Region.Nests limit [] (Region.all (Token.textOf tokens).toList) (List.replicate n '(') := by
  rw [Token.all_textOf hapart hspaced]
  exact h.nests hapart

/-- The text of the first tokens is a start of the whole, and is cut alone as it is cut there. -/
theorem prefix_textOf {tokens rest : List Token} (hapart : Token.Apart (tokens ++ rest))
    (hspaced : Token.Spaced (tokens ++ rest)) :
    (Token.textOf tokens).toList <+: (Token.textOf (tokens ++ rest)).toList ∧
      Region.all (Token.textOf tokens).toList <+:
        Region.all (Token.textOf (tokens ++ rest)).toList := by
  constructor
  · rw [Token.textOf, Token.textOf, String.toList_ofList, String.toList_ofList,
      List.flatMap_append]
    exact List.prefix_append _ _
  · rw [Token.all_textOf hapart hspaced, List.flatMap_append,
      Token.all_textOf hapart.of_append (List.IsChain.left_of_append hspaced)]
    exact List.prefix_append _ _

end Generator

/-! ## Functions -/

namespace TemplateFunction

open Region

variable {f : TemplateFunction} {limit : Nat}

/-- The signature closes the bracket of its parameter. -/
theorem Clean.nests_signature (h : f.Clean) (hlimit : 1 ≤ limit) :
    Nests limit [] (f.signature.toList.map .code) [] := by
  have hdef : Nests limit [] ("\n\ndef ".toList.map .code) [] :=
    .flat (flat_of_all _ (by decide)) (Nat.zero_le _)
  have hname : Nests limit [] (f.name.toList.map .code) [] := by
    refine .flat (fun r hr => ?_) (Nat.zero_le _)
    obtain ⟨c, hc, rfl⟩ := List.mem_map.1 hr
    exact flat_of_continuesIdentifier (continuesIdentifier_of_isWordChar (h.name c hc))
  have hopen : Nests limit [] ("(".toList.map .code) ['('] :=
    .cons rfl (Nat.zero_le _) (.nil hlimit)
  have hcontext : Nests limit ['('] (f.compiled.contextName.toList.map .code) ['('] :=
    .flat (flat_of_isIdentifier h.contextName) hlimit
  have hdefault : Nests limit ['(']
      ((if f.compiled.anyRequired then "" else "=None" : String).toList.map .code) ['('] := by
    refine .flat (flat_of_all _ ?_) hlimit
    split <;> decide
  have hclose : Nests limit ['('] ("):\n    ".toList.map .code) [] :=
    .cons rfl hlimit (.flat (flat_of_all ":\n    ".toList (by decide)) (Nat.zero_le _))
  unfold signature
  simp only [String.toList_append, List.map_append]
  exact ((((hdef.append hname).append hopen).append hcontext).append hdefault).append hclose

/-- A function nests one bracket deeper than its expression. -/
theorem Clean.nests_text (h : f.Clean)
    (hexpression : Nests limit [] (all f.compiled.expression.toList) []) :
    Nests (limit + 1) [] (all (unifyLineEnds (text f.name f.file f.compiled).toList)) [] := by
  have hone : 1 ≤ limit + 1 := Nat.le_add_left 1 limit
  have hblock : Nests (limit + 1) [] [.block f.block] [] :=
    .cons rfl (Nat.zero_le _) (.nil (Nat.zero_le _))
  have hreturn : Nests (limit + 1) [] ("\n    return unsafe".toList.map .code) [] :=
    .flat (flat_of_all _ (by decide)) (Nat.zero_le _)
  have hopen : Nests (limit + 1) [] ("(".toList.map .code) ['('] :=
    .cons rfl (Nat.zero_le _) (.nil hone)
  have hinside : Nests (limit + 1) ['('] (all f.compiled.expression.toList) ['('] :=
    hexpression.enclosed ['(']
  have hclose : Nests (limit + 1) ['('] (")\n".toList.map .code) [] :=
    .cons rfl hone (.flat (flat_of_all ['\n'] (by decide)) (Nat.zero_le _))
  have hcall : "\n    return unsafe(" = "\n    return unsafe" ++ "(" := by decide
  have hanswer : Nests (limit + 1) [] ("\n    return unsafe(".toList.map .code ++
      all f.compiled.expression.toList ++ ")\n".toList.map .code) [] := by
    rw [hcall, String.toList_append, List.map_append]
    exact ((hreturn.append hopen).append hinside).append hclose
  rw [h.cutsInto_text.all_eq]
  exact (h.nests_signature hone).append (hblock.append hanswer)

end TemplateFunction

namespace Generator

open Generate

variable {name : String} {g h : Generator} {ps : List Part}

/-- How deep the brackets of an expression nest, whatever parts are folded.

Outside of texts in quotes every closing bracket matches, and none is left open.  Behind some of the
parts, what has been written is a start of the expression that is cut alone as it is cut there, and
it leaves two brackets open and three more for each open block.  At no place are there more than
`3 * maxDepth + 4` open, or one more in the function of a module that returns the expression. -/
theorem brackets_nest (hg : ofContextName name = .ok g) (hfold : g.fold ps = (.ok (), h)) :
    ∃ text, h.expression = .ok text ∧
      Region.Nests (3 * maxDepth + 4) [] (Region.all text.toList) [] ∧
      (∀ before, before <+: ps → ∃ k written, (Generate.parts before).run g.started = (.ok (), k) ∧
        written = Token.textOf k.output.toList ∧
        written.toList <+: text.toList ∧ Region.all written.toList <+: Region.all text.toList ∧
        k.scope.depth = (Part.openBlocks before).length ∧
        Region.openBehind [] (Region.all written.toList) =
          some (List.replicate (2 + 3 * (Part.openBlocks before).length) '(')) ∧
      (∀ f : TemplateFunction, (∀ c ∈ f.name.toList, isWordChar c = true) →
        Compiled.ofParts name ps = .ok f.compiled →
        Region.Nests (3 * maxDepth + 4 + 1) []
          (Region.all (unifyLineEnds (TemplateFunction.text f.name f.file f.compiled).toList)) []) ∧
      3 * maxDepth + 4 + 1 < bracketLimit := by
  obtain ⟨rfl, hn⟩ := ofContextName_ok hg
  have hy : Yields (Generate.fold ps) ⟨name, .empty, #[], none⟩ () h := hfold
  obtain ⟨hapart, hspaced⟩ := tokens_fold (checkContextName_ok hn).1 hy
  obtain ⟨k, hparts, hframes, rfl⟩ := hy.of_fold
  have hstarted : (Generator.mk name .empty #[] none).started.Bracketed := .started hg
  obtain ⟨hbracketed, -, -⟩ := hstarted.parts hparts
  have houtput : (k.output ++ bodyClose).toList = k.output.toList ++ bodyClose :=
    Array.toList_appendList
  have hnests : Region.Nests (3 * maxDepth + 4) []
      (Region.all (Token.textOf (k.output ++ bodyClose).toList).toList) [] := by
    have hdepth : k.scope.depth = 0 := by rw [Scope.depth, hframes]; rfl
    have hclimbs := hbracketed.climbs
    rw [hdepth] at hclimbs
    refine nests_of_climbs hapart hspaced (n := 0) ?_
    rw [houtput]
    exact hclimbs.append (Token.climbs_bodyClose (by unfold bracketBound; omega))
  refine ⟨_, rfl, hnests, ?_, ?_, by decide⟩
  · rintro before ⟨after, rfl⟩
    obtain ⟨l, hbefore, hafter⟩ := hparts.of_parts_append
    obtain ⟨hl, hblocks, -⟩ := hstarted.parts hbefore
    obtain ⟨-, -, hprefix⟩ := hl.parts hafter
    have hstart : l.output.toList <+: (k.output ++ bodyClose).toList := by
      rw [houtput]
      exact hprefix.trans (List.prefix_append _ _)
    obtain ⟨rest, hrest⟩ := hstart
    have hdepth : l.scope.depth = (Part.openBlocks before).length := by
      rw [← length_blocks, hblocks]
      rfl
    rw [← hrest] at hapart hspaced ⊢
    have hcut := nests_of_climbs hapart.of_append (List.IsChain.left_of_append hspaced) hl.climbs
    obtain ⟨htext, hregions⟩ := prefix_textOf hapart hspaced
    refine ⟨l, _, hbefore, rfl, htext, hregions, hdepth, ?_⟩
    rw [← hdepth]
    exact hcut.behind
  · intro f hname hcompiled
    have hclean := TemplateFunction.clean_of_parts hname hcompiled
    refine hclean.nests_text ?_
    obtain ⟨-, -, l, hfold', htext, -⟩ := Compiled.ofParts_ok hcompiled
    obtain rfl := congrArg Prod.snd (hfold.symm.trans hfold')
    rwa [← Except.ok.inj htext]

/-- A loop over a text with brackets in it, and its else. -/
theorem brackets_nest_loop : ∃ g h, ofContextName "context" = .ok g ∧
    g.fold [.loop "xs" "x", .raw "('(", .otherwise, .close] = (.ok (), h) ∧
    ∃ text, h.expression = .ok text ∧ Region.Nests 154 [] (Region.all text.toList) [] := by
  have hg : ofContextName "context" = .ok ⟨"context", .empty, #[], none⟩ := rfl
  have hok : ((Generator.mk "context" .empty #[] none).fold
      [.loop "xs" "x", .raw "('(", .otherwise, .close]).1 = .ok () := rfl
  have hfold := Prod.ext_iff.2 ⟨hok, rfl⟩
  obtain ⟨text, htext, hnests, -⟩ := brackets_nest hg hfold
  exact ⟨_, _, hg, hfold, text, htext, hnests⟩

end Generator
end HtmlTemplate
