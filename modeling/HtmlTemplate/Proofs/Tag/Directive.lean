import HtmlTemplate.Proofs.Tag.Form
import HtmlTemplate.Proofs.Template.Spelling
import HtmlTemplate.Tag.Resolver
import Mathlib.Data.List.Basic

/-!
# Directive — what the built-in directive tags stand for

A block is opened, turned and closed by directive tags or by markers.  Whichever way the values of
a tag's attributes are written, the resolver of the built-in tags gives the one part of the
directive that the tag spells (`BlockDirective.Spells.resolve`).
-/

namespace HtmlTemplate

open Text

/-- What opens, turns or closes a block. -/
inductive BlockDirective where
  | loop (path : String) (binding : Option String)
  | test (path : String) (inverted : Bool)
  | otherwise
  | close
  deriving DecidableEq, Repr

namespace BlockDirective

def part : BlockDirective → Part
  | loop path binding => .loop path (binding.getD Part.defaultBinding)
  | test path inverted => .conditional path inverted false
  | otherwise => .otherwise
  | close => .close

/-- Whether the path, and the binding if there is one, are accepted in a template for a context of
the name. -/
def Accepted (contextName : String) : BlockDirective → Prop
  | loop path binding =>
    Path.check path = .ok () ∧ ∀ b ∈ binding, (Binding.check contextName b).isOk = true
  | test path _ => Path.check path = .ok ()
  | otherwise => True
  | close => True

instance (contextName : String) (d : BlockDirective) : Decidable (d.Accepted contextName) :=
  match d with
  | loop path binding => inferInstanceAs (Decidable
      (Path.check path = .ok () ∧ ∀ b ∈ binding, (Binding.check contextName b).isOk = true))
  | test path _ => inferInstanceAs (Decidable (Path.check path = .ok ()))
  | otherwise => inferInstanceAs (Decidable True)
  | close => inferInstanceAs (Decidable True)

end BlockDirective

/-! ## Tags -/

/-- A way of writing an attribute. -/
structure AttributeForm where
  /-- What stands in front of the key. -/
  blanks : List Char
  value : ValueForm
  deriving DecidableEq, Repr

namespace AttributeForm

def written (a : AttributeForm) (key : String) (value : List Char) : WrittenAttribute :=
  ⟨a.blanks, key.toList, a.value.written value⟩

structure Fits (a : AttributeForm) (value : List Char) : Prop where
  spaced : a.blanks ≠ []
  blanks : ∀ c ∈ a.blanks, isBlank c = true
  value : a.value.Fits value

end AttributeForm

/-- Whether a tag says what a directive does.  An empty binding is as good as none, and in front of
the path of an inverted test stands a `!`, with blanks behind it or without. -/
inductive BlockDirective.Spells : BlockDirective → WrittenTag → Prop
  | loop {path : String} {iter : AttributeForm} {blanks : List Char} : iter.Fits path.toList →
      (∀ c ∈ blanks, isBlank c = true) → Spells (.loop path none)
        ⟨false, "hc:loop".toList, [iter.written "iter" path.toList], blanks, false⟩
  | unboundLoop {path : String} {iter v : AttributeForm} {blanks : List Char} :
      iter.Fits path.toList → v.Fits [] → (∀ c ∈ blanks, isBlank c = true) →
        Spells (.loop path none) ⟨false, "hc:loop".toList,
          [iter.written "iter" path.toList, v.written "v" []], blanks, false⟩
  | boundLoop {path binding : String} {iter v : AttributeForm} {blanks : List Char} :
      iter.Fits path.toList → v.Fits binding.toList → (∀ c ∈ blanks, isBlank c = true) →
        Spells (.loop path (some binding)) ⟨false, "hc:loop".toList,
          [iter.written "iter" path.toList, v.written "v" binding.toList], blanks, false⟩
  | test {path : String} {i : AttributeForm} {blanks : List Char} : i.Fits path.toList →
      (∀ c ∈ blanks, isBlank c = true) → Spells (.test path false)
        ⟨false, "hc:if".toList, [i.written "i" path.toList], blanks, false⟩
  | invertedTest {path : String} {gap : List Char} {i : AttributeForm} {blanks : List Char} :
      IsPadding gap → i.Fits ('!' :: (gap ++ path.toList)) → (∀ c ∈ blanks, isBlank c = true) →
        Spells (.test path true)
          ⟨false, "hc:if".toList, [i.written "i" ('!' :: (gap ++ path.toList))], blanks, false⟩
  | otherwise {blanks : List Char} : (∀ c ∈ blanks, isBlank c = true) →
      Spells .otherwise ⟨false, "hc:else".toList, [], blanks, true⟩
  | closeLoop {blanks : List Char} : (∀ c ∈ blanks, isBlank c = true) →
      Spells .close ⟨true, "hc:loop".toList, [], blanks, false⟩
  | closeTest {blanks : List Char} : (∀ c ∈ blanks, isBlank c = true) →
      Spells .close ⟨true, "hc:if".toList, [], blanks, false⟩

/-! ## Characters of paths -/

namespace Path

theorem isBlank_of_isNameChar {c : Char} (h : isNameChar c = true) : isBlank c = false := by
  have hall : ∀ n : Fin 0x80, isNameChar (Char.ofNat n) = true →
      isBlank (Char.ofNat n) = false := by decide +kernel
  have hchar := hall ⟨c.toNat, Binding.isNameChar_ascii h⟩
  simp only [Char.ofNat_toNat] at hchar
  exact hchar h

/-- A text of name characters and dots. -/
def IsPlain (cs : List Char) : Prop := ∀ c ∈ cs, isNameChar c = true ∨ c = '.'

theorem IsPlain.not_blank {cs : List Char} (h : IsPlain cs) : ∀ c ∈ cs, isBlank c = false := by
  intro c hc
  rcases h c hc with hname | rfl
  · exact isBlank_of_isNameChar hname
  · rfl

theorem IsPlain.not_mem {cs : List Char} (h : IsPlain cs) {c : Char} (hname : isNameChar c = false)
    (hdot : c ≠ '.') : c ∉ cs := by
  intro hmem
  rcases h c hmem with hc | hc
  · rw [hname] at hc
    cases hc
  · exact hdot hc

theorem IsPlain.writable {cs : List Char} (h : IsPlain cs) : Writable cs where
  chars := by
    have hsigns : (['"', '\n', '/', '>', '{', '}'].all fun c =>
        !isNameChar c && c != '.') = true := rfl
    intro c hc hmem
    obtain ⟨hname, hdot⟩ := Bool.and_eq_true_iff.1 (List.all_eq_true.1 hsigns c hmem)
    rw [Bool.not_eq_true'] at hname
    rw [bne_iff_ne] at hdot
    exact h.not_mem hname hdot hc
  stripped := strip_of_no_blank h.not_blank

theorem WellSpelled.isPlain {path : String} (h : WellSpelled path) : IsPlain path.toList := by
  intro c hc
  by_cases hdot : c = '.'
  · exact Or.inr hdot
  · obtain ⟨segment, hs, hmem⟩ := mem_split hc hdot
    have hsegment := h.segment (String.ofList segment) (List.mem_map_of_mem hs)
    exact Or.inl (isNameChar_iff.2 (hsegment.2 c (by rwa [String.toList_ofList])))

theorem isPlain_of_segment {segment : String} (h : Segment segment) : IsPlain segment.toList :=
  fun c hc => Or.inl (isNameChar_iff.2 (h.2 c hc))

end Path

theorem Writable.nil : Writable [] := ⟨fun _ h => absurd h List.not_mem_nil, rfl⟩

theorem Writable.of_path {path : String} (h : Path.check path = .ok ()) : Writable path.toList :=
  (Path.check_eq_ok_iff.1 h).isPlain.writable

theorem Writable.of_binding {contextName b : String}
    (h : (Binding.check contextName b).isOk = true) : Writable b.toList :=
  (Path.isPlain_of_segment (Binding.isOk_check_iff.1 h).segment).writable

/-- A path may have a `!` in front of it, and blanks in between. -/
theorem Writable.of_inverted {path : String} (h : Path.check path = .ok ()) {gap : List Char}
    (hgap : IsPadding gap) : Writable ('!' :: (gap ++ path.toList)) where
  chars := by
    -- Of the characters that no value holds, a blank may only be the end of a line.
    have hsigns : (['"', '\n', '/', '>', '{', '}'].all fun c =>
        c != '!' && (!isBlank c || c == '\n')) = true := rfl
    intro c hc hmem
    obtain ⟨hbang, hblank⟩ := Bool.and_eq_true_iff.1 (List.all_eq_true.1 hsigns c hmem)
    rw [bne_iff_ne] at hbang
    rw [Bool.or_eq_true, Bool.not_eq_true', beq_iff_eq] at hblank
    rcases List.mem_append.1 ((List.mem_cons.1 hc).resolve_left hbang) with hc | hc
    · obtain ⟨hgapBlank, hline⟩ := hgap c hc
      rcases hblank with hblank | rfl
      · rw [hblank] at hgapBlank
        cases hgapBlank
      · exact hline rfl
    · exact (Writable.of_path h).chars c hc hmem
  stripped := by
    have hpath := Path.check_eq_ok_iff.1 h
    have hne : path.toList ≠ [] := mt String.toList_eq_nil_iff.1 hpath.ne_empty
    exact strip_cons_append rfl gap hne hpath.isPlain.not_blank

/-! ## What tags stand for -/

namespace AttributeForm

variable {a : AttributeForm} {value : List Char}

theorem valid_written {key : String} (hkey : key ∈ ["iter", "v", "i"]) (h : a.Fits value)
    (hvalue : Writable value) : (a.written key value).Valid := by
  have hkeys : (["iter", "v", "i"].all fun key => !key.toList.isEmpty &&
      key.toList.all fun c => !isBlank c && c != '/' && c != '>' && c != '=') = true := rfl
  have hread := List.all_eq_true.1 hkeys key hkey
  simp only [Bool.and_eq_true, Bool.not_eq_true', List.isEmpty_eq_false_iff, List.all_eq_true,
    bne_iff_ne, and_assoc] at hread
  obtain ⟨hkeyed, hchars⟩ := hread
  exact ⟨h.spaced, h.blanks, hkeyed, hchars, a.value.valid_written h.value hvalue⟩

/-- The setting that is written. -/
theorem setting_written (a : AttributeForm) (key : String) (value : List Char) :
    (a.written key value).setting = (key, (a.value.written value).meant) := by
  unfold written WrittenAttribute.setting
  rw [String.ofList_toList]

end AttributeForm

namespace Options

theorem collect_eq_ok {fields : List OptionField} (tag : Tag) {values : List (String × String)}
    (hgiven : given fields tag.name tag.attributes = .ok values)
    (hrequired : ∀ field ∈ fields, field.required = true →
      (values.lookup field.name).isSome = true) :
    collect fields tag = .ok (fields.map fun field =>
      (field.name, values.lookup field.name <|> field.default)) := by
  -- No field is missing.
  have hnone : (fields.find? fun field =>
      field.required && (values.lookup field.name).isNone) = none := by
    rw [List.find?_eq_none]
    intro field hfield h
    obtain ⟨hr, hmissing⟩ := Bool.and_eq_true_iff.1 h
    have hsome := hrequired field hfield hr
    rw [Option.isNone_iff_eq_none] at hmissing
    rw [hmissing] at hsome
    cases hsome
  unfold collect
  rw [hgiven]
  simp only [bind, Except.bind, hnone]
  rfl

theorem given_nil (fields : List OptionField) (tag : String) : given fields tag [] = .ok [] := rfl

theorem given_cons {fields : List OptionField} {tag key path : String} {v : AttributeValue}
    {attributes : Attributes} {values : List (String × String)}
    (hvalue : value fields tag key v = .ok path)
    (hgiven : given fields tag attributes = .ok values) :
    given fields tag ((key, v) :: attributes) = .ok ((key, path) :: values) := by
  rw [given, hvalue]
  simp only [bind, Except.bind, hgiven]
  rfl

end Options

/-- The resolver of the built-in tags asks the handler of a name about the tags of that name. -/
theorem Resolver.resolve_builtin {tag : Tag} {handler : Handler} (name : String)
    (hname : tag.name = defaultLeading ++ name)
    (hget : Registry.builtin.get? name = some handler) :
    builtin.resolve tag = some <$> handler.resolve tag := by
  have hstarts : defaultLeading.toList.isPrefixOf? tag.name.toList = some name.toList := by
    rw [List.isPrefixOf?_eq_some_iff_append_eq, hname, String.toList_append]
  unfold resolve builtin
  simp only [hstarts, String.ofList_toList, hget]

namespace Handler

variable {name path : String} {attributes : Attributes}

/-- A tag that opens a loop gives its part. -/
theorem resolve_loop (v : Option String) (hgiven : Options.given Options.loopFields name
      attributes = .ok (("iter", path) :: (v.toList.map fun v => ("v", v)))) :
    loop.resolve ⟨name, attributes, false, false⟩ = .ok [.loop path (bindingOf v)] := by
  have hcollect := Options.collect_eq_ok ⟨name, attributes, false, false⟩ hgiven
    (by simp [Options.loopFields])
  unfold loop resolveLoop
  dsimp only
  rw [if_neg Bool.false_ne_true, hcollect]
  cases v <;> rfl

/-- A tag that opens a conditional gives the test that its value writes. -/
theorem resolve_conditional
    (hgiven : Options.given Options.conditionalFields name attributes = .ok [("i", path)]) :
    conditional.resolve ⟨name, attributes, false, false⟩ = .ok [testPart path false] := by
  have hcollect := Options.collect_eq_ok ⟨name, attributes, false, false⟩ hgiven
    (by simp [Options.conditionalFields])
  unfold conditional resolveConditional
  dsimp only
  rw [if_neg Bool.false_ne_true, hcollect]
  rfl

theorem testPart_of_head (h : path.toList.head? ≠ some '!') (emptiness : Bool) :
    testPart path emptiness = .conditional path false emptiness := by
  unfold testPart
  split
  · rename_i heq
    rw [heq] at h
    exact absurd rfl h
  · rfl

theorem testPart_inverted (cs : List Char) (emptiness : Bool) :
    testPart (String.ofList ('!' :: cs)) emptiness =
      .conditional (String.ofList (strip cs)) true emptiness := by
  unfold testPart
  rw [String.toList_ofList]
  rfl

theorem bindingOf_some {b : String} (h : b ≠ "") : bindingOf (some b) = b := by
  unfold bindingOf
  split
  · rename_i hb
    cases hb
  · rename_i hb
    exact absurd (Option.some.inj hb) h
  · rename_i hb
    exact (Option.some.inj hb).symm

end Handler

theorem WrittenTag.valid_directive {isClose isSelfClosing : Bool} {name : String}
    {attributes : List WrittenAttribute} {blanks : List Char}
    (hname : name ∈ ["hc:loop", "hc:if", "hc:else"]) (hattributes : ∀ a ∈ attributes, a.Valid)
    (hblanks : ∀ c ∈ blanks, isBlank c = true) :
    WrittenTag.Valid ⟨isClose, name.toList, attributes, blanks, isSelfClosing⟩ := by
  have hnames : (["hc:loop", "hc:if", "hc:else"].all fun name => !name.toList.isEmpty &&
      (name.toList.all fun c => !isBlank c && c != '>') && name.toList.getLast? != some '/' &&
        name.toList.head? == some 'h') = true := rfl
  have hread := List.all_eq_true.1 hnames name hname
  simp only [Bool.and_eq_true, Bool.not_eq_true', List.isEmpty_eq_false_iff, List.all_eq_true,
    bne_iff_ne, beq_iff_eq, and_assoc] at hread
  obtain ⟨hnamed, hchars, hslash, hhead⟩ := hread
  exact ⟨hnamed, hchars, hslash, fun _ => ⟨'h', hhead, by decide⟩, hattributes, hblanks⟩

namespace Resolver

/-- The tag of a loop gives a loop over the path that is written, with the binding that is. -/
theorem resolve_writtenLoop {path : String} {iter : AttributeForm}
    {v : Option (AttributeForm × List Char)} (blanks : List Char) (hpath : Path.check path = .ok ())
    (hiter : iter.Fits path.toList) (hv : ∀ p ∈ v, p.1.Fits p.2 ∧ Writable p.2) :
    builtin.resolve (WrittenTag.tag ⟨false, "hc:loop".toList, iter.written "iter" path.toList ::
        v.toList.map fun p => p.1.written "v" p.2, blanks, false⟩) =
      .ok (some [.loop path (Handler.bindingOf (v.map fun p => String.ofList p.2))]) := by
  have hfirst : ∀ tag, Options.value Options.loopFields tag "iter"
      (iter.value.written path.toList).meant = .ok path := by
    intro tag
    rw [ValueForm.value_written hiter.value (.of_path hpath) (by decide), String.ofList_toList]
  unfold WrittenTag.tag WrittenTag.settings
  cases v with
  | none =>
    have hgiven := Options.given_cons (hfirst "hc:loop") (Options.given_nil _ _)
    have hattributes : ∀ x : AttributeValue, Attributes.ofList [("iter", x)] = [("iter", x)] :=
      fun _ => rfl
    simp only [Option.toList_none, List.map_cons, List.map_nil, AttributeForm.setting_written,
      String.ofList_toList, hattributes]
    rw [resolve_builtin "loop" rfl rfl, Handler.resolve_loop none hgiven]
    rfl
  | some p =>
    obtain ⟨v, value⟩ := p
    obtain ⟨hfits, hvalue⟩ := hv _ rfl
    have hsecond : Options.value Options.loopFields "hc:loop" "v" (v.value.written value).meant =
        .ok (String.ofList value) := ValueForm.value_written hfits.value hvalue (by decide) _
    have hgiven := Options.given_cons (hfirst "hc:loop")
      (Options.given_cons hsecond (Options.given_nil _ _))
    have hattributes : ∀ x y : AttributeValue, Attributes.ofList [("iter", x), ("v", y)] =
        [("iter", x), ("v", y)] := by
      intro x y
      simp [Attributes.ofList, Attributes.set]
    simp only [Option.toList_some, List.map_cons, List.map_nil, AttributeForm.setting_written,
      String.ofList_toList, hattributes]
    rw [resolve_builtin "loop" rfl rfl, Handler.resolve_loop (some (String.ofList value)) hgiven]
    rfl

/-- The tag of a conditional gives the test that its value writes. -/
theorem resolve_writtenTest {value : List Char} {i : AttributeForm} (blanks : List Char)
    (hi : i.Fits value) (hvalue : Writable value) :
    builtin.resolve (WrittenTag.tag ⟨false, "hc:if".toList, [i.written "i" value], blanks, false⟩) =
      .ok (some [Handler.testPart (String.ofList value) false]) := by
  have hfirst : Options.value Options.conditionalFields "hc:if" "i" (i.value.written value).meant =
      .ok (String.ofList value) := ValueForm.value_written hi.value hvalue (by decide) _
  have hgiven := Options.given_cons hfirst (Options.given_nil _ _)
  have hattributes : ∀ x : AttributeValue, Attributes.ofList [("i", x)] = [("i", x)] := fun _ => rfl
  unfold WrittenTag.tag WrittenTag.settings
  simp only [List.map_cons, List.map_nil, AttributeForm.setting_written, String.ofList_toList,
    hattributes]
  rw [resolve_builtin "if" rfl rfl, Handler.resolve_conditional hgiven]
  rfl

end Resolver

namespace BlockDirective.Spells

variable {contextName : String} {d : BlockDirective} {t : WrittenTag}

/-- What spells a directive is written like a tag. -/
theorem valid (h : d.Spells t) (hd : d.Accepted contextName) : t.Valid := by
  have hiter : "iter" ∈ ["iter", "v", "i"] := by decide
  have hv : "v" ∈ ["iter", "v", "i"] := by decide
  have hi : "i" ∈ ["iter", "v", "i"] := by decide
  cases h with
  | loop hfits hblanks =>
    have hfirst := AttributeForm.valid_written hiter hfits (.of_path hd.1)
    exact WrittenTag.valid_directive (by decide) (List.forall_mem_singleton.2 hfirst) hblanks
  | unboundLoop hfits hfits' hblanks =>
    have hfirst := AttributeForm.valid_written hiter hfits (.of_path hd.1)
    have hsecond := AttributeForm.valid_written hv hfits' .nil
    exact WrittenTag.valid_directive (by decide)
      (List.forall_mem_cons.2 ⟨hfirst, List.forall_mem_singleton.2 hsecond⟩) hblanks
  | boundLoop hfits hfits' hblanks =>
    have hfirst := AttributeForm.valid_written hiter hfits (.of_path hd.1)
    have hsecond := AttributeForm.valid_written hv hfits' (.of_binding (hd.2 _ rfl))
    exact WrittenTag.valid_directive (by decide)
      (List.forall_mem_cons.2 ⟨hfirst, List.forall_mem_singleton.2 hsecond⟩) hblanks
  | test hfits hblanks =>
    have hfirst := AttributeForm.valid_written hi hfits (.of_path hd)
    exact WrittenTag.valid_directive (by decide) (List.forall_mem_singleton.2 hfirst) hblanks
  | invertedTest hgap hfits hblanks =>
    have hfirst := AttributeForm.valid_written hi hfits (.of_inverted hd hgap)
    exact WrittenTag.valid_directive (by decide) (List.forall_mem_singleton.2 hfirst) hblanks
  | otherwise hblanks | closeLoop hblanks | closeTest hblanks =>
    exact WrittenTag.valid_directive (by decide) (List.forall_mem_nil _) hblanks

/-- The resolver of the built-in tags gives the part of the directive that a tag spells. -/
theorem resolve (h : d.Spells t) (hd : d.Accepted contextName) :
    Resolver.builtin.resolve t.tag = .ok (some [d.part]) := by
  cases h with
  | @loop path iter blanks hfits hblanks =>
    have hnone : ∀ p ∈ (none : Option (AttributeForm × List Char)),
        p.1.Fits p.2 ∧ Writable p.2 := by
      rintro p ⟨⟩
    exact Resolver.resolve_writtenLoop blanks hd.1 hfits hnone
  | @unboundLoop path iter v blanks hfits hfits' hblanks =>
    -- The empty binding that is given stands for the default one.
    have hv : ∀ p ∈ some (v, ([] : List Char)), p.1.Fits p.2 ∧ Writable p.2 := by
      rintro p ⟨⟩
      exact ⟨hfits', .nil⟩
    exact Resolver.resolve_writtenLoop blanks hd.1 hfits hv
  | @boundLoop path binding iter v blanks hfits hfits' hblanks =>
    have hbinding := hd.2 binding rfl
    have hne : binding ≠ "" := (Binding.isOk_check_iff.1 hbinding).segment.1
    have hv : ∀ p ∈ some (v, binding.toList), p.1.Fits p.2 ∧ Writable p.2 := by
      rintro p ⟨⟩
      exact ⟨hfits', .of_binding hbinding⟩
    have hresolve := Resolver.resolve_writtenLoop blanks hd.1 hfits hv
    rw [Option.map_some, String.ofList_toList, Handler.bindingOf_some hne] at hresolve
    exact hresolve
  | @test path i blanks hfits hblanks =>
    -- A path does not start like an inverted test.
    have hbang : '!' ∉ path.toList := (Path.check_eq_ok_iff.1 hd).isPlain.not_mem rfl (by decide)
    have hhead : path.toList.head? ≠ some '!' := fun h => hbang (List.mem_of_mem_head? h)
    have hresolve := Resolver.resolve_writtenTest blanks hfits (.of_path hd)
    rw [String.ofList_toList, Handler.testPart_of_head hhead] at hresolve
    exact hresolve
  | @invertedTest path gap i blanks hgap hfits hblanks =>
    -- The blanks behind the sign do not belong to the path.
    have hstrip : strip (gap ++ path.toList) = path.toList := by
      have hsurrounded := strip_surrounded (fun c hc => (hgap c hc).1)
        (fun _ h => absurd h List.not_mem_nil) path.toList
      rwa [List.append_nil, (Writable.of_path hd).stripped] at hsurrounded
    have hresolve := Resolver.resolve_writtenTest blanks hfits (.of_inverted hd hgap)
    rw [Handler.testPart_inverted, hstrip, String.ofList_toList] at hresolve
    exact hresolve
  | otherwise hblanks => exact Resolver.resolve_builtin "else" String.ofList_toList rfl
  | closeLoop hblanks => exact Resolver.resolve_builtin "loop" String.ofList_toList rfl
  | closeTest hblanks => exact Resolver.resolve_builtin "if" String.ofList_toList rfl

end BlockDirective.Spells

end HtmlTemplate
