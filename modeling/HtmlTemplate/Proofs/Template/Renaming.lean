import HtmlTemplate.Proofs.Template.Inversion
import HtmlTemplate.Proofs.Template.Place

/-!
# Renaming — names make no difference

What the context is called makes no difference to a compiled template, and neither does what the
element of a loop is called (`Compiled.equivalent_of_names`).  A loop is given another binding, and
every path of its body that starts with the old one starts with the new one, as long as the new one
is not in use there.
-/

namespace HtmlTemplate

open Text

/-- The map that renames one name. -/
def renamed (b b' : String) : String → String := Function.update id b b'

namespace Template

/-- Whether no path of a template starts with a name, and no loop binds it. -/
structure Avoids (name : String) (t : Template) : Prop where
  paths : ∀ p ∈ t.parts, ∀ path ∈ p.paths, Path.head path ≠ name
  bindings : ¬ t.Binds name

/-- Whether a template that starts with a loop becomes another by renaming the loop's binding,
together with the paths of the loop's body that refer to it. -/
inductive Renames (b b' : String) : Template → Template → Prop
  | loop (path : String) {body : Template} (continuation : Continuation) : body.Avoids b' →
      Renames b b' (continuation.block (.loop path b) body)
        (continuation.block (.loop path b') (body.substitute (renamed b b')))

end Template

namespace Compiled

/-- Whether nobody can tell two compiled templates apart. -/
structure Equivalent (c d : Compiled) : Prop where
  typeText : c.typeText = d.typeText
  anyRequired : c.anyRequired = d.anyRequired
  render : ∀ context, c.render context = d.render context

end Compiled

/-! ## Renaming -/

section Renaming

variable {b b' : String}

/-- Heads of paths, the new name apart. -/
def OtherHead (b' name : String) : Prop := Path.head name = name ∧ name ≠ b'

theorem Template.Avoids.substitutable {body : Template} (h : body.Avoids b')
    (hb' : Path.Segment b') : body.Substitutable (OtherHead b') (renamed b b') where
  paths := fun p hp path hpath => ⟨Path.head_head path, h.paths p hp path hpath⟩
  bindings := by
    intro binding hbinding name hname hne
    by_cases he : name = b
    · subst he
      rw [renamed, Function.update_self, Path.head_of_segment hb']
      rintro rfl
      exact h.bindings hbinding
    · rw [renamed, Function.update_of_ne he, id, hname.1]
      exact hne

theorem renamed_of_ne {name : String} (h : name ≠ b) : renamed b b' name = name := by
  rw [renamed, Function.update_of_ne h, id]

theorem segments_renamed (hb' : Path.Segment b') {path : String} (h : Path.head path = b) :
    Path.segments (Path.substitute (renamed b b') path) = b' :: (Path.segments path).tail := by
  rw [Path.segments_substitute, h, renamed, Function.update_self, Path.segments_of_segment hb']
  rfl

/-- Under the new binding renamed paths read what they read under the old one. -/
theorem transfers_renamed {contextName : String} {context : Value}
    (hn : Generator.checkContextName contextName = .ok ()) (hb' : Path.Segment b')
    (bindings : Bindings) (v : Value) :
    Transfers contextName context (OtherHead b') (renamed b b') ((b, v) :: bindings)
      ((b', v) :: bindings) := by
  rintro path ⟨-, hne'⟩
  by_cases he : Path.head path = b
  · have hsegments := Path.segments_eq path
    rw [he] at hsegments
    exact same_pathCode_of_binding hn hsegments (segments_renamed hb' he) List.lookup_cons_self
      List.lookup_cons_self
  · rw [Path.substitute_of_eq (renamed_of_ne he)]
    exact (same_pathCode_cons hn he v).trans (same_pathCode_cons hn hne' v).symm

theorem resolves_renamed (hb' : Path.Segment b') (blocks : Blocks) (a : Address) :
    Resolves (OtherHead b') (renamed b b') (some (b, a) :: blocks) (some (b', a) :: blocks) := by
  rintro path ⟨-, hne'⟩ required iterated
  by_cases he : Path.head path = b
  · have haddress : Blocks.addressOf b' (some (b', a) :: blocks) = some a := if_pos rfl
    rw [Reference.ofPath_cons_self a required iterated he,
      Reference.ofPath_of_some required iterated (segments_renamed hb' he) haddress]
  · rw [Path.substitute_of_eq (renamed_of_ne he),
      Reference.ofPath_cons_of_ne a required iterated he,
      Reference.ofPath_cons_of_ne a required iterated hne']

namespace Template.Renames

variable {t u : Template}

theorem sound (h : Renames b b' t u) (hb' : Path.isName b'.toList = true) (ht : t.Sound) :
    u.Sound := by
  have hhead : ∀ path, (Head.loop path b').Sound :=
    fun _ => ⟨hb', Binding.isIdentifier_variableOf hb'⟩
  obtain ⟨path, continuation, -⟩ := h
  cases continuation with
  | closed rest =>
    obtain ⟨-, hbody, hrest⟩ := ht
    exact ⟨hhead path, hbody.substitute, hrest⟩
  | alternative other rest =>
    obtain ⟨-, hbody, hother, hrest⟩ := ht
    exact ⟨hhead path, hbody.substitute, hother, hrest⟩

theorem admittedAt {contextName : String} (h : Renames b b' t u)
    (hb' : Binding.WellSpelled contextName b') {depth : Nat} (ht : t.AdmittedAt contextName depth) :
    u.AdmittedAt contextName depth := by
  have hpath : Path.WellSpelled b' := Path.wellSpelled_of_segment hb'.segment hb'.start
  have hrenamed : ∀ name, Path.WellSpelled name → Path.WellSpelled (renamed b b' name) := by
    intro name hname
    by_cases he : name = b
    · subst he
      rwa [renamed, Function.update_self]
    · rwa [renamed_of_ne he]
  have hhead : ∀ path, (Head.loop path b).part.Spelled contextName →
      (Head.loop path b').part.Spelled contextName := by
    intro path hspelled
    refine ⟨hspelled.paths, ?_⟩
    rintro _ _ ⟨⟩
    exact hb'
  obtain ⟨path, continuation, -⟩ := h
  cases continuation with
  | closed rest =>
    obtain ⟨⟨hspelled, hdepth⟩, hbody, hrest⟩ := ht
    exact ⟨⟨hhead path hspelled, hdepth⟩, hbody.substitute hrenamed, hrest⟩
  | alternative other rest =>
    obtain ⟨⟨hspelled, hdepth⟩, hbody, hother, hrest⟩ := ht
    exact ⟨⟨hhead path hspelled, hdepth⟩, hbody.substitute hrenamed, hother, hrest⟩

/-- Any other binding is in use as before. -/
theorem binds_iff (h : Renames b b' t u) {binding : String} (hb : b ≠ binding)
    (hb' : b' ≠ binding) : t.Binds binding ↔ u.Binds binding := by
  have hhead : ∀ path, (Head.loop path b).Binds binding ↔ (Head.loop path b').Binds binding := by
    intro path
    simp [Head.Binds, Head.part, hb, hb']
  obtain ⟨path, continuation, -⟩ := h
  cases continuation with
  | closed rest => simp only [Continuation.block, binds_block, binds_substitute, hhead]
  | alternative other rest => simp only [Continuation.block, binds_choice, binds_substitute, hhead]

theorem references_eq (h : Renames b b' t u) (hb' : Path.Segment b') (ht : t.Sound)
    (blocks : Blocks) : t.references blocks = u.references blocks := by
  have hbody : ∀ {path : String} {body : Template}, body.Sound → body.Avoids b' →
      (body.substitute (renamed b b')).references ((Head.loop path b').blocks blocks) =
        body.references ((Head.loop path b).blocks blocks) := by
    intro path body hsound ha
    exact body.references_substitute hsound (ha.substitutable hb')
      (resolves_renamed hb' blocks _)
  obtain ⟨path, continuation, ha⟩ := h
  cases continuation with
  | closed rest =>
    simp only [Continuation.block, references, hbody ht.2.1 ha]
    rfl
  | alternative other rest =>
    simp only [Continuation.block, references, hbody ht.2.1 ha]
    rfl

/-- A loop does the same under its new binding. -/
theorem sameAll {contextName : String} {context : Value}
    (hn : Generator.checkContextName contextName = .ok ()) (h : Renames b b' t u)
    (hb' : Path.Segment b') (ht : t.Sound) (bindings : Bindings) :
    SameAll contextName context bindings bindings
      (t.code (normalName contextName) (bindings.map (·.1)))
      (u.code (normalName contextName) (bindings.map (·.1))) := by
  have hbody : ∀ {body : Template}, body.Sound → body.Avoids b' → ∀ v,
      SameAll contextName context ((b, v) :: bindings) ((b', v) :: bindings)
        (body.code (normalName contextName) (b :: bindings.map (·.1)))
        ((body.substitute (renamed b b')).code (normalName contextName)
          (b' :: bindings.map (·.1))) := by
    intro body hsound ha v
    exact body.sameAll_substitute hn hsound (ha.substitutable hb')
      (transfers_renamed hn hb' bindings v)
  -- What stands behind the body is the same on both sides.
  obtain ⟨path, continuation, ha⟩ := h
  cases continuation with
  | closed rest => exact .cons (same_loop rfl (hbody ht.2.1 ha) .nil) rfl
  | alternative other rest => exact .cons (same_loop rfl (hbody ht.2.1 ha) rfl) rfl

end Template.Renames

end Renaming

/-! ## The context's name -/

/-- What is spelled like a part is so for a context of any other name that no loop binds. -/
theorem Part.Spelled.of_other {name other : String} {p : Part} (h : p.Spelled name)
    (hother : ∀ path binding, p = .loop path binding → binding ≠ other) : p.Spelled other :=
  ⟨h.paths, fun path binding hp =>
    ⟨(h.binding path binding hp).segment, (h.binding path binding hp).start,
      hother path binding hp⟩⟩

theorem Template.AdmittedAt.of_other {name other : String} {t : Template} :
    ∀ {depth : Nat}, t.AdmittedAt name depth → (∀ binding, t.Binds binding → binding ≠ other) →
      t.AdmittedAt other depth := by
  have hinsertion : ∀ {insertion : Insertion}, insertion.part.Spelled name →
      insertion.part.Spelled other := fun {insertion} h =>
    h.of_other fun path binding hp => absurd hp (insertion.part_ne_loop path binding)
  have hhead : ∀ {head : Head}, head.part.Spelled name →
      (∀ binding, head.Binds binding → binding ≠ other) → head.part.Spelled other :=
    fun h hbinds => h.of_other fun path binding hp => hbinds binding ⟨path, hp⟩
  induction t with
  | done =>
    intro depth _ _
    trivial
  | insert insertion rest ih =>
    rintro depth ⟨hfirst, hrest⟩ hbinds
    exact ⟨hinsertion hfirst, ih hrest fun b hb => hbinds b (binds_insert.2 hb)⟩
  | block head body rest ihbody ihrest =>
    rintro depth ⟨⟨hspelled, hdepth⟩, hbody, hrest⟩ hbinds
    exact ⟨⟨hhead hspelled fun b hb => hbinds b (binds_block.2 (.inl hb)), hdepth⟩,
      ihbody hbody fun b hb => hbinds b (binds_block.2 (.inr (.inl hb))),
      ihrest hrest fun b hb => hbinds b (binds_block.2 (.inr (.inr hb)))⟩
  | choice head body second rest ihbody ihsecond ihrest =>
    rintro depth ⟨⟨hspelled, hdepth⟩, hbody, hsecond, hrest⟩ hbinds
    exact ⟨⟨hhead hspelled fun b hb => hbinds b (binds_choice.2 (.inl hb)), hdepth⟩,
      ihbody hbody fun b hb => hbinds b (binds_choice.2 (.inr (.inl hb))),
      ihsecond hsecond fun b hb => hbinds b (binds_choice.2 (.inr (.inr (.inl hb)))),
      ihrest hrest fun b hb => hbinds b (binds_choice.2 (.inr (.inr (.inr hb))))⟩

/-- A name that is its own normal spelling hides no helper. -/
theorem Generator.normalName_ne_helper {name : String} (hn : checkContextName name = .ok ())
    (hascii : name.toList.all (·.toNat < 0x80) = true) (h : Helper) : normalName name ≠ h.name := by
  obtain ⟨-, -, hhelper⟩ := checkContextName_ok hn
  rw [normalName_ascii hascii]
  rintro rfl
  rw [h.ofName?_name] at hhelper
  cases hhelper

/-! ## What is compiled -/

namespace Compiled

variable {name : String} {t u : Template} {c d : Compiled}

/-- The type is told by what is read. -/
theorem typeText_eq_of_references {other : String} (hc : ofParts name t.parts = .ok c)
    (hd : ofParts other u.parts = .ok d) (h : t.references [] = u.references []) :
    c.typeText = d.typeText ∧ c.anyRequired = d.anyRequired := by
  obtain ⟨s, hs, hsclosed, hctype, -⟩ := exists_scope hc
  obtain ⟨s', hs', hsclosed', hdtype, -⟩ := exists_scope hd
  constructor
  · rw [hctype, hdtype, hs.typeText_eq hsclosed, hs'.typeText_eq hsclosed', h]
  · rw [Bool.eq_iff_iff, anyRequired_iff hc, anyRequired_iff hd, h]

/-- The context may have any other name that is accepted and hides no helper. -/
theorem equivalent_of_name {other : String} (hc : ofParts name t.parts = .ok c)
    (hd : ofParts other t.parts = .ok d) (hname : name.toList.all (·.toNat < 0x80) = true)
    (hother : other.toList.all (·.toNat < 0x80) = true) : c.Equivalent d := by
  obtain ⟨hn, -⟩ := ofParts_ok hc
  obtain ⟨hn', -⟩ := ofParts_ok hd
  obtain ⟨t', ht, hsound, -⟩ := exists_template hc
  obtain rfl : t = t' := Template.eq_of_ofParts? ht
  obtain ⟨htype, hrequired⟩ := typeText_eq_of_references hc hd rfl
  refine ⟨htype, hrequired, fun context => render_eq_of_code hc hd Iff.rfl ?_⟩
  -- What the template means has no name in it.
  rw [Template.render_code hn (fun h _ => Generator.normalName_ne_helper hn hname h) hsound,
    Template.render_code hn' (fun h _ => Generator.normalName_ne_helper hn' hother h) hsound]

/-- Parts that are compiled for some name of the context are so for any other that is accepted and
bound by no loop. -/
theorem exists_of_name {other : String} (hc : ofParts name t.parts = .ok c)
    (hn : Generator.checkContextName other = .ok ())
    (hloops : ∀ binding, t.Binds binding → binding ≠ other) :
    ∃ d, ofParts other t.parts = .ok d := by
  obtain ⟨-, hbuilt, hadmitted⟩ := (exists_iff t).1 ⟨c, hc⟩
  exact (exists_iff t).2 ⟨hn, hbuilt, hadmitted.of_other hloops⟩

/-- A loop may have any other binding that is accepted and not in use in its body. -/
theorem exists_equivalent_of_renames {b b' : String} (hc : ofParts name t.parts = .ok c)
    (h : Template.Rewrites (fun _ => Template.Renames b b') [] t u)
    (hcheck : (Binding.check name b').isOk = true) (hb : b ≠ Binding.unbindable)
    (hb' : b' ≠ Binding.unbindable) : ∃ d, ofParts name u.parts = .ok d ∧ c.Equivalent d := by
  have hspelled := Binding.isOk_check_iff.1 hcheck
  have hisName := Binding.isName_iff.2 ⟨hspelled.segment, hspelled.start⟩
  obtain ⟨hn, hsound, -, d, hd⟩ := exists_of_rewrites hc h (fun _ _ _ hr => hr.sound hisName)
    fun _ _ _ hr _ => hr.admittedAt hspelled
  have h' := h.and_sound hsound
  have hreferences := h'.references_eq
    (fun _ _ _ hr => hr.1.references_eq hspelled.segment hr.2) []
  obtain ⟨htype, hrequired⟩ := typeText_eq_of_references hc hd hreferences
  refine ⟨d, hd, htype, hrequired, fun context => ?_⟩
  have hloops : t.Binds Binding.unbindable ↔ u.Binds Binding.unbindable :=
    h.binds_iff fun _ _ _ hr => hr.binds_iff hb hb'
  have hsame : SameAll name context [] [] (t.code (normalName name) [])
      (u.code (normalName name) []) := by
    refine h'.sameAll (fun live t u hr bindings hlive => ?_) [] rfl
    rw [← hlive]
    exact hr.1.sameAll hn hspelled.segment hr.2 bindings
  exact render_eq_of_code hc hd hloops (Expr.render_congr (same_joined hsame))

/-- Names make no difference.  What is compiled may be compiled for a context of any ASCII name that
is accepted and bound by no loop, and nobody can tell by which one.  Every loop among the parts has
a body that reaches up to its else or its end.  The loop may be given any other binding that is
accepted and not in use in the body, if the paths there are renamed with it. -/
theorem equivalent_of_names {ps : List Part} (hc : ofParts name ps = .ok c) :
    (∀ first second : String,
      first.toList.all (·.toNat < 0x80) = true → second.toList.all (·.toNat < 0x80) = true →
      Generator.checkContextName first = .ok () → Generator.checkContextName second = .ok () →
      (∀ path binding, Part.loop path binding ∈ ps → binding ≠ first ∧ binding ≠ second) →
      ∃ d e, ofParts first ps = .ok d ∧ ofParts second ps = .ok e ∧ d.Equivalent e) ∧
    ∀ before path b after, ps = before ++ .loop path b :: after →
      ∃ (body : Template) (rest : List Part), after = body.parts ++ rest ∧
        (rest.head? = some .close ∨ rest.head? = some .otherwise) ∧
        ∀ b', (Binding.check name b').isOk = true → body.Avoids b' →
          b ≠ Binding.unbindable → b' ≠ Binding.unbindable →
          ∃ d, ofParts name (before ++ .loop path b' ::
              ((body.substitute (renamed b b')).parts ++ rest)) = .ok d ∧ c.Equivalent d := by
  obtain ⟨t, ht, -⟩ := exists_template hc
  obtain rfl : t.parts = ps := Template.ofParts?_eq_some_iff.1 ht
  constructor
  · intro first second hfirst hsecond hn hn' hloops
    obtain ⟨d, hd⟩ := exists_of_name hc hn fun b ⟨path, hb⟩ => (hloops path b hb).1
    obtain ⟨e, he⟩ := exists_of_name hc hn' fun b ⟨path, hb⟩ => (hloops path b hb).2
    exact ⟨d, e, hd, he, equivalent_of_name hd he hfirst hsecond⟩
  · intro before path b after hps
    obtain ⟨body, continuation, behind, rfl, hplace⟩ :=
      t.exists_placeAt (.loop path b) [] hps
    refine ⟨body, continuation.parts ++ behind, List.append_assoc _ _ _, ?_, ?_⟩
    · cases continuation with
      | closed rest => exact Or.inl rfl
      | alternative other rest => exact Or.inr rfl
    · intro b' hcheck ha hb hb'
      obtain ⟨u, hu, hparts⟩ := hplace (fun _ => Template.Renames b b') _
        (.loop path continuation ha)
      have hequivalent := exists_equivalent_of_renames hc hu hcheck hb hb'
      rw [hparts, Template.Continuation.parts_block] at hequivalent
      simp only [List.append_assoc, List.cons_append] at hequivalent
      exact hequivalent

/-- The element of a loop is called otherwise, or the context is. -/
theorem equivalent_of_names_loop :
    (∃ d e, ofParts "context" [.loop "xs" "x", .body "x.a", .close] = .ok d ∧
      ofParts "page" [.loop "xs" "x", .body "x.a", .close] = .ok e ∧ d.Equivalent e) ∧
    ∃ c d, ofParts "context" [.loop "xs" "x", .body "x.a", .close] = .ok c ∧
      ofParts "context" [.loop "xs" "y", .body "y.a", .close] = .ok d ∧ c.Equivalent d := by
  obtain ⟨c, hc⟩ : ∃ c, ofParts "context" [.loop "xs" "x", .body "x.a", .close] = .ok c :=
    ⟨_, rfl⟩
  obtain ⟨hnames, hloops⟩ := equivalent_of_names hc
  constructor
  · exact hnames "context" "page" (by decide) (by decide) rfl rfl (by simp)
  · obtain ⟨body, rest, hafter, hend, hrenamed⟩ := hloops [] "xs" "x" _ rfl
    -- The body ends where the block does.
    have hbody : body.parts = [.body "x.a"] ∧ rest = [.close] := by
      cases hp : body.parts with
      | nil =>
        rw [hp, List.nil_append] at hafter
        subst hafter
        rcases hend with hend | hend <;> cases hend
      | cons p ps =>
        rw [hp, List.cons_append] at hafter
        obtain ⟨rfl, hmore⟩ := List.cons.inj hafter
        cases ps with
        | nil => exact ⟨rfl, hmore.symm⟩
        | cons q qs =>
          obtain ⟨-, hnil⟩ := List.cons.inj hmore
          obtain ⟨-, rfl⟩ := List.append_eq_nil_iff.1 hnil.symm
          rcases hend with hend | hend <;> cases hend
    obtain ⟨hparts, rfl⟩ := hbody
    obtain rfl : .insert (.body "x.a") .done = body :=
      Template.eq_of_ofParts? (Template.ofParts?_eq_some_iff.2 hparts)
    obtain ⟨d, hd, hequivalent⟩ := hrenamed "y" rfl ⟨by decide, by simp [Template.Binds, hparts]⟩
      (by decide) (by decide)
    exact ⟨c, d, hc, hd, hequivalent⟩

end Compiled

end HtmlTemplate
