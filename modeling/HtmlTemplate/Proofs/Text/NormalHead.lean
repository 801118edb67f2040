import HtmlTemplate.Text.Identifier
import HtmlTemplate.Text.Normal.Name

/-!
# NormalHead — how the normal spelling of a name starts

Some characters stand for the underscore, but none of them may start an identifier.  So an
identifier whose normal spelling starts with an underscore starts with one itself
(`head_normalName`): no spelling of another name is the variable of a loop.
-/

namespace HtmlTemplate
namespace Text

/-- The code point of the underscore. -/
def underscore : Nat := 0x5f

/-- The characters that stand for the underscore, itself among them. -/
def underscoreForms : List Nat := [0x5f, 0xfe33, 0xfe34, 0xfe4d, 0xfe4e, 0xfe4f, 0xff3f]

/-! ## What the tables hold -/

/-- The tables lead to the underscore from its own forms only, and none of these starts an
identifier. -/
theorem tables_underscore :
    ((∀ p ∈ ideographs.toList, p ≠ underscore) ∧ ∀ p ∈ moreIdeographs.toList, p ≠ underscore) ∧
    (∀ r ∈ plainRuns.toList, r.2.2 ≤ underscore →
      underscore ≤ r.2.2 + (r.2.1 - r.1) → r.1 + (underscore - r.2.2) ∈ underscoreForms) ∧
    (∀ t ∈ plainTexts.toList, t.2.head? ≠ some underscore ∧ t.2 ≠ []) ∧
    (∀ c ∈ composites.toList, c.2.1 ∉ underscoreForms ∧ c.1 ≠ underscore) ∧
    ∀ code ∈ underscoreForms, code = underscore ∨
      (0x80 ≤ code ∧ identifierStartRanges.toList.any
        (fun range => range.1 ≤ code && code ≤ range.2) = false) := by
  decide +kernel

theorem plainRuns_underscore : ∀ r ∈ plainRuns.toList, r.2.2 ≤ underscore →
    underscore ≤ r.2.2 + (r.2.1 - r.1) → r.1 + (underscore - r.2.2) ∈ underscoreForms :=
  tables_underscore.2.1

theorem plainTexts_head : ∀ t ∈ plainTexts.toList, t.2.head? ≠ some underscore ∧ t.2 ≠ [] :=
  tables_underscore.2.2.1

theorem composites_underscore : ∀ c ∈ composites.toList,
    c.2.1 ∉ underscoreForms ∧ c.1 ≠ underscore :=
  tables_underscore.2.2.2.1

theorem underscoreForms_start : ∀ code ∈ underscoreForms, code = underscore ∨
    (0x80 ≤ code ∧ identifierStartRanges.toList.any
      (fun range => range.1 ≤ code && code ≤ range.2) = false) :=
  tables_underscore.2.2.2.2

/-! ## Decomposing -/

theorem plainIdeograph_ne_underscore {code plain : Nat} (h : plainIdeograph? code = some plain) :
    plain ≠ underscore := by
  obtain ⟨hfirst, hmore⟩ := tables_underscore.1
  unfold plainIdeograph? at h
  split at h
  · cases h
  · split at h
    · rename_i hp
      cases h
      exact hfirst plain (Array.mem_toList_iff.2 (Array.mem_of_getElem? hp))
    · split at h
      · cases h
      · exact hmore plain (Array.mem_toList_iff.2 (Array.mem_of_getElem? h))

theorem plain_ne_nil (code : Nat) : plain code ≠ [] := by
  unfold plain
  split
  · exact List.cons_ne_nil _ _
  · split
    · exact List.cons_ne_nil _ _
    · split
      · rename_i t ht
        exact (plainTexts_head t (Array.mem_toList_iff.2 (Array.mem_of_find?_eq_some ht))).2
      · exact List.cons_ne_nil _ _

theorem head_plain {code : Nat} (h : (plain code).head? = some underscore) :
    code ∈ underscoreForms := by
  unfold plain at h
  split at h
  · rename_i hp
    exact absurd (Option.some.inj h) (plainIdeograph_ne_underscore hp)
  · split at h
    · rename_i r hr
      have hmem := Array.mem_toList_iff.2 (Array.mem_of_find?_eq_some hr)
      have hin : r.1 ≤ code ∧ code ≤ r.2.1 := by simpa using Array.find?_some hr
      -- The run holds the underscore at one place, which the table settles.
      have hsum : r.2.2 + (code - r.1) = underscore := Option.some.inj h
      have hcode : code = r.1 + (underscore - r.2.2) := by omega
      rw [hcode]
      exact plainRuns_underscore r hmem (by omega) (by omega)
    · split at h
      · rename_i t ht
        exact absurd h (plainTexts_head t (Array.mem_toList_iff.2 (Array.mem_of_find?_eq_some ht))).1
      · obtain rfl := Option.some.inj h
        decide

-- Without the seal, checking the equation goes through the whole table.
seal composites in
theorem decomposeUpTo_succ (depth code : Nat) :
    decomposeUpTo (depth + 1) code =
      match composites.find? fun c => c.1 = code with
      | some c => decomposeUpTo depth c.2.1 ++ [c.2.2]
      | none => plain code := rfl

theorem decomposeUpTo_ne_nil (depth code : Nat) : decomposeUpTo depth code ≠ [] := by
  cases depth with
  | zero => exact plain_ne_nil code
  | succ depth =>
    rw [decomposeUpTo_succ]
    split
    · exact List.append_ne_nil_of_right_ne_nil _ (List.cons_ne_nil _ _)
    · exact plain_ne_nil code

theorem head_decomposeUpTo (depth : Nat) {code : Nat}
    (h : (decomposeUpTo depth code).head? = some underscore) : code ∈ underscoreForms := by
  induction depth generalizing code with
  | zero => exact head_plain h
  | succ depth ih =>
    rw [decomposeUpTo_succ] at h
    split at h
    · rename_i c hc
      have hmem := Array.mem_toList_iff.2 (Array.mem_of_find?_eq_some hc)
      -- A composite starts with what its first part starts with.
      cases hd : decomposeUpTo depth c.2.1 with
      | nil => exact absurd hd (decomposeUpTo_ne_nil depth c.2.1)
      | cons d ds =>
        rw [hd] at h
        exact absurd (ih (hd ▸ h)) (composites_underscore c hmem).1
    · exact head_plain h

theorem syllableParts?_head {code : Nat} {parts : List Nat}
    (h : syllableParts? code = some parts) : ∃ n, parts.head? = some (leadingPart + n) := by
  dsimp only [syllableParts?] at h
  split at h
  · cases h
  · cases h
    exact ⟨_, rfl⟩

theorem decompose_ne_nil (code : Nat) : decompose code ≠ [] := by
  unfold decompose
  split
  · exact List.cons_ne_nil _ _
  · split
    · rename_i parts hp
      obtain ⟨n, hn⟩ := syllableParts?_head hp
      rintro rfl
      cases hn
    · exact decomposeUpTo_ne_nil _ code

theorem head_decompose {code : Nat} (h : (decompose code).head? = some underscore) :
    code ∈ underscoreForms := by
  unfold decompose at h
  split at h
  · obtain rfl := Option.some.inj h
    decide
  · split at h
    · rename_i parts hp
      obtain ⟨n, hn⟩ := syllableParts?_head hp
      have hsum : leadingPart + n = underscore := Option.some.inj (hn.symm.trans h)
      simp only [leadingPart, underscore] at hsum
      omega
    · exact head_decomposeUpTo _ h

/-! ## Sorting and composing -/

theorem markClass_underscore : markClass underscore = 0 := by decide

theorem head_insertMark {code : Nat} {codes : List Nat} (hc : code ≠ underscore) :
    (insertMark code codes).head? ≠ some underscore := by
  intro h
  cases codes with
  | nil => exact hc (Option.some.inj h)
  | cons c cs =>
    unfold insertMark at h
    split at h
    · rename_i hmark
      obtain rfl := Option.some.inj h
      rw [markClass_underscore] at hmark
      cases hmark
    · exact hc (Option.some.inj h)

theorem head_sortMarks {code : Nat} {codes : List Nat} (hc : code ≠ underscore) :
    (sortMarks (code :: codes)).head? ≠ some underscore := head_insertMark hc

theorem firstSyllable_le {first second code : Nat} (h : syllable? first second = some code) :
    firstSyllable ≤ code := by
  unfold syllable? at h
  split at h
  · obtain rfl := Option.some.inj h
    omega
  · split at h
    · rename_i hr
      simp only [Bool.and_eq_true, decide_eq_true_eq] at hr
      obtain rfl := Option.some.inj h
      omega
    · cases h

theorem compose_ne_underscore {first second code : Nat} (h : compose? first second = some code) :
    code ≠ underscore := by
  unfold compose? at h
  split at h
  · rename_i hs
    obtain rfl := Option.some.inj h
    have hle := firstSyllable_le hs
    simp only [firstSyllable, underscore] at hle ⊢
    omega
  · obtain ⟨c, hc, rfl⟩ := Option.map_eq_some_iff.1 h
    exact (composites_underscore c (Array.mem_toList_iff.2 (Array.mem_of_find?_eq_some hc))).2

theorem head_composeCluster (codes : List Nat) : ∀ {start : Nat} {marks : List Nat},
    start ≠ underscore → (composeCluster start marks codes).head? ≠ some underscore := by
  induction codes with
  | nil =>
    intro start marks hs h
    exact hs (Option.some.inj h)
  | cons c cs ih =>
    intro start marks hs
    unfold composeCluster
    split
    · rename_i composite hcomposite
      refine ih ?_
      split at hcomposite
      · cases hcomposite
      · exact compose_ne_underscore hcomposite
    · split
      · intro h
        exact hs (Option.some.inj h)
      · exact ih hs

theorem head_composeAll {codes : List Nat} (h : codes.head? ≠ some underscore) :
    (composeAll codes).head? ≠ some underscore := by
  cases codes with
  | nil => exact h
  | cons c cs =>
    have hc : c ≠ underscore := fun he => h (congrArg some he)
    unfold composeAll
    split
    · exact head_composeCluster cs hc
    · exact h

theorem head_normalCodes {code : Nat} (codes : List Nat) (h : code ∉ underscoreForms) :
    (normalCodes (code :: codes)).head? ≠ some underscore := by
  unfold normalCodes
  refine head_composeAll ?_
  cases hd : decompose code with
  | nil => exact absurd hd (decompose_ne_nil code)
  | cons d ds =>
    rw [List.flatMap_cons, hd, List.cons_append]
    -- Sorting leaves a start where it is, since only marks move in front.
    refine head_sortMarks fun he => h (head_decompose ?_)
    rw [hd, he]
    rfl

/-! ## Names -/

theorem startsIdentifier_form {c : Char} (h : startsIdentifier c = true) (hc : c ≠ '_') :
    c.toNat ∉ underscoreForms := by
  intro hmem
  rcases underscoreForms_start c.toNat hmem with hu | ⟨hge, hout⟩
  · exact hc (Char.toNat_inj.1 hu)
  · unfold startsIdentifier inRanges at h
    rw [if_neg (Nat.not_lt.2 hge), ← Array.any_toList, hout] at h
    cases h

theorem ofNat_ne_underscore {code : Nat} (h : code ≠ underscore) : Char.ofNat code ≠ '_' := by
  intro he
  have hto : (Char.ofNat code).toNat = underscore := congrArg Char.toNat he
  by_cases hvalid : code.isValidChar
  · have hcode : Char.ofNat code = Char.ofNatAux code hvalid := dif_pos hvalid
    exact h ((congrArg Char.toNat hcode).symm.trans hto)
  · have hcode : Char.ofNat code = '\x00' := dif_neg hvalid
    cases (congrArg Char.toNat hcode).symm.trans hto

/-- The normal spelling of an identifier starts with an underscore only if the identifier does. -/
theorem head_normalName {name : String} (hi : isIdentifier name = true)
    (hn : name.toList.head? ≠ some '_') : (normalName name).toList.head? ≠ some '_' := by
  unfold normalName
  split
  · exact hn
  · rw [String.toList_ofList]
    unfold isIdentifier at hi
    cases hcs : name.toList with
    | nil => rw [hcs] at hi; cases hi
    | cons c cs =>
      rw [hcs] at hi hn
      have hc : c ≠ '_' := fun he => hn (congrArg some he)
      have hstart : startsIdentifier c = true := by
        simp only [isIdentifierText, Bool.and_eq_true] at hi
        exact hi.1
      have hhead := head_normalCodes (cs.map Char.toNat) (startsIdentifier_form hstart hc)
      intro h
      rw [List.head?_map, List.map_cons, Option.map_eq_some_iff] at h
      obtain ⟨code, hcode, he⟩ := h
      refine ofNat_ne_underscore (fun hu => hhead ?_) he
      rw [hcode, hu]

end Text
end HtmlTemplate
