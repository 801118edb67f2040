import HtmlTemplate.Proofs.Text.NormalHead

/-!
# Wide — other spellings of a name in ASCII

Every small letter has a form of full width that identifiers may hold, and that its plain form is
the normal one of.  So a name with small letters in it has a second spelling
(`isIdentifier_widen`, `normalName_widen`).
-/

namespace HtmlTemplate
namespace Text

/-- How far the letters of full width are behind the plain ones. -/
def wideOffset : Nat := 0xfee0

/-- The form of full width of a small letter. -/
def wide (c : Char) : Char :=
  if 0x61 ≤ c.toNat ∧ c.toNat ≤ 0x7a then Char.ofNat (c.toNat + wideOffset) else c

/-- A name with its small letters in full width. -/
def widen (name : String) : String := String.ofList (name.toList.map wide)

theorem toNat_wide {c : Char} (h : 0x61 ≤ c.toNat ∧ c.toNat ≤ 0x7a) :
    (wide c).toNat = c.toNat + wideOffset := by
  have hvalid : (c.toNat + wideOffset).isValidChar := by
    unfold Nat.isValidChar wideOffset
    omega
  rw [wide, if_pos h, Char.ofNat, dif_pos hvalid]
  rfl

/-! ## What the tables hold -/

/-- The letters of full width are in one run, are no composites, and start identifiers; and a
character of ASCII is behind no composite. -/
theorem tables_wide :
    ((0xff41, 0xff5a, 0x61) ∈ plainRuns.toList ∧ ∀ r ∈ plainRuns.toList,
      r = (0xff41, 0xff5a, 0x61) ∨ r.2.1 < 0xff41 ∨ 0xff5a < r.1) ∧
    (∀ c ∈ composites.toList, (c.1 < 0xff41 ∨ 0xff5a < c.1) ∧ 0x80 ≤ c.2.2) ∧
    ideographs.size ≤ 0xff41 - firstIdeograph ∧
    ∃ range ∈ identifierStartRanges.toList, range.1 ≤ 0xff41 ∧ 0xff5a ≤ range.2 := by
  decide +kernel

/-! ## Decomposing -/

theorem find?_plainRuns_wide {n : Nat} (h : n < 26) :
    (plainRuns.find? fun r => r.1 ≤ 0xff41 + n && 0xff41 + n ≤ r.2.1) =
      some (0xff41, 0xff5a, 0x61) := by
  cases hf : plainRuns.find? fun r => r.1 ≤ 0xff41 + n && 0xff41 + n ≤ r.2.1 with
  | none =>
    have hout := Array.find?_eq_none.1 hf _ (Array.mem_toList_iff.1 tables_wide.1.1)
    simp at hout
    omega
  | some r =>
    have hin : r.1 ≤ 0xff41 + n ∧ 0xff41 + n ≤ r.2.1 := by simpa using Array.find?_some hf
    have hmem := Array.mem_toList_iff.2 (Array.mem_of_find?_eq_some hf)
    rcases tables_wide.1.2 r hmem with hr | hr
    · rw [hr]
    · omega

theorem plainIdeograph?_wide {n : Nat} (h : n < 26) : plainIdeograph? (0xff41 + n) = none := by
  have hsize : ideographs.size ≤ 0xff41 - firstIdeograph := tables_wide.2.2.1
  have hnone : ideographs[0xff41 + n - firstIdeograph]? = none := by
    refine Array.getElem?_eq_none (Nat.le_trans hsize (Nat.sub_le_sub_right ?_ _))
    omega
  unfold plainIdeograph?
  rw [hnone]
  unfold firstIdeograph firstMoreIdeograph
  rw [if_neg (by omega), if_pos (by omega)]

/-- A letter of full width stands for the plain one. -/
theorem decompose_wide {n : Nat} (h : n < 26) : decompose (0xff41 + n) = [0x61 + n] := by
  have hsyllable : syllableParts? (0xff41 + n) = none := by
    unfold syllableParts? firstSyllable syllableCount
    rw [if_pos (by simp; omega)]
  have hcomposite : (composites.find? fun c => c.1 = 0xff41 + n) = none := by
    rw [Array.find?_eq_none]
    intro c hc
    have hnot := (tables_wide.2.1 c (Array.mem_toList_iff.2 hc)).1
    simp only [decide_eq_true_eq]
    omega
  -- It is no ideograph, and of the runs only its own holds it.
  have hplain : plain (0xff41 + n) = [0x61 + n] := by
    unfold plain
    rw [plainIdeograph?_wide h, find?_plainRuns_wide h]
    simp
  unfold decompose
  rw [if_neg (by omega), hsyllable, maxCompositeDepth, decomposeUpTo_succ, hcomposite, hplain]

theorem decompose_toNat_wide {c : Char} (h : c.toNat < 0x80) :
    decompose (wide c).toNat = [c.toNat] := by
  by_cases hc : 0x61 ≤ c.toNat ∧ c.toNat ≤ 0x7a
  · obtain ⟨n, hn⟩ := Nat.exists_eq_add_of_le hc.1
    have hwide : (wide c).toNat = 0xff41 + n := by
      rw [toNat_wide hc, hn, wideOffset]
      omega
    rw [hwide, hn, decompose_wide (by omega)]
  · rw [wide, if_neg hc, decompose, if_pos h]

/-! ## Sorting and composing -/

theorem markClass_ascii {code : Nat} (h : code < 0x80) : markClass code = 0 := by
  unfold markClass
  rw [if_pos (by omega)]

theorem insertMark_ascii {code : Nat} (codes : List Nat) (h : code < 0x80) :
    insertMark code codes = code :: codes := by
  cases codes with
  | nil => rfl
  | cons c cs =>
    unfold insertMark
    rw [markClass_ascii h, if_neg (by simp)]

theorem sortMarks_ascii {codes : List Nat} (h : ∀ code ∈ codes, code < 0x80) :
    sortMarks codes = codes := by
  induction codes with
  | nil => rfl
  | cons code codes ih =>
    have hrest := ih fun c hc => h c (List.mem_cons_of_mem _ hc)
    unfold sortMarks at hrest ⊢
    rw [List.foldr_cons, hrest, insertMark_ascii codes (h code List.mem_cons_self)]

/-- Nothing is one with a plain character behind it. -/
theorem compose?_ascii (first : Nat) {second : Nat} (h : second < 0x80) :
    compose? first second = none := by
  have hsyllable : syllable? first second = none := by
    unfold syllable? vowelPart trailingPart
    rw [if_neg, if_neg] <;> simp <;> omega
  have hfind : (composites.find? fun c => c.2.1 = first && c.2.2 = second) = none := by
    rw [Array.find?_eq_none]
    intro c hc
    have hsecond := (tables_wide.2.1 c (Array.mem_toList_iff.2 hc)).2
    simp
    omega
  unfold compose?
  rw [hsyllable, hfind]
  rfl

theorem composeCluster_ascii {codes : List Nat} : ∀ {start : Nat},
    (∀ code ∈ codes, code < 0x80) → composeCluster start [] codes = start :: codes := by
  induction codes with
  | nil =>
    intro start _
    rfl
  | cons code codes ih =>
    intro start h
    have hcode := h code List.mem_cons_self
    -- Nothing composes, so every character starts a cluster of its own.
    have hrest : composeCluster code [] codes = code :: codes :=
      ih fun c hc => h c (List.mem_cons_of_mem _ hc)
    unfold composeCluster
    rw [compose?_ascii start hcode, markClass_ascii hcode, hrest]
    simp [isBlocked]

theorem composeAll_ascii {codes : List Nat} (h : ∀ code ∈ codes, code < 0x80) :
    composeAll codes = codes := by
  cases codes with
  | nil => rfl
  | cons code codes =>
    unfold composeAll
    rw [if_pos (markClass_ascii (h code List.mem_cons_self)),
      composeCluster_ascii fun c hc => h c (List.mem_cons_of_mem _ hc)]

/-! ## Names -/

theorem normalCodes_wide {cs : List Char} (h : ∀ c ∈ cs, c.toNat < 0x80) :
    normalCodes ((cs.map wide).map Char.toNat) = cs.map Char.toNat := by
  have hdecompose : ((cs.map wide).map Char.toNat).flatMap decompose = cs.map Char.toNat := by
    induction cs with
    | nil => rfl
    | cons c cs ih =>
      rw [List.map_cons, List.map_cons, List.flatMap_cons, List.map_cons,
        ih fun d hd => h d (List.mem_cons_of_mem _ hd),
        decompose_toNat_wide (h c List.mem_cons_self)]
      rfl
  have hcodes : ∀ code ∈ cs.map Char.toNat, code < 0x80 := by
    intro code hcode
    obtain ⟨c, hc, rfl⟩ := List.mem_map.1 hcode
    exact h c hc
  unfold normalCodes
  rw [hdecompose, sortMarks_ascii hcodes, composeAll_ascii hcodes]

/-- The normal spelling of a name in full width is the name. -/
theorem normalName_widen {name : String} (h : ∀ c ∈ name.toList, c.toNat < 0x80) :
    normalName (widen name) = name := by
  unfold normalName widen
  rw [String.toList_ofList]
  split
  · rename_i hall
    -- The spelling is in ASCII, so there was no small letter to widen.
    have hwide : ∀ c ∈ name.toList, wide c = c := by
      intro c hc
      have hlt : (wide c).toNat < 0x80 :=
        of_decide_eq_true (List.all_eq_true.1 hall _ (List.mem_map_of_mem hc))
      refine if_neg fun hsmall => ?_
      rw [toNat_wide hsmall, wideOffset] at hlt
      omega
    rw [List.map_congr_left hwide, List.map_id', String.ofList_toList]
  · rw [normalCodes_wide h, List.map_map]
    have hchars : ∀ c ∈ name.toList, (Char.ofNat ∘ Char.toNat) c = c := fun c _ => Char.ofNat_toNat c
    rw [List.map_congr_left hchars, List.map_id', String.ofList_toList]

/-- A letter of full width may stand anywhere in an identifier. -/
theorem inRanges_wide {c : Char} (h : 0x61 ≤ c.toNat ∧ c.toNat ≤ 0x7a) :
    ¬ (wide c).toNat < 0x80 ∧ inRanges identifierStartRanges (wide c).toNat = true := by
  obtain ⟨range, hmem, hfirst, hlast⟩ := tables_wide.2.2.2
  rw [toNat_wide h, wideOffset]
  refine ⟨by omega, ?_⟩
  unfold inRanges
  rw [Array.any_eq_true']
  refine ⟨range, Array.mem_toList_iff.1 hmem, ?_⟩
  rw [Bool.and_eq_true, decide_eq_true_eq, decide_eq_true_eq]
  omega

theorem startsIdentifier_wide {c : Char} (h : startsIdentifier c = true) :
    startsIdentifier (wide c) = true := by
  by_cases hc : 0x61 ≤ c.toNat ∧ c.toNat ≤ 0x7a
  · obtain ⟨hlarge, hin⟩ := inRanges_wide hc
    rw [startsIdentifier, if_neg hlarge, hin]
  · rwa [wide, if_neg hc]

theorem continuesIdentifier_wide {c : Char} (h : continuesIdentifier c = true) :
    continuesIdentifier (wide c) = true := by
  by_cases hc : 0x61 ≤ c.toNat ∧ c.toNat ≤ 0x7a
  · obtain ⟨hlarge, hin⟩ := inRanges_wide hc
    rw [continuesIdentifier, if_neg hlarge, hin, Bool.true_or]
  · rwa [wide, if_neg hc]

/-- An identifier in full width is one too. -/
theorem isIdentifier_widen {name : String} (h : isIdentifier name = true) :
    isIdentifier (widen name) = true := by
  unfold isIdentifier widen at *
  rw [String.toList_ofList]
  cases hcs : name.toList with
  | nil => rw [hcs] at h; cases h
  | cons c cs =>
    rw [hcs] at h
    simp only [isIdentifierText, List.map_cons, Bool.and_eq_true, List.all_map,
      List.all_eq_true] at h ⊢
    exact ⟨startsIdentifier_wide h.1, fun d hd => continuesIdentifier_wide (h.2 d hd)⟩

end Text
end HtmlTemplate
