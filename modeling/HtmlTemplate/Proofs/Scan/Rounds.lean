import HtmlTemplate.Proofs.Scan.Grammar

/-!
# Rounds — the attributes of a tag, read one after another

Attributes are read in rounds.  A round drops the blanks, takes a key and, behind an equals sign, a
value; the next one starts where it has ended, and the last one in front of the tag's ending.  The
tag has the settings of its rounds (`Chunk.readTag_rounds`).

A quoted value is meant to reach up to the next quote.  It does on a single line, but no value is
found behind a quote if a line feed comes before the next one (`Scan.quoted_whole_iff`).
-/

namespace HtmlTemplate

open Text

namespace Attributes

/-- A key has the value of a setting behind which it is not set again. -/
theorem lookup_ofList_last {settings : List (String × AttributeValue)}
    {before after : List (String × AttributeValue)} {key : String} {value : AttributeValue}
    (h : settings = before ++ (key, value) :: after) (hlast : ∀ s ∈ after, s.1 ≠ key) :
    (ofList settings).lookup key = some value := by
  have hafter : after.reverse.lookup key = none := by
    rw [List.lookup_eq_none_iff]
    intro s hs
    exact bne_iff_ne.2 (hlast s (List.mem_reverse.1 hs)).symm
  rw [lookup_ofList, h, List.reverse_append, List.reverse_cons, List.append_assoc,
    List.lookup_append, hafter, Option.none_or, List.singleton_append, List.lookup_cons_self]

end Attributes

namespace Chunk

/-! ## Rounds -/

/-- One round of reading attributes: where it starts, the attribute that it finds, unless there are
only blanks, and where it ends. -/
structure Round where
  start : List Char
  setting? : Option (String × AttributeValue)
  rest : List Char
  deriving DecidableEq, Repr

/-- The round that starts here, if there is a blank, a key or an equals sign to take. -/
def round? (cs : List Char) : Option Round :=
  let found := cs.dropWhile isBlank
  let key := String.ofList (found.takeWhile isKeyChar)
  match found.dropWhile isKeyChar with
  | '=' :: after =>
    some ⟨cs, some (key, .text (String.ofList (readValue after).1)), (readValue after).2⟩
  | rest =>
    if rest.length < cs.length then
      some ⟨cs, if key.isEmpty then none else some (key, .present), rest⟩
    else none

/-- A round starts where it is looked for, and takes a character at least. -/
theorem round?_eq_some {cs : List Char} {r : Round} (h : round? cs = some r) :
    r.start = cs ∧ r.rest.length < cs.length := by
  unfold round? at h
  dsimp only at h
  split at h
  · rename_i after hafter
    cases h
    have hvalue := readValue_length after
    have hkey := dropWhile_length_le isKeyChar (cs.dropWhile isBlank)
    have hblanks := dropWhile_length_le isBlank cs
    rw [hafter, List.length_cons] at hkey
    have hshorter : (readValue after).2.length < cs.length := by omega
    exact ⟨rfl, hshorter⟩
  · split at h
    · rename_i hlength
      cases h
      exact ⟨rfl, hlength⟩
    · cases h

/-- The rounds from here on. -/
def rounds (cs : List Char) : List Round :=
  match h : round? cs with
  | none => []
  | some r =>
    have := (round?_eq_some h).2
    r :: rounds r.rest
termination_by cs.length

theorem rounds_of_some {cs : List Char} {r : Round} (h : round? cs = some r) :
    rounds cs = r :: rounds r.rest := by
  rw [rounds]
  split
  · rename_i h'
    cases h.symm.trans h'
  · rename_i h'
    cases h.symm.trans h'
    rfl

theorem rounds_of_none {cs : List Char} (h : round? cs = none) : rounds cs = [] := by
  rw [rounds]
  split
  · rfl
  · rename_i h'
    cases h.symm.trans h'

/-- Where rounds that start here come to their end. -/
def endOf (cs : List Char) (rs : List Round) : List Char := (rs.getLast?.map Round.rest).getD cs

theorem endOf_cons (cs : List Char) (r : Round) (rs : List Round) :
    endOf cs (r :: rs) = endOf r.rest rs := by
  cases rs with
  | nil => rfl
  | cons s rs =>
    unfold endOf
    rw [List.getLast?_cons_cons, List.getLast?_cons]
    rfl

theorem endOf_append_cons (cs : List Char) (before : List Round) (r : Round) (after : List Round) :
    endOf cs (before ++ r :: after) = endOf r.rest after := by
  induction before generalizing cs with
  | nil => exact endOf_cons cs r after
  | cons s before ih => rw [List.cons_append, endOf_cons, ih]

/-- The first round is the one that starts here, and the others start where it ends. -/
theorem of_rounds_eq_cons {cs : List Char} {r : Round} {rs : List Round} (h : rounds cs = r :: rs) :
    round? cs = some r ∧ rounds r.rest = rs := by
  cases hr : round? cs with
  | none =>
    rw [rounds_of_none hr] at h
    cases h
  | some r' =>
    rw [rounds_of_some hr] at h
    obtain ⟨rfl, hrest⟩ := List.cons.inj h
    exact ⟨rfl, hrest⟩

/-- A round starts where the one before it has ended. -/
theorem start_of_rounds {cs : List Char} {before after : List Round} {r s : Round}
    (h : rounds cs = before ++ r :: s :: after) : s.start = r.rest := by
  induction before generalizing cs with
  | nil =>
    obtain ⟨-, hrest⟩ := of_rounds_eq_cons h
    exact (round?_eq_some (of_rounds_eq_cons hrest).1).1
  | cons t before ih => exact ih (of_rounds_eq_cons h).2

/-- Every round is one that is looked for where it starts. -/
theorem round?_of_mem {cs : List Char} {r : Round} (h : r ∈ rounds cs) :
    round? r.start = some r := by
  fun_induction rounds cs with
  | case1 => cases h
  | case2 cs r' hr _ ih =>
    rcases List.mem_cons.1 h with rfl | h
    · rw [(round?_eq_some hr).1]
      exact hr
    · exact ih h

/-! ## Tags and their rounds -/

/-- The settings of rounds, in their order. -/
def settingsOf (rs : List Round) : List (String × AttributeValue) := rs.filterMap Round.setting?

theorem settingsOf_cons (r : Round) (rs : List Round) :
    settingsOf (r :: rs) = settingsOf [r] ++ settingsOf rs :=
  List.filterMap_append (l := [r])

/-- What one round does to the attributes that were read before. -/
theorem readAttributes_round {cs : List Char} {r : Round} (attributes : Attributes)
    (h : round? cs = some r) :
    readAttributes attributes cs =
      readAttributes ((settingsOf [r]).foldl (fun attributes (key, value) =>
        attributes.set key value) attributes) r.rest := by
  unfold round? at h
  dsimp only at h
  split at h
  · rename_i after hafter
    cases h
    exact readAttributes_of_value attributes hafter
  · rename_i hno
    split at h
    · rename_i hlength
      cases h
      have hequals : ((cs.dropWhile isBlank).dropWhile isKeyChar).head? ≠ some '=' := by
        intro hhead
        obtain ⟨tail, htail⟩ := List.head?_eq_some_iff.1 hhead
        exact hno tail htail
      rw [readAttributes_of_key attributes rfl hequals, if_pos hlength, Attributes.setPresent]
      cases hkey : (String.ofList ((cs.dropWhile isBlank).takeWhile isKeyChar)).isEmpty <;>
        simp [settingsOf]
    · cases h

theorem readAttributes_of_no_round {cs : List Char} (attributes : Attributes)
    (h : round? cs = none) : readAttributes attributes cs = (attributes, cs) := by
  unfold round? at h
  dsimp only at h
  split at h
  · cases h
  · rename_i hno
    split at h
    · cases h
    · rename_i hlength
      have hequals : ((cs.dropWhile isBlank).dropWhile isKeyChar).head? ≠ some '=' := by
        intro hhead
        obtain ⟨tail, htail⟩ := List.head?_eq_some_iff.1 hhead
        exact hno tail htail
      rw [readAttributes_of_key attributes rfl hequals, if_neg hlength]

/-- Reading attributes is making the settings of all rounds. -/
theorem readAttributes_rounds (attributes : Attributes) (cs : List Char) :
    readAttributes attributes cs =
      ((settingsOf (rounds cs)).foldl (fun attributes (key, value) => attributes.set key value)
        attributes, endOf cs (rounds cs)) := by
  fun_induction rounds cs generalizing attributes with
  | case1 cs h => exact readAttributes_of_no_round attributes h
  | case2 cs r h _ ih =>
    rw [readAttributes_round attributes h, ih, settingsOf_cons r (rounds r.rest), List.foldl_append,
      endOf_cons]

/-- What stands behind the name of a tag whose `<` has been taken. -/
def behindName (cs : List Char) : List Char := (readSlash cs).2.dropWhile isTagNameChar

/-- The rounds in which the attributes of a tag are read, its `<` having been taken.  There are none
if the name ends with the slash of the ending. -/
def tagRounds (cs : List Char) : List Round :=
  if (selfClosed? ((readSlash cs).2.takeWhile isTagNameChar) (behindName cs)).isSome then []
  else rounds (behindName cs)

/-- A tag has the settings of its rounds, and its ending stands where the last of them ends. -/
theorem readTag_rounds {cs rest : List Char} {tag : Tag} (h : readTag cs = .ok (tag, rest)) :
    tag.attributes = Attributes.ofList (settingsOf (tagRounds cs)) ∧
      (tagRounds cs ≠ [] → tagRounds cs = rounds (behindName cs) ∧
        ∃ closed, readEnding (endOf (behindName cs) (tagRounds cs)) = some (closed, rest)) := by
  unfold readTag at h
  unfold tagRounds behindName
  dsimp only at h
  split at h
  · rename_i hself
    cases h
    rw [hself]
    exact ⟨rfl, fun hne => absurd rfl hne⟩
  · rename_i hself
    rw [hself, if_neg (by simp)]
    rw [readAttributes_rounds] at h
    split at h
    · rename_i closed after hending
      cases h
      exact ⟨rfl, fun _ => ⟨rfl, closed, hending⟩⟩
    · cases h

/-- A tag has what a round sets, unless a later one sets it again. -/
theorem lookup_of_rounds {cs rest : List Char} {tag : Tag} (h : readTag cs = .ok (tag, rest))
    {before after : List Round} {r : Round} (hrounds : tagRounds cs = before ++ r :: after)
    {key : String} {value : AttributeValue} (hset : r.setting? = some (key, value))
    (hlast : ∀ s ∈ settingsOf after, s.1 ≠ key) : tag.attributes.lookup key = some value := by
  have hsettings : settingsOf (tagRounds cs) =
      settingsOf before ++ (key, value) :: settingsOf after := by
    rw [hrounds, settingsOf, List.filterMap_append, List.filterMap_cons_some hset]
    rfl
  rw [(readTag_rounds h).1]
  exact Attributes.lookup_ofList_last hsettings hlast

/-- A tag that is read off a source is read behind its `<`, and the reader of tags is asked about
it. -/
theorem readTag_of_read {cs rest : List Char} {tag : Tag} (h : read cs = .ok (.tag tag, rest)) :
    cs ≠ [] ∧ readTag cs.tail = .ok (tag, rest) := by
  unfold read at h
  split at h
  · rename_i hstart
    have hne : cs ≠ [] := by
      rintro rfl
      cases hstart
    split at h
    · cases h
    · cases htag : readTag cs.tail with
      | error m =>
        rw [htag] at h
        cases h
      | ok found =>
        rw [htag] at h
        cases h
        exact ⟨hne, rfl⟩
  · cases h

/-! ## Quoted values -/

/-- No value stands behind a quote if the line ends before the next one. -/
theorem readQuotedValue_of_break {value rest : List Char} (hquote : '"' ∉ value)
    (hline : '\n' ∈ value) : readQuotedValue (value ++ '"' :: rest) = none := by
  induction value with
  | nil => cases hline
  | cons c value ih =>
    obtain ⟨hc, hquote⟩ := not_or.1 (mt List.mem_cons.2 hquote)
    rw [List.cons_append, readQuotedValue, if_neg (by simpa using Ne.symm hc)]
    by_cases hbreak : c = '\n'
    · rw [if_pos (beq_iff_eq.2 hbreak)]
    · have hrest : '\n' ∈ value := by
        rcases List.mem_cons.1 hline with he | hline
        · exact absurd he.symm hbreak
        · exact hline
      rw [if_neg (by simpa using hbreak), ih hquote hrest]
      rfl

/-- A quoted value is read whole if it is on one line.  Otherwise nothing is read. -/
theorem readValue_quote {value : List Char} (hquote : '"' ∉ value) (rest : List Char) :
    readValue ('"' :: (value ++ '"' :: rest)) =
      if '\n' ∈ value then ([], '"' :: (value ++ '"' :: rest)) else (value, rest) := by
  split
  · rename_i hline
    rw [readValue, readQuotedValue_of_break hquote hline]
  · rename_i hline
    exact readValue_quoted ⟨hquote, hline⟩

/-- The round at a key with an equals sign. -/
theorem round?_value {blanks key : List Char} (hb : ∀ c ∈ blanks, isBlank c = true)
    (hk : ∀ c ∈ key, isKeyChar c = true) (after : List Char) :
    round? (blanks ++ (key ++ '=' :: after)) =
      some ⟨blanks ++ (key ++ '=' :: after),
        some (String.ofList key, .text (String.ofList (readValue after).1)),
        (readValue after).2⟩ := by
  have hdrop : (blanks ++ (key ++ '=' :: after)).dropWhile isBlank = key ++ '=' :: after :=
    dropWhile_blanks hb hk fun _ => rfl
  unfold round?
  dsimp only
  rw [hdrop, dropWhile_run hk rfl, takeWhile_run hk rfl]
  rfl

/-- The round at a key with a quoted value. -/
theorem round_quoted {r : Round} (h : round? r.start = some r) {blanks key value tail : List Char}
    (hb : ∀ c ∈ blanks, isBlank c = true) (hk : ∀ c ∈ key, isKeyChar c = true)
    (hquote : '"' ∉ value)
    (hstart : r.start = blanks ++ (key ++ '=' :: '"' :: (value ++ '"' :: tail))) :
    if '\n' ∈ value then
      r.setting? = some (String.ofList key, .text "") ∧ r.rest = '"' :: (value ++ '"' :: tail)
    else r.setting? = some (String.ofList key, .text (String.ofList value)) ∧ r.rest = tail := by
  rw [hstart, round?_value hb hk, readValue_quote hquote] at h
  obtain rfl := Option.some.inj h
  split
  · exact ⟨rfl, rfl⟩
  · exact ⟨rfl, rfl⟩

end Chunk

namespace Scan

open Chunk

/-- A quoted value is taken whole exactly if it holds no line feed.

Let a tag be read, and let one of the rounds in which its attributes are read start at a key with a
value between quotes.  The reader of tags is asked about this tag.  If the value holds no line feed,
the round sets the key to the value and ends just behind the closing quote, where the next round
starts or the ending of the tag is read; otherwise it sets the key to the empty text and ends in
front of the opening quote.  What the round sets is what the tag has, unless a later round sets the
key again. -/
theorem quoted_whole_iff {cs rest : List Char} {tag : Tag}
    (hread : Chunk.read cs = .ok (.tag tag, rest)) {before after : List Round} {r : Round}
    (hrounds : tagRounds cs.tail = before ++ r :: after) {blanks key value tail : List Char}
    (hblanks : ∀ c ∈ blanks, isBlank c = true) (hkey : ∀ c ∈ key, isKeyChar c = true)
    (hquote : '"' ∉ value)
    (hstart : r.start = blanks ++ (key ++ '=' :: '"' :: (value ++ '"' :: tail))) :
    (∀ reader place, (scanFrom reader place cs).tags.head? = some tag) ∧
    (if '\n' ∈ value then
      r.setting? = some (String.ofList key, .text "") ∧ r.rest = '"' :: (value ++ '"' :: tail)
    else r.setting? = some (String.ofList key, .text (String.ofList value)) ∧ r.rest = tail) ∧
    (∀ next ∈ after.head?, next.start = r.rest) ∧
    (after = [] → ∃ closed, readEnding r.rest = some (closed, rest)) ∧
    ((∀ s ∈ settingsOf after, s.1 ≠ String.ofList key) →
      (tag.attributes.lookup (String.ofList key) = some (.text (String.ofList value)) ↔
        '\n' ∉ value)) := by
  obtain ⟨hne, htag⟩ := readTag_of_read hread
  obtain ⟨hattributes, hending⟩ := readTag_rounds htag
  have hsome : tagRounds cs.tail ≠ [] := by
    rw [hrounds]
    exact List.append_ne_nil_of_right_ne_nil _ (List.cons_ne_nil _ _)
  obtain ⟨hall, closed, hclosed⟩ := hending hsome
  have hrun : rounds (behindName cs.tail) = before ++ r :: after := hall.symm.trans hrounds
  -- The round is the one that its start asks for.
  have hround : round? r.start = some r :=
    round?_of_mem (hrun ▸ List.mem_append_right _ List.mem_cons_self)
  have hfound := round_quoted hround hblanks hkey hquote hstart
  refine ⟨?_, hfound, ?_, ?_, ?_⟩
  · intro reader place
    rw [scanFrom_of_read hne hread]
    split
    · rfl
    · rfl
  · intro next hnext
    obtain ⟨later, rfl⟩ := List.head?_eq_some_iff.1 hnext
    exact start_of_rounds hrun
  · rintro rfl
    rw [hrounds, endOf_append_cons] at hclosed
    exact ⟨closed, hclosed⟩
  · intro hlast
    by_cases hline : '\n' ∈ value
    · rw [if_pos hline] at hfound
      rw [lookup_of_rounds htag hrounds hfound.1 hlast]
      -- The value is not empty, as it holds a line feed.
      refine iff_of_false (fun he => ?_) (not_not_intro hline)
      have hnil : String.ofList value = "" := (AttributeValue.text.inj (Option.some.inj he)).symm
      rw [String.ofList_eq_empty_iff] at hnil
      rw [hnil] at hline
      cases hline
    · rw [if_neg hline] at hfound
      exact iff_of_true (lookup_of_rounds htag hrounds hfound.1 hlast) hline

/-- A value with a slash, a `>` and an equals sign in it, between two keys. -/
theorem quoted_whole_markup : ∃ tag,
    Chunk.read "<p a\tb=\"x/>y=\"c>!".toList = .ok (.tag tag, ['!']) ∧
      tag.attributes.lookup "b" = some (.text "x/>y=") := by
  have hread : Chunk.read "<p a\tb=\"x/>y=\"c>!".toList =
      .ok (.tag ⟨"p", [("a", .present), ("b", .text "x/>y="), ("c", .present)], false, false⟩,
        ['!']) := by
    with_unfolding_all rfl
  have hrounds : tagRounds "<p a\tb=\"x/>y=\"c>!".toList.tail =
      [⟨" a\tb=\"x/>y=\"c>!".toList, some ("a", .present), "\tb=\"x/>y=\"c>!".toList⟩] ++
        ⟨"\tb=\"x/>y=\"c>!".toList, some ("b", .text "x/>y="), "c>!".toList⟩ ::
          [⟨"c>!".toList, some ("c", .present), ">!".toList⟩] := by
    with_unfolding_all rfl
  have hstart : "\tb=\"x/>y=\"c>!".toList =
      ['\t'] ++ (['b'] ++ '=' :: '"' :: ("x/>y=".toList ++ '"' :: "c>!".toList)) := rfl
  obtain ⟨-, -, -, -, hlookup⟩ := quoted_whole_iff hread hrounds
    (List.forall_mem_singleton.2 (by decide)) (List.forall_mem_singleton.2 (by decide))
    (by decide) hstart
  have hlast : ∀ s ∈ settingsOf [⟨"c>!".toList, some ("c", .present), ">!".toList⟩],
      s.1 ≠ String.ofList ['b'] :=
    List.forall_mem_singleton.2 (by decide)
  exact ⟨_, hread, (hlookup hlast).2 (by decide)⟩

/-- A quoted value with a line feed is lost, and its words are taken for keys. -/
theorem not_whole_line_feed : ∃ tag,
    Chunk.read "<p b=\"x\ny\">".toList = .ok (.tag tag, []) ∧
      tag.attributes = [("b", .text ""), ("\"x", .present), ("y\"", .present)] ∧
      '"' ∉ "x\ny".toList ∧ tag.attributes.lookup "b" ≠ some (.text "x\ny") := by
  have hread : Chunk.read "<p b=\"x\ny\">".toList =
      .ok (.tag ⟨"p", [("b", .text ""), ("\"x", .present), ("y\"", .present)], false, false⟩,
        []) := by
    with_unfolding_all rfl
  exact ⟨_, hread, rfl, by decide, by decide⟩

end Scan
end HtmlTemplate
