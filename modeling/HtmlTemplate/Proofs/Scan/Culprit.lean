import HtmlTemplate.Proofs.Location
import HtmlTemplate.Proofs.Scan.Outcome
import HtmlTemplate.Proofs.Scan.Rounds
import HtmlTemplate.Proofs.Scan.Tiling
import HtmlTemplate.Proofs.Tag.Claimed

/-!
# Culprit — what the faults of a scan point at

A scan that stops at braces or in a tag tells a place.  It is counted within the text or comment
that is being read, or found behind the attributes of a tag, and has to be the place in the whole
source of just what is wrong: braces that nothing closes, an expression that is no directive, or
where a tag goes on with neither an attribute nor its ending (`Scan.fault_located`).
-/

namespace HtmlTemplate

open Text Marker

/-! ## Tags that do not end -/

namespace Chunk

/-- Whether an attribute can be read here: blanks, a key and an equals sign, or some of these. -/
def AttributeAt (cs : List Char) : Prop :=
  ∃ blanks key equals rest, cs = blanks ++ (key ++ (equals ++ rest)) ∧
    (∀ c ∈ blanks, isBlank c = true) ∧ (∀ c ∈ key, isKeyChar c = true) ∧
    (equals = [] ∨ equals = ['=']) ∧ blanks ++ (key ++ equals) ≠ []

/-- Whether a tag can end here: with blanks, and `>` or `/>` behind them. -/
def EndingAt (cs : List Char) : Prop :=
  ∃ blanks rest, (∀ c ∈ blanks, isBlank c = true) ∧
    (cs = blanks ++ '>' :: rest ∨ cs = blanks ++ '/' :: '>' :: rest)

/-- No round starts where the last one has ended. -/
theorem round?_endOf (cs : List Char) : round? (endOf cs (rounds cs)) = none := by
  fun_induction rounds cs with
  | case1 cs h => exact h
  | case2 cs r h _ ih =>
    rw [endOf_cons]
    exact ih

/-- Where no round starts there is no blank, no character of a key and no equals sign. -/
theorem head_of_no_round {cs : List Char} (h : round? cs = none) :
    ∀ c ∈ cs.head?, isBlank c = false ∧ isKeyChar c = false ∧ c ≠ '=' := by
  intro c hc
  obtain ⟨tail, rfl⟩ := List.head?_eq_some_iff.1 hc
  unfold round? at h
  dsimp only at h
  split at h
  · cases h
  rename_i hequals
  split at h
  · cases h
  rename_i hlength
  have hblanks := dropWhile_length_le isBlank tail
  have hkey := dropWhile_length_le isKeyChar tail
  -- A blank would be dropped, and so would a character of a key.
  have hblank : isBlank c = false := by
    refine Bool.eq_false_iff.2 fun hb => hlength ?_
    have hdrop := dropWhile_length_le isKeyChar (tail.dropWhile isBlank)
    rw [List.dropWhile_cons_of_pos hb, List.length_cons]
    omega
  rw [List.dropWhile_cons_of_neg (Bool.eq_false_iff.1 hblank)] at hlength hequals
  refine ⟨hblank, Bool.eq_false_iff.2 fun hk => hlength ?_, ?_⟩
  · rw [List.dropWhile_cons_of_pos hk, List.length_cons]
    omega
  · rintro rfl
    exact hequals tail (List.dropWhile_cons_of_neg (by decide))

theorem not_attributeAt {cs : List Char} (h : round? cs = none) : ¬ AttributeAt cs := by
  rintro ⟨blanks, key, equals, rest, rfl, hblanks, hkey, hequals, hne⟩
  have hhead := head_of_no_round h
  cases blanks with
  | cons c blanks =>
    have hc := (hhead c rfl).1
    rw [hblanks c List.mem_cons_self] at hc
    cases hc
  | nil =>
    cases key with
    | cons c key =>
      have hc := (hhead c rfl).2.1
      rw [hkey c List.mem_cons_self] at hc
      cases hc
    | nil =>
      rcases hequals with rfl | rfl
      · exact hne rfl
      · exact (hhead '=' rfl).2.2 rfl

theorem not_endingAt {cs : List Char} (h : readEnding cs = none) : ¬ EndingAt cs := by
  rintro ⟨blanks, rest, hblanks, rfl | rfl⟩
  · rw [readEnding, dropWhile_run hblanks rfl] at h
    cases h
  · rw [readEnding, dropWhile_run hblanks rfl] at h
    cases h

theorem readSlash_append (cs : List Char) :
    (if (readSlash cs).1 then ['/'] else []) ++ (readSlash cs).2 = cs := by
  unfold readSlash
  split <;> rfl

/-- A tag that does not end has a name, and goes on with no attribute and no ending somewhere behind
it. -/
theorem readTag_error {cs : List Char} {m : Malformed} (h : readTag cs = .error m) :
    ∃ name between, m.name = String.ofList name ∧
      cs = (if m.isClose then ['/'] else []) ++ (name ++ (between ++ m.rest)) ∧
      (∀ c ∈ name, isTagNameChar c = true) ∧
      (∀ c ∈ (between ++ m.rest).head?, isTagNameChar c = false) ∧
      ¬ AttributeAt m.rest ∧ ¬ EndingAt m.rest := by
  unfold readTag at h
  dsimp only at h
  split at h
  · cases h
  split at h
  · cases h
  rename_i hending
  cases h
  dsimp only
  obtain ⟨between, hbetween⟩ :=
    readAttributes_suffix [] ((readSlash cs).2.dropWhile isTagNameChar)
  refine ⟨_, between, rfl, ?_, ?_, ?_, ?_, not_endingAt hending⟩
  · rw [hbetween, List.takeWhile_append_dropWhile, readSlash_append]
  · exact fun c hc => List.mem_takeWhile_imp hc
  · rw [hbetween]
    intro c hc
    have hhead := List.head?_dropWhile_not isTagNameChar (readSlash cs).2
    rw [hc] at hhead
    exact hhead
  · apply not_attributeAt
    rw [readAttributes_rounds]
    exact round?_endOf _

theorem read_error {cs : List Char} {m : Malformed} (h : read cs = .error m) :
    ∃ tail, cs = '<' :: tail ∧ readTag tail = .error m := by
  unfold read at h
  split at h
  · rename_i hstart
    obtain ⟨c, tail, rfl, -⟩ := (startsMarkup_iff cs).1 hstart
    split at h
    · cases h
    · cases htag : readTag (c :: tail) with
      | error m' =>
        rw [List.tail_cons, htag] at h
        cases h
        exact ⟨_, rfl, htag⟩
      | ok found =>
        rw [List.tail_cons, htag] at h
        cases h
  · cases h

end Chunk

/-! ## Braces and expressions -/

/-- Whether a fault is one that the scanner tells the place of. -/
def TemplateFault.IsPlaced : TemplateFault → Prop
  | .lexical (.malformedTag _ _ _) => True
  | .lexical (.unterminatedMarker _) => True
  | .unknownDirective _ => True
  | _ => False

theorem TemplateFault.not_isPlaced_semantic {fault : TemplateFault} {location : Option Location}
    {semantic : SemanticFault} (h : Error.template fault location = Error.semantic semantic) :
    ¬ fault.IsPlaced := by
  cases h
  exact id

namespace Interpolation

/-- Whether a fault is that of the braces behind the front of a text: nothing closes them, or the
expression up to the closing ones is what the fault names. -/
inductive Blames (cs : List Char) : TemplateFault → List Char → List Char → Prop
  | unclosed {front more : List Char} : cs = front ++ '{' :: '{' :: more → Unclosed more →
      Blames cs (.lexical (.unterminatedMarker
        (String.ofList (('{' :: '{' :: more).take snippetLength)))) front ('{' :: '{' :: more)
  | unknown {front expression back : List Char} :
      cs = front ++ '{' :: '{' :: (expression ++ '}' :: '}' :: back) → Closed expression →
      Blames cs (.unknownDirective (String.ofList (strip expression))) front
        ('{' :: '{' :: (expression ++ '}' :: '}' :: back))

theorem Blames.append_eq {cs front culprit : List Char} {fault : TemplateFault}
    (h : Blames cs fault front culprit) : cs = front ++ culprit := by
  cases h with
  | unclosed hsplit _ => exact hsplit
  | unknown hsplit _ => exact hsplit

/-- Braces that start no whole marker are unclosed. -/
theorem unclosed_of_not_complete {more : List Char} (h : ¬ Complete ('{' :: '{' :: more)) :
    Unclosed more := by
  intro expression rest he
  refine Classical.byContradiction fun hline => h ⟨[], expression, rest, hline, ?_⟩
  rw [he]
  rfl

/-- A text is refused for an expression or for braces of its own, and the place is theirs. -/
theorem blames_of_error {position : Position} {locate : Locator} {cs : List Char}
    {fault : TemplateFault} {location : Option Location}
    (h : parts position builtin locate cs = .error (.template fault location))
    (hplaced : fault.IsPlaced) :
    ∃ front culprit, Blames cs fault front culprit ∧ location = locate front.length := by
  obtain ⟨houtcome, -⟩ := parts_outcome position builtin locate (Pieces.alternating_eq _)
  rw [h] at houtcome
  generalize hresult : (Except.error (Error.template fault location) : Except Error (List Part)) =
    result at houtcome
  cases houtcome with
  | stopped hmarked hbefore hvalue hread =>
    cases hresult
    unfold builtin at hread
    cases hparts : Directive.parts _ with
    | ok ps =>
      rw [hparts] at hread
      cases hread
    | error semantic =>
      rw [hparts] at hread
      exact absurd hplaced (TemplateFault.not_isPlaced_semantic (Except.error.inj hread).symm)
  | unknown hmarked hbefore hvalue hread hat =>
    cases hresult
    obtain ⟨front, raw, back, rfl, rfl, -, hclosed, rfl⟩ := hat
    exact ⟨front, _, .unknown rfl hclosed, rfl⟩
  | @unclosed front n hall hsplit hopening =>
    rw [String.toList_ofList] at hsplit hopening
    cases hresult
    obtain ⟨more, hmore⟩ := drop_findOpening hopening
    -- A whole marker there would have been cut out of the last literal.
    have hnone : ¬ Complete ('{' :: '{' :: more) := fun hcomplete =>
      Pieces.not_complete_literal (List.mem_append_right _ List.mem_cons_self)
        (hcomplete.mono (hmore ▸ (List.drop_suffix n (Pieces.ofText cs).tail).isInfix))
    have hfront : cs = front ++ (Pieces.ofText cs).tail.take n ++ '{' :: '{' :: more := by
      conv_lhs => rw [hsplit]
      rw [List.append_assoc, ← hmore, List.take_append_drop]
    have hle : n ≤ (Pieces.ofText cs).tail.length := by
      refine Decidable.byContradiction fun hlt => ?_
      rw [List.drop_eq_nil_of_le (Nat.le_of_not_le hlt)] at hmore
      cases hmore
    have hlength : (front ++ (Pieces.ofText cs).tail.take n).length = front.length + n := by
      rw [List.length_append, List.length_take_of_le hle]
    rw [String.toList_ofList, hmore, ← hlength]
    exact ⟨_, _, .unclosed hfront (unclosed_of_not_complete hnone), rfl⟩
  | accepted _ _ => cases hresult

end Interpolation

/-! ## Faults of a scan -/

namespace Scan

/-- What a fault that is met at the rest of a source blames: braces of the text or comment there, or
where the tag there goes on with neither an attribute nor its ending, which is behind its name. -/
inductive Blames (rest : List Char) : TemplateFault → List Char → List Char → Prop
  | marker {run after front culprit : List Char} {fault : TemplateFault} :
      Chunk.read rest = .ok (.text run, after) ∨ Chunk.read rest = .ok (.comment run, after) →
      Interpolation.Blames run fault front culprit → Blames rest fault front (culprit ++ after)
  | tag {isClose : Bool} {name between culprit : List Char} :
      rest = '<' :: ((if isClose then ['/'] else []) ++ (name ++ (between ++ culprit))) →
      (∀ c ∈ name, Chunk.isTagNameChar c = true) →
      (∀ c ∈ (between ++ culprit).head?, Chunk.isTagNameChar c = false) →
      ¬ Chunk.AttributeAt culprit → ¬ Chunk.EndingAt culprit →
      Blames rest
        (.lexical (.malformedTag isClose (String.ofList name)
          (String.ofList (culprit.take snippetLength))))
        ('<' :: ((if isClose then ['/'] else []) ++ (name ++ between))) culprit

variable {reader : TagReader} {rest : List Char} {fault : TemplateFault}

theorem Blames.append_eq {front culprit : List Char} (h : Blames rest fault front culprit) :
    rest = front ++ culprit := by
  cases h with
  | marker hread hblames =>
    rw [Chunk.read_verbatim hread, hblames.append_eq, List.append_assoc]
  | tag hrest _ _ _ _ => simp [hrest]

/-- The faults of a literal tag are about the meaning of its attributes. -/
theorem semantic_of_attributesYield {ending : String} {attributes : Attributes} {error : Error}
    (h : (attributesYield ending attributes).fault = some error) :
    ∃ semantic, error = Error.semantic semantic := by
  induction attributes with
  | nil => cases h
  | cons a attributes ih =>
    unfold attributesYield at h
    split at h
    · exact ih h
    · cases h
      exact ⟨_, rfl⟩

theorem fault_ofExcept {result : Except Error (List Part)} {error : Error}
    (h : (Yield.ofExcept result).fault = some error) : result = .error error := by
  cases result with
  | ok ps => cases h
  | error e => exact congrArg Except.error (Option.some.inj h)

section Places

variable {source before : List Char} {file : Option String} {location : Option Location}

/-- A place in an end of the source is counted from the start of the source. -/
theorem placeIn_append {front culprit : List Char} (h : source = before ++ (front ++ culprit))
    (n : Nat) : placeIn source file culprit n =
      some (Location.ofOffset source ((before.length + (front.length + n) : Nat) : Int) file) := by
  have hlength : source.length - culprit.length + n = before.length + (front.length + n) := by
    simp only [h, List.length_append]
    omega
  rw [placeIn, hlength]

/-- A text or a comment is refused for braces in it, or for an expression in them. -/
theorem blames_of_marker (hsource : source = before ++ rest) {position : Interpolation.Position}
    {run after : List Char}
    (hread : Chunk.read rest = .ok (.text run, after) ∨ Chunk.read rest = .ok (.comment run, after))
    (h : Interpolation.parts position Interpolation.builtin (placeIn source file rest) run =
      .error (.template fault location))
    (hplaced : fault.IsPlaced) :
    ∃ front culprit, Blames rest fault front culprit ∧ location =
      some (Location.ofOffset source ((before.length + front.length : Nat) : Int) file) := by
  obtain ⟨front, culprit, hblames, hlocation⟩ := Interpolation.blames_of_error h hplaced
  have hfront : placeIn source file rest front.length =
      some (Location.ofOffset source ((before.length + (0 + front.length) : Nat) : Int) file) :=
    @placeIn_append source before file [] rest hsource front.length
  rw [Nat.zero_add] at hfront
  exact ⟨front, _, .marker hread hblames, hlocation.trans hfront⟩

/-- A tag that does not end is refused for what stands behind its name and attributes. -/
theorem blames_of_malformed (hsource : source = before ++ rest) {m : Malformed}
    (hread : Chunk.read rest = .error m)
    (h : malformedFault (placeIn source file m.rest) m = .template fault location) :
    ∃ front culprit, Blames rest fault front culprit ∧ location =
      some (Location.ofOffset source ((before.length + front.length : Nat) : Int) file) := by
  obtain ⟨tail, hrest, htag⟩ := Chunk.read_error hread
  obtain ⟨name, between, hname, rfl, hchars, hnext, hattribute, hending⟩ :=
    Chunk.readTag_error htag
  have hblames := Blames.tag hrest hchars hnext hattribute hending
  rw [← hname] at hblames
  cases h
  exact ⟨_, _, hblames, placeIn_append (hblames.append_eq ▸ hsource) 0⟩

/-- A call is refused for what stands there, and the place is that of what is to blame. -/
theorem blames_of_refused (hsource : source = before ++ rest)
    (h : call reader (placeIn source file) rest = .refused (.template fault location))
    (hplaced : fault.IsPlaced) (hown : ∀ tag, reader tag ≠ .error (.template fault location)) :
    ∃ front culprit, Blames rest fault front culprit ∧ location =
      some (Location.ofOffset source ((before.length + front.length : Nat) : Int) file) := by
  have hne : rest ≠ [] := by
    rintro rfl
    cases h
  cases hread : Chunk.read rest with
  | error m =>
    rw [call_of_malformed hne hread] at h
    exact blames_of_malformed hsource hread (Call.refused.inj h)
  | ok found =>
    obtain ⟨chunk, after⟩ := found
    rw [call_of_read hne hread] at h
    split at h
    · rename_i error hfault
      cases h
      cases chunk with
      | text run =>
        exact blames_of_marker hsource (Or.inl hread) (fault_ofExcept hfault) hplaced
      | comment run =>
        exact blames_of_marker hsource (Or.inr hread) (fault_ofExcept hfault) hplaced
      | tag tag =>
        -- What the reader leaves as it is has faults of meaning only.
        change (tagYield reader tag).fault = _ at hfault
        unfold tagYield at hfault
        split at hfault
        · cases hfault
        · obtain ⟨semantic, hsemantic⟩ := semantic_of_attributesYield hfault
          exact absurd hplaced (TemplateFault.not_isPlaced_semantic hsemantic)
        · rename_i hrefused
          cases hfault
          exact absurd hrefused (hown tag)
    · cases h

end Places

/-- The calls of a scan that meets a fault take spans, up to the one that is refused. -/
theorem calls_of_fault {place : List Char → Interpolation.Locator} {cs : List Char} {error : Error}
    (h : (scanFrom reader place cs).fault = some error) :
    ∃ (taken : List (Span × List Char)) (rest : List Char),
      calls reader place cs =
        taken.map (fun (span, after) => .took span after) ++ [.refused error] ∧
      cs = taken.flatMap (·.1.chars) ++ rest ∧ call reader place rest = .refused error := by
  induction cs using scan_induction reader place with
  | finished =>
    rw [scanFrom_of_finished] at h
    cases h
  | took cs span after hcall ih =>
    rw [scanFrom_of_took hcall] at h
    obtain ⟨taken, rest, hcalls, hafter, hrefused⟩ := ih h
    refine ⟨(span, after) :: taken, rest, ?_, ?_, hrefused⟩
    · rw [calls_of_took hcall, hcalls]
      rfl
    · rw [(of_call_took hcall).1, List.flatMap_cons, List.append_assoc, ← hafter]
  | refused cs error' hcall =>
    rw [(scanFrom_of_refused hcall).2] at h
    cases h
    exact ⟨[], cs, calls_of_refused hcall, rfl, hcall⟩

/-- A scan that stops at braces or in a tag tells the place of what is to blame.

Every call before the one that is refused has taken its span.  The place is that of braces in the
text or comment behind these spans which nothing closes there, or of the expression that the fault
names, or else it is behind the name of the tag there, where neither an attribute nor an ending
stands, and the fault shows what does.  A reader of tags may refuse them for faults of its own. -/
theorem fault_located {reader : TagReader} (file : Option String) (source : List Char)
    {fault : TemplateFault} {location : Option Location}
    (hfault : (scanFrom reader (placeIn source file) source).fault =
      some (.template fault location))
    (hplaced : fault.IsPlaced) (hown : ∀ tag, reader tag ≠ .error (.template fault location)) :
    ∃ (taken : List (Span × List Char)) (before rest front culprit : List Char) (l : Location),
      calls reader (placeIn source file) source =
        taken.map (fun (span, after) => .took span after) ++
          [.refused (.template fault location)] ∧
      before = taken.flatMap (·.1.chars) ∧ source = before ++ rest ∧ rest = front ++ culprit ∧
      Blames rest fault front culprit ∧
      location = some l ∧ l.Marks source file (before.length + front.length) := by
  obtain ⟨taken, rest, hcalls, hsource, hrefused⟩ := calls_of_fault hfault
  obtain ⟨front, culprit, hblames, hlocation⟩ := blames_of_refused hsource hrefused hplaced hown
  have hrest := hblames.append_eq
  refine ⟨taken, _, rest, front, culprit, _, hcalls, rfl, hsource, hrest, hblames, hlocation, ?_⟩
  apply Location.ofOffset_marks
  conv_rhs => rw [hsource, hrest]
  simp only [List.length_append]
  omega

/-- Braces on the third line of a page, behind tags and a marker, and the tag of a loop that goes on
behind a slash. -/
theorem fault_located_page :
    (∃ before rest front culprit l, "<p>\n<b>\x7b\x7bok\x7d\x7d</b>\n  \x7b\x7bname</p>".toList =
        before ++ rest ∧ rest = front ++ culprit ∧
      Blames rest (.lexical (.unterminatedMarker "\x7b\x7bname")) front culprit ∧
      (ofSource Resolver.builtin (some "card.html")
        "<p>\n<b>\x7b\x7bok\x7d\x7d</b>\n  \x7b\x7bname</p>").fault =
          some (.template (.lexical (.unterminatedMarker "\x7b\x7bname")) (some l)) ∧
      l.Marks "<p>\n<b>\x7b\x7bok\x7d\x7d</b>\n  \x7b\x7bname</p>".toList (some "card.html")
        (before.length + front.length)) ∧
    ∃ before rest front culprit l, "\n<hc:loop iter=\"a\" / x>".toList = before ++ rest ∧
      rest = front ++ culprit ∧
      Blames rest (.lexical (.malformedTag false "hc:loop" "/ x>")) front culprit ∧
      (ofSource Resolver.builtin none "\n<hc:loop iter=\"a\" / x>").fault =
        some (.template (.lexical (.malformedTag false "hc:loop" "/ x>")) (some l)) ∧
      l.Marks "\n<hc:loop iter=\"a\" / x>".toList none (before.length + front.length) := by
  have hown : ∀ fault location tag,
      Resolver.builtin.resolve tag ≠ .error (.template fault location) := by
    intro fault location tag h
    obtain ⟨key, tagFault, hkind⟩ := Resolver.exists_tag_of_error h
    cases hkind
  constructor
  · have hfault : (ofSource Resolver.builtin (some "card.html")
        "<p>\n<b>\x7b\x7bok\x7d\x7d</b>\n  \x7b\x7bname</p>").fault =
          some (.template (.lexical (.unterminatedMarker "\x7b\x7bname"))
            (some ⟨3, 3, 20, some "card.html"⟩)) := by
      with_unfolding_all rfl
    obtain ⟨-, before, rest, front, culprit, l, -, -, hsource, hrest, hblames, hl, hmarks⟩ :=
      fault_located (some "card.html") _ hfault trivial (hown _ _)
    exact ⟨before, rest, front, culprit, l, hsource, hrest, hblames, hl ▸ hfault, hmarks⟩
  · have hfault : (ofSource Resolver.builtin none "\n<hc:loop iter=\"a\" / x>").fault =
        some (.template (.lexical (.malformedTag false "hc:loop" "/ x>"))
          (some ⟨2, 19, 19, none⟩)) := by
      with_unfolding_all rfl
    obtain ⟨-, before, rest, front, culprit, l, -, -, hsource, hrest, hblames, hl, hmarks⟩ :=
      fault_located none _ hfault trivial (hown _ _)
    exact ⟨before, rest, front, culprit, l, hsource, hrest, hblames, hl ▸ hfault, hmarks⟩

end Scan
end HtmlTemplate
