import HtmlTemplate.Proofs.Template.Admission
import HtmlTemplate.Proofs.Template.Recording
import Mathlib.Data.List.TakeWhile
import Mathlib.Logic.Function.Basic

/-!
# Substitution — templates with other texts at the heads of their paths

`Template.substitute` puts a text in the place of the first name of every path, as a map from names
to texts tells.  In the body of a loop the name that the loop binds stands for itself, whatever the
map says of it.  What is spelled like a template stays so (`Template.AdmittedAt.substitute`), and
loops keep their bindings (`Template.binds_substitute`).
-/

namespace HtmlTemplate

open Text

namespace Path

/-! ## Paths -/

/-- The first name of a path. -/
def head (path : String) : String := (segments path).headD ""

/-- What stands behind the first name of a path, from the dot on. -/
def behind (path : String) : String := String.ofList (path.toList.dropWhile (· != '.'))

/-- A path with another text in the place of its first name. -/
def substitute (σ : String → String) (path : String) : String := σ (head path) ++ behind path

theorem split_append_dot (text rest : List Char) :
    split (text ++ '.' :: rest) = split text ++ split rest := by
  induction text with
  | nil => rfl
  | cons c cs ih =>
    rw [List.cons_append, split, split, ih]
    split
    · rfl
    · obtain ⟨first, others, hcs⟩ := List.exists_cons_of_ne_nil (split_ne_nil cs)
      rw [hcs]
      rfl

theorem split_cons_of_ne {c : Char} (hc : c ≠ '.') {cs first : List Char} {rest : List (List Char)}
    (h : split cs = first :: rest) : split (c :: cs) = (c :: first) :: rest := by
  rw [split, if_neg (by simpa using hc), h]

/-- The first segment is what stands before the first dot. -/
theorem split_eq (cs : List Char) :
    split cs = cs.takeWhile (· != '.') :: (split cs).tail := by
  induction cs with
  | nil => rfl
  | cons c cs ih =>
    by_cases hc : c = '.'
    · subst hc
      rfl
    · rw [split_cons_of_ne hc ih, List.takeWhile_cons, if_pos (bne_iff_ne.2 hc), List.tail_cons]

/-- The other segments are those of what stands from the first dot on, whatever is before it. -/
theorem split_append_dropWhile (text cs : List Char) :
    split (text ++ cs.dropWhile (· != '.')) = split text ++ (split cs).tail := by
  induction cs with
  | nil => simp [split]
  | cons c cs ih =>
    by_cases hc : c = '.'
    · subst hc
      exact split_append_dot text cs
    · rw [split_cons_of_ne hc (split_eq cs), List.dropWhile_cons, if_pos (bne_iff_ne.2 hc), ih,
        List.tail_cons]

theorem segments_append_behind (text path : String) :
    segments (text ++ behind path) = segments text ++ (segments path).tail := by
  unfold segments behind
  rw [String.toList_append, String.toList_ofList, split_append_dropWhile, List.map_append,
    List.map_tail]

theorem segments_substitute (σ : String → String) (path : String) :
    segments (substitute σ path) = segments (σ (head path)) ++ (segments path).tail :=
  segments_append_behind _ path

theorem head_substitute (σ : String → String) (path : String) :
    head (substitute σ path) = head (σ (head path)) := by
  obtain ⟨first, rest, hσ⟩ := exists_segments (σ (head path))
  unfold head at hσ ⊢
  rw [segments_substitute]
  unfold head
  rw [hσ]
  rfl

/-- A path is its first name and what stands behind it. -/
theorem head_append_behind (path : String) : head path ++ behind path = path := by
  unfold head segments behind
  rw [split_eq path.toList, List.map_cons, List.headD_cons]
  apply String.toList_inj.1
  rw [String.toList_append, String.toList_ofList, String.toList_ofList,
    List.takeWhile_append_dropWhile]

theorem substitute_of_eq {σ : String → String} {path : String} (h : σ (head path) = head path) :
    substitute σ path = path := by
  unfold substitute
  rw [h, head_append_behind]

theorem segments_eq (path : String) : segments path = head path :: (segments path).tail := by
  obtain ⟨first, rest, hpath⟩ := exists_segments path
  unfold head
  rw [hpath]
  rfl

/-- The first name of a path is all that there is of it. -/
theorem head_head (path : String) : head (head path) = head path := by
  unfold head segments
  rw [split_eq path.toList, List.map_cons, List.headD_cons, split_eq (String.toList _),
    List.map_cons, List.headD_cons, String.toList_ofList, List.takeWhile_idem]

/-- A text is a path of one segment if it is spelled like one. -/
theorem segments_of_segment {name : String} (h : Segment name) : segments name = [name] := by
  have hname := segments_intercalate (List.cons_ne_nil name []) (List.forall_mem_singleton.2 h)
  rwa [String.intercalate_singleton] at hname

theorem head_of_segment {name : String} (h : Segment name) : head name = name := by
  unfold head
  rw [segments_of_segment h]
  rfl

/-! ## Spelling -/

theorem StartsProperly.of_append {a b : String} (h : StartsProperly (a ++ b)) :
    StartsProperly a := by
  intro c hc
  refine h c ?_
  rw [Option.mem_def] at hc ⊢
  rw [String.toList_append, List.head?_append, hc, Option.some_or]

theorem StartsProperly.append {a b : String} (h : StartsProperly a) (hne : a ≠ "") :
    StartsProperly (a ++ b) := by
  obtain ⟨c, cs, hcs⟩ := List.exists_cons_of_ne_nil (mt String.toList_eq_nil_iff.1 hne)
  intro d hd
  rw [String.toList_append, hcs, List.cons_append, List.head?_cons] at hd
  exact h d (by rwa [hcs, List.head?_cons])

theorem wellSpelled_of_segments {path : String} (hsegments : ∀ s ∈ segments path, Segment s)
    (hstart : StartsProperly path) : WellSpelled path :=
  ⟨⟨segments path, segments_ne_nil path, hsegments, (intercalate_segments path).symm⟩, hstart⟩

/-- A single segment is a path, if it may start one. -/
theorem wellSpelled_of_segment {name : String} (h : Segment name) (hstart : StartsProperly name) :
    WellSpelled name :=
  wellSpelled_of_segments (by simpa [segments_of_segment h] using h) hstart

theorem WellSpelled.head {path : String} (h : WellSpelled path) : WellSpelled (head path) := by
  have hmem : Path.head path ∈ Path.segments path := by
    rw [segments_eq]
    exact List.mem_cons_self
  refine wellSpelled_of_segment (h.segment _ hmem) (StartsProperly.of_append (b := behind path) ?_)
  rw [head_append_behind]
  exact h.start

/-- A path in the place of another's first name makes a path. -/
theorem WellSpelled.substitute {σ : String → String} {path : String} (h : WellSpelled path)
    (hσ : WellSpelled (σ (Path.head path))) : WellSpelled (substitute σ path) := by
  refine wellSpelled_of_segments ?_ (hσ.start.append hσ.ne_empty)
  rw [segments_substitute]
  refine List.forall_mem_append.2 ⟨hσ.segment, fun s hs => ?_⟩
  exact h.segment s (List.mem_of_mem_tail hs)

end Path

/-! ## Templates -/

section Substitution

variable (σ : String → String)

/-- Segments with the paths among them substituted, `literal` telling whether the first one is
text. -/
def substituteSegments : Bool → List String → List String
  | _, [] => []
  | true, text :: rest => text :: substituteSegments false rest
  | false, path :: rest => Path.substitute σ path :: substituteSegments true rest

def Insertion.substitute : Insertion → Insertion
  | raw text => raw text
  | body path => body (Path.substitute σ path)
  | comment path => comment (Path.substitute σ path)
  | composite segments => composite (substituteSegments σ true segments)
  | optional key path => optional key (Path.substitute σ path)
  | flag key path => flag key (Path.substitute σ path)

def Head.substitute : Head → Head
  | conditional path inverted emptiness => conditional (Path.substitute σ path) inverted emptiness
  | loop path binding => loop (Path.substitute σ path) binding

/-- What names stand for in the first body of a block: the element of a loop is what the name bound
to it stands for. -/
def Head.shadow : Head → String → String
  | conditional _ _ _ => σ
  | loop _ binding => Function.update σ binding binding

end Substitution

/-- A template with other texts in the place of the first names of paths. -/
def Template.substitute : (String → String) → Template → Template
  | _, done => done
  | σ, insert insertion rest => .insert (insertion.substitute σ) (rest.substitute σ)
  | σ, block head body rest =>
    .block (head.substitute σ) (body.substitute (head.shadow σ)) (rest.substitute σ)
  | σ, choice head body other rest =>
    .choice (head.substitute σ) (body.substitute (head.shadow σ)) (other.substitute σ)
      (rest.substitute σ)

/-! ## What is kept -/

section Kept

open Generate

variable {σ : String → String} {contextName : String}

theorem segmentPaths_substituteSegments (segments : List String) : ∀ literal : Bool,
    segmentPaths literal (substituteSegments σ literal segments) =
      (segmentPaths literal segments).map (Path.substitute σ) := by
  induction segments with
  | nil =>
    intro literal
    cases literal <;> rfl
  | cons segment rest ih =>
    intro literal
    cases literal with
    | true => exact ih false
    | false => exact congrArg (Path.substitute σ segment :: ·) (ih true)

theorem length_substituteSegments (segments : List String) : ∀ literal : Bool,
    (substituteSegments σ literal segments).length = segments.length := by
  induction segments with
  | nil =>
    intro literal
    cases literal <;> rfl
  | cons segment rest ih =>
    intro literal
    cases literal <;> exact congrArg (· + 1) (ih _)

theorem Insertion.paths_substitute (insertion : Insertion) :
    (insertion.substitute σ).part.paths = insertion.part.paths.map (Path.substitute σ) := by
  cases insertion with
  | composite segments => exact segmentPaths_substituteSegments segments true
  | _ => rfl

theorem Head.paths_substitute (head : Head) :
    (head.substitute σ).part.paths = head.part.paths.map (Path.substitute σ) := by
  cases head <;> rfl

/-- A loop keeps its binding. -/
theorem Head.loop_substitute {head : Head} {path binding : String}
    (h : (head.substitute σ).part = .loop path binding) :
    ∃ other, head.part = .loop other binding := by
  cases head with
  | conditional _ _ _ => cases h
  | loop other _ =>
    cases h
    exact ⟨other, rfl⟩

theorem Insertion.part_ne_loop (insertion : Insertion) (path binding : String) :
    insertion.part ≠ .loop path binding := by
  cases insertion <;> exact Part.noConfusion

variable (hσ : ∀ name, Path.WellSpelled name → Path.WellSpelled (σ name))

include hσ

theorem forall_wellSpelled_substitute {paths : List String}
    (h : ∀ path ∈ paths, Path.WellSpelled path) :
    ∀ path ∈ paths.map (Path.substitute σ), Path.WellSpelled path :=
  List.forall_mem_map.2 fun path hp => (h path hp).substitute (hσ _ (h path hp).head)

theorem Part.Spelled.substitute_insertion {insertion : Insertion}
    (h : insertion.part.Spelled contextName) :
    (insertion.substitute σ).part.Spelled contextName := by
  rw [Part.spelled_iff (Insertion.part_ne_loop _), Insertion.paths_substitute]
  exact forall_wellSpelled_substitute hσ h.paths

theorem Part.Spelled.substitute_head {head : Head} (h : head.part.Spelled contextName) :
    (head.substitute σ).part.Spelled contextName where
  paths := by
    rw [Head.paths_substitute]
    exact forall_wellSpelled_substitute hσ h.paths
  binding := by
    intro path binding he
    obtain ⟨other, hloop⟩ := Head.loop_substitute he
    exact h.binding other binding hloop

omit hσ in
theorem Head.wellSpelled_shadow (hσ : ∀ name, Path.WellSpelled name → Path.WellSpelled (σ name))
    (head : Head) : ∀ name, Path.WellSpelled name → Path.WellSpelled (head.shadow σ name) := by
  intro name hname
  cases head with
  | conditional _ _ _ => exact hσ name hname
  | loop path binding =>
    by_cases h : name = binding
    · subst h
      rwa [Head.shadow, Function.update_self]
    · rw [Head.shadow, Function.update_of_ne h]
      exact hσ name hname

omit hσ in
/-- What is spelled like a template is so with other paths in the place of first names. -/
theorem Template.AdmittedAt.substitute {t : Template} : ∀ {σ : String → String} {depth : Nat},
    (∀ name, Path.WellSpelled name → Path.WellSpelled (σ name)) →
    t.AdmittedAt contextName depth → (t.substitute σ).AdmittedAt contextName depth := by
  induction t with
  | done =>
    intro σ depth _ _
    trivial
  | insert insertion rest ih =>
    rintro σ depth hσ ⟨hfirst, hrest⟩
    exact ⟨hfirst.substitute_insertion hσ, ih hσ hrest⟩
  | block head body rest ihbody ihrest =>
    rintro σ depth hσ ⟨⟨hhead, hdepth⟩, hbody, hrest⟩
    exact ⟨⟨hhead.substitute_head hσ, hdepth⟩, ihbody (head.wellSpelled_shadow hσ) hbody,
      ihrest hσ hrest⟩
  | choice head body other rest ihbody ihother ihrest =>
    rintro σ depth hσ ⟨⟨hhead, hdepth⟩, hbody, hother, hrest⟩
    exact ⟨⟨hhead.substitute_head hσ, hdepth⟩, ihbody (head.wellSpelled_shadow hσ) hbody,
      ihother hσ hother, ihrest hσ hrest⟩

end Kept

/-! ## Soundness -/

theorem Insertion.Sound.substitute {σ : String → String} {insertion : Insertion}
    (h : insertion.Sound) : (insertion.substitute σ).Sound := by
  cases insertion with
  | composite segments =>
    unfold Insertion.Sound at h
    rwa [Insertion.substitute, Insertion.Sound, length_substituteSegments]
  | _ => trivial

theorem Head.Sound.substitute {σ : String → String} {head : Head} (h : head.Sound) :
    (head.substitute σ).Sound := by
  cases head with
  | conditional _ _ _ => trivial
  | loop path binding => exact h

theorem Template.Sound.substitute {t : Template} : ∀ {σ : String → String},
    t.Sound → (t.substitute σ).Sound := by
  induction t with
  | done =>
    intro σ _
    trivial
  | insert insertion rest ih =>
    rintro σ ⟨hfirst, hrest⟩
    exact ⟨hfirst.substitute, ih hrest⟩
  | block head body rest ihbody ihrest =>
    rintro σ ⟨hhead, hbody, hrest⟩
    exact ⟨hhead.substitute, ihbody hbody, ihrest hrest⟩
  | choice head body other rest ihbody ihother ihrest =>
    rintro σ ⟨hhead, hbody, hother, hrest⟩
    exact ⟨hhead.substitute, ihbody hbody, ihother hother, ihrest hrest⟩

/-! ## Bindings -/

/-- Whether one of the loops of a template has a binding. -/
def Template.Binds (t : Template) (binding : String) : Prop :=
  ∃ path, Part.loop path binding ∈ t.parts

/-- Whether a block is a loop with a binding. -/
def Head.Binds (head : Head) (binding : String) : Prop := ∃ path, head.part = .loop path binding

namespace Template

variable {head : Head} {body other rest : Template} {binding : String}

theorem mem_parts_block {p : Part} : p ∈ (block head body rest).parts ↔
    p = head.part ∨ p ∈ body.parts ∨ p = .close ∨ p ∈ rest.parts := by
  simp [parts]

theorem mem_parts_choice {p : Part} : p ∈ (choice head body other rest).parts ↔
    p = head.part ∨ p ∈ body.parts ∨ p = .otherwise ∨ p ∈ other.parts ∨ p = .close ∨
      p ∈ rest.parts := by
  simp [parts]

theorem binds_insert {insertion : Insertion} :
    (insert insertion rest).Binds binding ↔ rest.Binds binding := by
  refine exists_congr fun path => ?_
  rw [parts, List.mem_cons]
  exact or_iff_right (insertion.part_ne_loop path binding).symm

theorem binds_block : (block head body rest).Binds binding ↔
    head.Binds binding ∨ body.Binds binding ∨ rest.Binds binding := by
  simp only [Binds, Head.Binds, mem_parts_block, exists_or, eq_comm]
  simp

theorem binds_choice : (choice head body other rest).Binds binding ↔
    head.Binds binding ∨ body.Binds binding ∨ other.Binds binding ∨ rest.Binds binding := by
  simp only [Binds, Head.Binds, mem_parts_choice, exists_or, eq_comm]
  simp

/-- Loops keep their bindings. -/
theorem binds_substitute {t : Template} : ∀ {σ : String → String},
    (t.substitute σ).Binds binding ↔ t.Binds binding := by
  have hhead : ∀ (head : Head) (σ : String → String),
      (head.substitute σ).Binds binding ↔ head.Binds binding := by
    intro head σ
    cases head <;> simp [Head.Binds, Head.substitute, Head.part]
  induction t with
  | done =>
    intro σ
    exact Iff.rfl
  | insert insertion rest ih =>
    intro σ
    rw [substitute, binds_insert, binds_insert, ih]
  | block head body rest ihbody ihrest =>
    intro σ
    rw [substitute, binds_block, binds_block, hhead, ihbody, ihrest]
  | choice head body other rest ihbody ihother ihrest =>
    intro σ
    rw [substitute, binds_choice, binds_choice, hhead, ihbody, ihother, ihrest]

end Template

end HtmlTemplate
