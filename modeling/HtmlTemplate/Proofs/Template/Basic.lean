import HtmlTemplate.Part

/-!
# Template — parts as a tree of blocks

A sequence of parts whose blocks match up is a tree: `Template.ofParts?` builds it from right to
left, and `Template.parts` writes it out again.  Each is the inverse of the other
(`Template.ofParts?_eq_some_iff`).
-/

namespace HtmlTemplate

/-- A part that inserts text where it stands. -/
inductive Insertion where
  | raw (text : String)
  | body (path : String)
  | comment (path : String)
  | composite (segments : List String)
  | optional (key path : String)
  | flag (key path : String)
  deriving DecidableEq, Repr

/-- A part that opens a block. -/
inductive Head where
  | conditional (path : String) (inverted emptiness : Bool)
  | loop (path binding : String)
  deriving DecidableEq, Repr

/-- The parts up to the end of a body: a block has one body of its own, or a choice of two. -/
inductive Template where
  | done
  | insert (insertion : Insertion) (rest : Template)
  | block (head : Head) (body rest : Template)
  | choice (head : Head) (body other rest : Template)
  deriving DecidableEq, Repr

def Insertion.part : Insertion → Part
  | raw text => .raw text
  | body path => .body path
  | comment path => .comment path
  | composite segments => .composite segments
  | optional key path => .optional key path
  | flag key path => .flag key path

def Head.part : Head → Part
  | conditional path inverted emptiness => .conditional path inverted emptiness
  | loop path binding => .loop path binding

/-- A part inserts text, opens a block, stands between blocks' bodies or ends, or has no code. -/
theorem Part.kinds (p : Part) : (∃ insertion : Insertion, p = insertion.part) ∨
    (∃ head : Head, p = head.part) ∨ p = .otherwise ∨ p = .close ∨ ∃ kind, p = .foreign kind := by
  cases p with
  | raw text => exact Or.inl ⟨.raw text, rfl⟩
  | body path => exact Or.inl ⟨.body path, rfl⟩
  | comment path => exact Or.inl ⟨.comment path, rfl⟩
  | composite segments => exact Or.inl ⟨.composite segments, rfl⟩
  | optional key path => exact Or.inl ⟨.optional key path, rfl⟩
  | flag key path => exact Or.inl ⟨.flag key path, rfl⟩
  | conditional path inverted emptiness =>
    exact Or.inr (Or.inl ⟨.conditional path inverted emptiness, rfl⟩)
  | loop path binding => exact Or.inr (Or.inl ⟨.loop path binding, rfl⟩)
  | otherwise => exact Or.inr (Or.inr (Or.inl rfl))
  | close => exact Or.inr (Or.inr (Or.inr (Or.inl rfl)))
  | foreign kind => exact Or.inr (Or.inr (Or.inr (Or.inr ⟨kind, rfl⟩)))

namespace Template

/-- The parts that a tree stands for. -/
def parts : Template → List Part
  | done => []
  | insert insertion rest => insertion.part :: rest.parts
  | block head body rest => head.part :: body.parts ++ .close :: rest.parts
  | choice head body other rest =>
    head.part :: body.parts ++ .otherwise :: other.parts ++ .close :: rest.parts

/-! ## Building -/

/-- What follows a body: the end of its block, or the other body first. -/
inductive Continuation where
  | closed (rest : Template)
  | alternative (other rest : Template)

namespace Continuation

/-- The block of a body, and what follows it. -/
def block (head : Head) (body : Template) : Continuation → Template
  | closed rest => .block head body rest
  | alternative other rest => .choice head body other rest

def parts : Continuation → List Part
  | closed rest => .close :: rest.parts
  | alternative other rest => .otherwise :: other.parts ++ .close :: rest.parts

end Continuation

/-- A body, and what follows it in the blocks around it. -/
structure Suffix where
  body : Template
  around : List Continuation

namespace Suffix

/-- Puts an insertion in front of a body. -/
def insert (insertion : Insertion) (s : Suffix) : Suffix :=
  ⟨.insert insertion s.body, s.around⟩

/-- Opens a block in front of a body. -/
def enter? (head : Head) (s : Suffix) : Option Suffix :=
  match s.around with
  | [] => none
  | continuation :: around => some ⟨continuation.block head s.body, around⟩

/-- Puts a part in front of a body, if it can stand there. -/
def cons? (p : Part) (s : Suffix) : Option Suffix :=
  match p with
  | .raw text => some (s.insert (.raw text))
  | .body path => some (s.insert (.body path))
  | .comment path => some (s.insert (.comment path))
  | .composite segments => some (s.insert (.composite segments))
  | .optional key path => some (s.insert (.optional key path))
  | .flag key path => some (s.insert (.flag key path))
  | .conditional path inverted emptiness => s.enter? (.conditional path inverted emptiness)
  | .loop path binding => s.enter? (.loop path binding)
  | .otherwise =>
    match s.around with
    | .closed rest :: around => some ⟨.done, .alternative s.body rest :: around⟩
    | _ => none
  | .close => some ⟨.done, .closed s.body :: s.around⟩
  | .foreign _ => none

/-- The body that parts start with. -/
def ofParts? : List Part → Option Suffix
  | [] => some ⟨.done, []⟩
  | p :: rest => (ofParts? rest).bind (cons? p)

/-- The parts of the body and of what follows it. -/
def parts (s : Suffix) : List Part := s.body.parts ++ s.around.flatMap Continuation.parts

@[simp] theorem cons?_insertion (insertion : Insertion) (s : Suffix) :
    s.cons? insertion.part = some (s.insert insertion) := by
  cases insertion <;> rfl

@[simp] theorem cons?_head (head : Head) (s : Suffix) : s.cons? head.part = s.enter? head := by
  cases head <;> rfl

end Suffix

/-- The tree of parts whose blocks match up. -/
def ofParts? (ps : List Part) : Option Template :=
  match Suffix.ofParts? ps with
  | some ⟨t, []⟩ => some t
  | _ => none

/-! ## Both ways -/

namespace Suffix

theorem parts_enter {head : Head} {s t : Suffix} (h : s.enter? head = some t) :
    t.parts = head.part :: s.parts := by
  obtain ⟨body, around⟩ := s
  cases around with
  | nil => cases h
  | cons continuation around =>
    cases h
    cases continuation <;>
      simp [Suffix.parts, Continuation.block, Continuation.parts, Template.parts]

theorem parts_cons {p : Part} {s t : Suffix} (h : s.cons? p = some t) :
    t.parts = p :: s.parts := by
  cases p with
  | conditional path inverted emptiness => exact parts_enter h
  | loop path binding => exact parts_enter h
  | otherwise =>
    obtain ⟨body, around⟩ := s
    cases around with
    | nil => cases h
    | cons continuation around =>
      cases continuation with
      | closed rest =>
        cases h
        simp [Suffix.parts, Continuation.parts, Template.parts]
      | alternative other rest => cases h
  | close =>
    cases h
    simp [Suffix.parts, Continuation.parts, Template.parts]
  | foreign kind => cases h
  | _ =>
    cases h
    rfl

theorem parts_of_ofParts? {ps : List Part} {s : Suffix} (h : ofParts? ps = some s) :
    s.parts = ps := by
  induction ps generalizing s with
  | nil =>
    cases h
    rfl
  | cons p rest ih =>
    obtain ⟨t, ht, hs⟩ := Option.bind_eq_some_iff.1 h
    rw [parts_cons hs, ih ht]

/-- A tree in front of parts is the body that they start with, up to the tree's end. -/
theorem ofParts?_append (t : Template) {ps : List Part} {around : List Continuation}
    (h : ofParts? ps = some ⟨.done, around⟩) : ofParts? (t.parts ++ ps) = some ⟨t, around⟩ := by
  induction t generalizing ps around with
  | done => exact h
  | insert insertion rest ih =>
    rw [Template.parts, List.cons_append, ofParts?, ih h]
    exact cons?_insertion insertion _
  | block head body rest ihbody ihrest =>
    -- Trees are built from the end of the parts, so what stands behind the body comes first.
    have hclose : ofParts? (.close :: (rest.parts ++ ps)) = some ⟨.done, .closed rest :: around⟩ := by
      rw [ofParts?, ihrest h]
      rfl
    rw [Template.parts, List.cons_append, List.cons_append, List.append_assoc, List.cons_append,
      ofParts?, ihbody hclose, Option.bind_some, cons?_head]
    rfl
  | choice head body other rest ihbody ihother ihrest =>
    have hclose : ofParts? (.close :: (rest.parts ++ ps)) = some ⟨.done, .closed rest :: around⟩ := by
      rw [ofParts?, ihrest h]
      rfl
    have hother : ofParts? (.otherwise :: (other.parts ++ .close :: (rest.parts ++ ps))) =
        some ⟨.done, .alternative other rest :: around⟩ := by
      rw [ofParts?, ihother hclose]
      rfl
    have hbody := ihbody hother
    rw [Template.parts]
    simp only [List.cons_append, List.append_assoc]
    rw [ofParts?, hbody, Option.bind_some, cons?_head]
    rfl

theorem exists_of_append (ps : List Part) {qs : List Part} {s : Suffix}
    (h : ofParts? (ps ++ qs) = some s) : ∃ t, ofParts? qs = some t := by
  induction ps generalizing s with
  | nil => exact ⟨s, h⟩
  | cons p ps ih =>
    obtain ⟨t, ht, -⟩ := Option.bind_eq_some_iff.1 h
    exact ih ht

/-- A body reaches up to the first part that ends one in its own block. -/
theorem body_of_append {t : Template} {p : Part} {ps : List Part} {s : Suffix}
    (hp : p = .close ∨ p = .otherwise) (h : ofParts? (t.parts ++ p :: ps) = some s) :
    s.body = t := by
  obtain ⟨u, hu⟩ := exists_of_append _ h
  have hdone : u.body = .done := by
    obtain ⟨v, -, hv⟩ := Option.bind_eq_some_iff.1 hu
    obtain rfl | rfl := hp
    · cases hv
      rfl
    · obtain ⟨body, around⟩ := v
      cases around with
      | nil => cases hv
      | cons continuation around =>
        cases continuation with
        | closed rest =>
          cases hv
          rfl
        | alternative other rest => cases hv
  obtain ⟨body, around⟩ := u
  obtain rfl : body = .done := hdone
  obtain rfl := Option.some.inj ((ofParts?_append t hu).symm.trans h)
  rfl

end Suffix

/-- The tree of parts is the one that they are written out from. -/
theorem ofParts?_eq_some_iff {ps : List Part} {t : Template} :
    ofParts? ps = some t ↔ t.parts = ps := by
  unfold ofParts?
  constructor
  · intro h
    split at h
    · rename_i body hs
      cases h
      have hparts := Suffix.parts_of_ofParts? hs
      simpa [Suffix.parts] using hparts
    · cases h
  · rintro rfl
    have hnil : Suffix.ofParts? [] = some ⟨.done, []⟩ := rfl
    have h := Suffix.ofParts?_append t hnil
    rw [List.append_nil] at h
    rw [h]

/-- A tree is the only one with its parts. -/
theorem eq_of_ofParts? {t u : Template} (h : ofParts? t.parts = some u) : t = u :=
  Option.some.inj ((ofParts?_eq_some_iff.2 rfl).symm.trans h)

end Template
end HtmlTemplate
