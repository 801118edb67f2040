import HtmlTemplate.Error
import HtmlTemplate.Path
import HtmlTemplate.Shape

/-!
# Scope — what names stand for while a template is read

A scope grows the shape of the context from the references of a template, one after another.
Each top-level name has a slot with the address that it stands for: a field of the context, or the
elements of a loop as long as the loop's binding is live.  Open blocks are frames, and the frame
of a loop remembers what its binding stood for before.
-/

namespace HtmlTemplate

/-- An open block.  The frame of a live loop binding remembers the address that the binding stands
for, and the one that it stood for before. -/
inductive Frame where
  | plain (hasElse : Bool)
  | binding (name : String) (address : Address) (previous : Option Address)
  deriving DecidableEq, Repr

/-- What top-level names stand for, in the order of their first mention. -/
abbrev Slots := List (String × Address)

namespace Slots

/-- Gives a name an address, in the place that it has already or at the end. -/
def set (name : String) (address : Address) : Slots → Slots
  | [] => [(name, address)]
  | (n, a) :: rest => if n = name then (n, address) :: rest else (n, a) :: set name address rest

def erase (name : String) (slots : Slots) : Slots := slots.filter (·.1 != name)

end Slots

structure Scope where
  shape : Shape
  slots : Slots
  frames : List Frame

namespace Scope

def empty : Scope := ⟨Shape.fresh, [], []⟩

/-- How many blocks are open. -/
def depth (s : Scope) : Nat := s.frames.length

/-- Whether the context itself is required. -/
def anyRequired (s : Scope) : Bool := s.shape.required

/-- What a name stands for, if it was mentioned. -/
def slot? (s : Scope) (name : String) : Option Address := s.slots.lookup name

/-- The node that a name stands for. -/
def node? (s : Scope) (name : String) : Option Shape := (s.slot? name).bind s.shape.at?

/-- Whether a name stands for the elements of a live loop. -/
def isLocal (s : Scope) (name : String) : Bool := (s.node? name).any fun n => 0 < n.bound

/-- The shape as it looks through the slots: with a live binding among the fields. -/
def view (s : Scope) : Shape :=
  .node s.shape.required s.shape.bound
    (s.slots.filterMap fun (name, address) =>
      (s.shape.at? address).map fun n => (Step.field name, n))

/-- The text of the shape. -/
def typeText (s : Scope) : String := s.view.text

/-! ## References -/

/-- The address that a name stands for from now on: a field of the context unless it has one. -/
def resolve (s : Scope) (name : String) : Address × Slots :=
  match s.slot? name with
  | some address => (address, s.slots)
  | none => ([.field name], s.slots ++ [(name, [.field name])])

/-- Records a path, and gives the address of its last node.  A required path marks the nodes that
it names, and the context if it starts there. -/
def record (s : Scope) (path : String) (required : Bool) : Address × Scope :=
  let names := Path.segments path
  let head := names.headD ""
  let rest := names.tail.map Step.field
  let fromContext := required && !s.isLocal head
  let (address, slots) := s.resolve head
  let shape := (s.shape.require fromContext).update (Shape.requireAlong required rest) address
  (address ++ rest, { s with shape, slots })

/-! ## Blocks -/

/-- Opens a block, unless too many are open. -/
def push (s : Scope) (frame : Frame) : Except StructureFault Scope :=
  if maxDepth ≤ s.depth then .error .tooDeep else .ok { s with frames := frame :: s.frames }

/-- Opens the block of a conditional. -/
def nestPlain (s : Scope) : Except StructureFault Scope := s.push (.plain false)

/-- Records an iterated path, and gives the address of its elements. -/
def recordIterated (s : Scope) (path : String) : Address × Scope :=
  let (address, s) := s.record path false
  let elements := address ++ [.element]
  (elements, { s with shape := s.shape.update id elements })

/-- Lets a name stand for an address, in a block of its own. -/
def bindName (s : Scope) (name : String) (address : Address) : Except StructureFault Scope := do
  let s ← s.push (.binding name address (s.slot? name))
  return { s with
    slots := s.slots.set name address
    shape := s.shape.update Shape.bind address }

/-- Opens a block over the elements of a path, which an empty binding leaves without a name.  The
path is recorded even if the block cannot be opened. -/
def nestIterable (s : Scope) (path binding : String) :
    Except TemplateFault Address × Scope :=
  if binding.toList.contains '.' then
    (.error (.semantic (.dottedBinding binding)), s)
  else
    let (elements, s) := s.recordIterated path
    let opened :=
      if binding.isEmpty then s.push (.plain false) else s.bindName binding elements
    match opened with
    | .ok s => (.ok elements, s)
    | .error fault => (.error (.structural fault), s)

/-- Ends the life of a frame's binding. -/
def release (s : Scope) : Frame → Scope
  | .plain _ => s
  | .binding name address previous =>
    { s with
      shape := s.shape.update Shape.unbind address
      slots :=
        match previous with
        | some before => s.slots.set name before
        | none => s.slots.erase name }

/-- Goes over to the other body of the innermost block, where its binding is not live. -/
def enterElse (s : Scope) : Except StructureFault Scope :=
  match s.frames with
  | [] => .error .strayElse
  | .plain true :: _ => .error .secondElse
  | frame :: rest =>
    let s := s.release frame
    .ok { s with frames := .plain true :: rest }

/-- Closes the innermost block. -/
def pop (s : Scope) : Except StructureFault Scope :=
  match s.frames with
  | [] => .error .strayClose
  | frame :: rest => .ok ({ s with frames := rest }.release frame)

/-- Refuses blocks that are left open. -/
def finish (s : Scope) : Except StructureFault Unit :=
  if s.frames.isEmpty then .ok () else .error (.leftOpen s.depth)

end Scope
end HtmlTemplate
