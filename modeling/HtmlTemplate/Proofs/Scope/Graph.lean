import HtmlTemplate.Proofs.Scope.Operation
import Mathlib.Logic.ExistsUnique
import Mathlib.Logic.Relation

/-!
# Graph — the calls to a scope, carried out on nodes that point at each other

A scope keeps a tree, and addresses in it for what names stand for.  The same calls can be carried
out on a store of nodes that point at each other by their numbers.  A live binding is then one more
edge, from the root to a node further down, that takes the place of a field of the root; the block
of the binding keeps what the field pointed at before.  This module has the store, the calls, the
text that is read off the nodes, and what it means that edges lead into no circle or make a tree.
-/

namespace HtmlTemplate

/-- A node: its marks, the fields in the order of first reference, and the elements. -/
structure ShapeGraph.Node where
  required : Bool := false
  bound : Nat := 0
  fields : List (String × Nat) := []
  element : Option Nat := none
  deriving DecidableEq, Repr

/-- An open block.  The block of a live binding keeps the node that the binding points at, and the
one that the field of this name pointed at before. -/
inductive ShapeGraph.Block where
  | plain (hasElse : Bool)
  | binding (name : String) (node : Nat) (previous : Option Nat)
  deriving DecidableEq, Repr

/-- Nodes by their numbers, the root first, and the open blocks, the innermost first. -/
structure ShapeGraph where
  nodes : List ShapeGraph.Node
  blocks : List ShapeGraph.Block
  deriving DecidableEq, Repr

namespace ShapeGraph

/-- Why a call is not carried out: a scope refuses it, or the field of a binding does not point any
more at what the binding's block keeps. -/
inductive Fault where
  | refused (fault : TemplateFault)
  | clobbered (name : String)
  deriving DecidableEq, Repr

/-! ## Nodes -/

namespace Node

def require (required : Bool) (n : Node) : Node := { n with required := n.required || required }

def bind (n : Node) : Node := { n with bound := n.bound + 1 }

def unbind (n : Node) : Node := { n with bound := n.bound - 1 }

/-- Where a step from the node leads to. -/
def child? (n : Node) : Step → Option Nat
  | .field name => n.fields.lookup name
  | .element => n.element

/-- A new step from the node. -/
def attach (child : Nat) (n : Node) : Step → Node
  | .field name => { n with fields := n.fields ++ [(name, child)] }
  | .element => { n with element := some child }

end Node

/-- The fields of a node, with one that points at another node than before. -/
def setField (name : String) (node : Nat) : List (String × Nat) → List (String × Nat)
  | [] => [(name, node)]
  | (n, c) :: rest => if n = name then (n, node) :: rest else (n, c) :: setField name node rest

/-- The fields of a node, with one as it was before: without it, if it was not there. -/
def restoreField (name : String) (previous : Option Nat) (fields : List (String × Nat)) :
    List (String × Nat) :=
  match previous with
  | some before => setField name before fields
  | none => fields.filter (·.1 != name)

def empty : ShapeGraph := ⟨[{}], []⟩

/-- A node by its number. -/
def node (g : ShapeGraph) (id : Nat) : Node := g.nodes.getD id {}

def modify (g : ShapeGraph) (id : Nat) (f : Node → Node) : ShapeGraph :=
  { g with nodes := g.nodes.modify id f }

/-- Changes the fields of the root. -/
def modifyRoot (g : ShapeGraph) (f : List (String × Nat) → List (String × Nat)) : ShapeGraph :=
  g.modify 0 fun n => { n with fields := f n.fields }

/-- Makes a node that a step from another one leads to. -/
def grow (g : ShapeGraph) (id : Nat) (step : Step) : ShapeGraph :=
  { g with nodes := g.nodes.modify id (Node.attach g.nodes.length · step) ++ [{}] }

/-- The node that a step leads to, made if it is not there. -/
def child (g : ShapeGraph) (id : Nat) (step : Step) : Nat × ShapeGraph :=
  match (g.node id).child? step with
  | some child => (child, g)
  | none => (g.nodes.length, g.grow id step)

/-! ## Observations -/

/-- How many blocks are open. -/
def depth (g : ShapeGraph) : Nat := g.blocks.length

/-- Whether the context itself is required. -/
def anyRequired (g : ShapeGraph) : Bool := (g.node 0).required

/-- Whether the root has a field that is a live binding. -/
def isLocal (g : ShapeGraph) (name : String) : Bool :=
  ((g.node 0).child? (.field name)).any fun id => 0 < (g.node id).bound

/-- The text of a node, if it can be read off without going more than `depth` nodes down. -/
def describe (g : ShapeGraph) : Nat → String → Nat → Option String
  | 0, _, _ => none
  | depth + 1, indent, id => do
    let inner := indent ++ Shape.margin
    let fields ← (g.node id).fields.mapM fun field => do
      let text ← g.describe depth inner field.2
      return Shape.fieldLine inner field.1 (g.node field.2).required text
    let elements ← (g.node id).element.toList.mapM fun child => do
      return Shape.elementLine inner (← g.describe depth inner child)
    return Shape.bracket indent (fields ++ elements)

/-! ## Calls -/

/-- Follows fields from a node, and marks those nodes that they lead to. -/
def walk (required : Bool) (id : Nat) : List String → ShapeGraph → Nat × ShapeGraph
  | [], g => (id, g)
  | name :: rest, g =>
    let (child, g) := g.child id (.field name)
    walk required child rest (g.modify child (Node.require required))

/-- Records a path from the root, and gives its last node. -/
def record (g : ShapeGraph) (path : String) (required : Bool) : Nat × ShapeGraph :=
  let names := Path.segments path
  let fromContext := required && !g.isLocal (names.headD "")
  walk required 0 names (g.modify 0 (Node.require fromContext))

/-- Records an iterated path, and gives the node of its elements. -/
def recordIterated (g : ShapeGraph) (path : String) : Nat × ShapeGraph :=
  let (id, g) := g.record path false
  g.child id .element

/-- Opens a block, unless too many are open. -/
def push (g : ShapeGraph) (block : Block) : Except StructureFault ShapeGraph :=
  if maxDepth ≤ g.depth then .error .tooDeep else .ok { g with blocks := block :: g.blocks }

/-- Lets a field of the root point at a node, in a block of its own. -/
def bindName (g : ShapeGraph) (name : String) (id : Nat) : Except StructureFault ShapeGraph := do
  let g ← g.push (.binding name id ((g.node 0).child? (.field name)))
  return (g.modifyRoot (setField name id)).modify id Node.bind

/-- Opens a block over the elements of a path. -/
def nestIterable (g : ShapeGraph) (path binding : String) : Except Fault Nat × ShapeGraph :=
  if binding.toList.contains '.' then
    (.error (.refused (.semantic (.dottedBinding binding))), g)
  else
    let (elements, g) := g.recordIterated path
    let opened :=
      if binding.isEmpty then g.push (.plain false) else g.bindName binding elements
    match opened with
    | .ok g => (.ok elements, g)
    | .error fault => (.error (.refused (.structural fault)), g)

/-- Ends the life of a block's binding, whose field must still point at the binding's node. -/
def release (g : ShapeGraph) : Block → Except Fault ShapeGraph
  | .plain _ => .ok g
  | .binding name id previous =>
    if (g.node 0).child? (.field name) = some id then
      .ok ((g.modify id Node.unbind).modifyRoot (restoreField name previous))
    else .error (.clobbered name)

/-- The answer to a step, which leaves the graph as it is if it is not carried out. -/
def orStay (g : ShapeGraph) : Except Fault ShapeGraph → Except Fault Unit × ShapeGraph
  | .ok next => (.ok (), next)
  | .error fault => (.error fault, g)

/-- Goes over to the other body of the innermost block. -/
def enterElse (g : ShapeGraph) : Except Fault Unit × ShapeGraph :=
  match g.blocks with
  | [] => (.error (.refused (.structural .strayElse)), g)
  | .plain true :: _ => (.error (.refused (.structural .secondElse)), g)
  | block :: rest =>
    g.orStay ((g.release block).map fun next => { next with blocks := .plain true :: rest })

/-- Closes the innermost block. -/
def pop (g : ShapeGraph) : Except Fault Unit × ShapeGraph :=
  match g.blocks with
  | [] => (.error (.refused (.structural .strayClose)), g)
  | block :: rest =>
    let g := { g with blocks := rest }
    g.orStay (g.release block)

/-- The answer to a call, and the graph behind it. -/
def perform (g : ShapeGraph) : Operation → Except Fault Unit × ShapeGraph
  | .record path required => (.ok (), (g.record path required).2)
  | .nestIterable path binding =>
    ((g.nestIterable path binding).1.map fun _ => (), (g.nestIterable path binding).2)
  | .nestPlain =>
    g.orStay ((g.push (.plain false)).mapError fun fault => .refused (.structural fault))
  | .enterElse => g.enterElse
  | .pop => g.pop
  | .finish =>
    (if g.blocks.isEmpty then .ok () else .error (.refused (.structural (.leftOpen g.depth))), g)

/-- The graph behind a sequence of calls, whatever the answers were. -/
def run (g : ShapeGraph) (operations : List Operation) : ShapeGraph :=
  operations.foldl (fun g operation => (g.perform operation).2) g

/-! ## Edges -/

/-- Whether a node has a step to another one. -/
def Edge (g : ShapeGraph) (id : Nat) (step : Step) (child : Nat) : Prop :=
  (g.node id).child? step = some child

def Leads (g : ShapeGraph) (id child : Nat) : Prop := ∃ step, g.Edge id step child

/-- Whether no way along edges leads back to where it started. -/
def Acyclic (g : ShapeGraph) : Prop := ∀ id, ¬ Relation.TransGen g.Leads id id

/-- Whether the edges make the nodes a tree. -/
structure IsTree (g : ShapeGraph) : Prop where
  /-- No edge leads to the root. -/
  root : ∀ id, ¬ g.Leads id 0
  /-- Every other node has one parent, which leads to it by one step. -/
  parent : ∀ id, 0 < id → id < g.nodes.length → ∃! edge : Nat × Step, g.Edge edge.1 edge.2 id
  /-- Every node can be reached from the root. -/
  reached : ∀ id < g.nodes.length, Relation.ReflTransGen g.Leads 0 id
  /-- Edges lead to nodes of the graph. -/
  within : ∀ id child, g.Leads id child → child < g.nodes.length

/-- The fields of the root when the bindings of blocks are undone, the innermost first. -/
def undoFields : List Block → List (String × Nat) → List (String × Nat)
  | [], fields => fields
  | .plain _ :: rest, fields => undoFields rest fields
  | .binding name _ previous :: rest, fields =>
    undoFields rest (restoreField name previous fields)

/-- The graph without live bindings. -/
def undone (g : ShapeGraph) : ShapeGraph :=
  { g.modifyRoot (undoFields g.blocks) with blocks := [] }

end ShapeGraph
end HtmlTemplate
