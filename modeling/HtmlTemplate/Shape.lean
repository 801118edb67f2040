import HtmlTemplate.Text.Key

/-!
# Shape — what a template expects of its context

A shape is a tree.  From a node lead its fields, in the order of first reference, and, if the node
is iterated, a step to the elements.  Nodes are found by addresses, sequences of steps from the
root, and come into being when an address is first walked.
-/

namespace HtmlTemplate

open Text

inductive Step where
  | field (name : String)
  | element
  deriving DecidableEq, Repr

abbrev Address := List Step

/-- A node: whether some reference requires it, how many live loop bindings stand for it, and what
its steps lead to. -/
inductive Shape where
  | node (required : Bool) (bound : Nat) (children : List (Step × Shape))

namespace Shape

/-- A node that nothing is known of. -/
def fresh : Shape := node false 0 []

def required : Shape → Bool
  | node r _ _ => r

def bound : Shape → Nat
  | node _ b _ => b

def children : Shape → List (Step × Shape)
  | node _ _ c => c

/-- The names of the fields in the order of first reference. -/
def fieldNames (s : Shape) : List String :=
  s.children.filterMap fun
    | (.field name, _) => some name
    | (.element, _) => none

/-- The child at a step. -/
def child? (s : Shape) (step : Step) : Option Shape := s.children.lookup step

/-- Whether the node is iterated. -/
def isIterated (s : Shape) : Bool := (s.child? .element).isSome

/-- The node at an address. -/
def at? (s : Shape) : Address → Option Shape
  | [] => some s
  | step :: rest => (s.child? step).bind (·.at? rest)

/-! ## Changes -/

/-- Changes the child at a step; a child that is not there yet is fresh and comes last. -/
def updateChildren (step : Step) (f : Shape → Shape) :
    List (Step × Shape) → List (Step × Shape)
  | [] => [(step, f fresh)]
  | (s, c) :: rest => if s = step then (s, f c) :: rest else (s, c) :: updateChildren step f rest

def updateChild (step : Step) (f : Shape → Shape) : Shape → Shape
  | node r b c => node r b (updateChildren step f c)

/-- Changes the node at an address, making the nodes on the way. -/
def update (f : Shape → Shape) : Address → Shape → Shape
  | [], s => f s
  | step :: rest, s => s.updateChild step (update f rest)

/-- Marks a node as required, if it is to be. -/
def require (required : Bool) : Shape → Shape
  | node r b c => node (r || required) b c

/-- Marks a node and those along an address from it. -/
def requireAlong (required : Bool) : Address → Shape → Shape
  | [], s => s.require required
  | step :: rest, s => (s.require required).updateChild step (requireAlong required rest)

def bind : Shape → Shape
  | node r b c => node r (b + 1) c

def unbind : Shape → Shape
  | node r b c => node r (b - 1) c

/-! ## Text -/

/-- The step of the indentation. -/
def margin : String := "    "

/-- A node's text from the texts of its lines. -/
def bracket (indent : String) (lines : List String) : String :=
  if lines.isEmpty then "Any" else "\x7b\n" ++ String.join lines ++ indent ++ "\x7d"

/-- The line of a field. -/
def fieldLine (indent : String) (name : String) (required : Bool) (text : String) : String :=
  indent ++ encodeKey name ++ ": " ++ (if required then "Required" else "NotRequired") ++
    "[" ++ text ++ "],\n"

/-- The line of the elements. -/
def elementLine (indent : String) (text : String) : String :=
  indent ++ "__iter__: Iterator[" ++ text ++ "],\n"

mutual

/-- The text of a node: its fields, and then its elements.  A node with neither may be anything. -/
def describe (indent : String) : Shape → String
  | node _ _ c =>
    bracket indent
      (fieldLines (indent ++ margin) c ++ elementLines (indent ++ margin) c)

def fieldLines (indent : String) : List (Step × Shape) → List String
  | [] => []
  | (.field name, s) :: rest =>
    fieldLine indent name s.required (describe indent s) :: fieldLines indent rest
  | (.element, _) :: rest => fieldLines indent rest

def elementLines (indent : String) : List (Step × Shape) → List String
  | [] => []
  | (.field _, _) :: rest => elementLines indent rest
  | (.element, s) :: rest => elementLine indent (describe indent s) :: elementLines indent rest

end

/-- The text of a whole shape. -/
def text (s : Shape) : String := describe "" s

end Shape
end HtmlTemplate
