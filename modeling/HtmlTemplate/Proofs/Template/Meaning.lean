import HtmlTemplate.Path
import HtmlTemplate.Proofs.Render.Leaves
import HtmlTemplate.Proofs.Template.Basic
import HtmlTemplate.Value.Lookup

/-!
# Meaning — what a template means, without any code

A template is gone through from left to right, with the elements that loops have bound at hand.
What comes out is a sequence of pieces, each with the insertion that it comes from and the way that
it got there: literal text of the template, text that is escaped, or markup of the context as it
is.  `Template.interpret` is the text of them all.
-/

namespace HtmlTemplate

/-- A piece of what is rendered. -/
inductive Piece where
  | literal (source : Insertion) (text : String)
  | escaped (source : Insertion) (text : String)
  | verbatim (source : Insertion) (markup : String)
  deriving DecidableEq, Repr

namespace Piece

def text : Piece → String
  | literal _ text => text
  | escaped _ text => Value.escape text
  | verbatim _ markup => markup

/-- The texts of pieces, one after another. -/
def output (pieces : List Piece) : String := String.join (pieces.map text)

@[simp] theorem output_nil : output [] = "" := rfl

@[simp] theorem output_cons (piece : Piece) (pieces : List Piece) :
    output (piece :: pieces) = piece.text ++ output pieces := by
  unfold output
  rw [List.map_cons, String.join_cons]

@[simp] theorem output_append (a b : List Piece) : output (a ++ b) = output a ++ output b := by
  induction a with
  | nil => simp
  | cons piece pieces ih => simp [ih, String.append_assoc]

theorem output_flatten (results : List (List Piece)) :
    output results.flatten = String.join (results.map output) := by
  induction results with
  | nil => rfl
  | cons pieces results ih => simp [ih]

end Piece

/-- The elements that names are bound to, the innermost first. -/
abbrev Bindings := List (String × Value)

/-- What a path reads: from the innermost element bound to its first name, or from the context. -/
def readPath (context : Value) (bindings : Bindings) (path : String) : Render Value :=
  match Path.segments path with
  | [] => return context
  | head :: rest =>
    match bindings.lookup head with
    | some element => Render.ofExcept (element.lookup rest)
    | none => Render.ofExcept (context.lookup (head :: rest))

section Trace

variable (context : Value) (bindings : Bindings)

/-- The piece of a leaf, if it is not missing. -/
def leafPiece (source : Insertion) (v : Value) : Except RenderFault (List Piece) :=
  match v with
  | .none => return []
  | .markup s => return [.verbatim source s]
  | v => return [.escaped source (← v.text)]

/-- The pieces of leaves, one after another. -/
def leafPieces (source : Insertion) : List Value.Leaf → Except RenderFault (List Piece)
  | [] => return []
  | leaf :: rest => do
    let first ← leafPiece source (← leaf)
    return first ++ (← leafPieces source rest)

/-- The leaves of a value. -/
def leavesOf (v : Value) : Render (List Value.Leaf) := modifyGet v.leaves

/-- A value as text, or nothing if it is missing. -/
def escapedPieces (source : Insertion) (v : Value) : Render (List Piece) :=
  match v with
  | .none => return []
  | v => return [.escaped source (← Render.ofExcept v.text)]

/-- The segments of a composite value, `literal` telling whether the first one is text. -/
def segmentPieces (source : Insertion) : Bool → List String → Render (List Piece)
  | _, [] => return []
  | true, text :: rest => return .literal source text :: (← segmentPieces source false rest)
  | false, path :: rest => do
    let value ← escapedPieces source (← readPath context bindings path)
    return value ++ (← segmentPieces source true rest)

/-- What an insertion inserts. -/
def Insertion.trace (source : Insertion) : Render (List Piece) :=
  match source with
  | .raw text => return [.literal source text]
  | .body path => do
    let leaves ← leavesOf (← readPath context bindings path)
    Render.ofExcept (leafPieces source leaves)
  | .comment path => do escapedPieces source (← readPath context bindings path)
  | .composite segments => do
    let inner ← segmentPieces context bindings source true segments
    return .literal source "\"" :: inner ++ [.literal source "\""]
  | .optional key path => do
    match ← escapedPieces source (← readPath context bindings path) with
    | [] => return []
    | value => return .literal source (" " ++ key ++ "=\"") :: value ++ [.literal source "\""]
  | .flag key path => do
    let v ← readPath context bindings path
    return if ← Render.ofExcept v.check then [.literal source (" " ++ key)] else []

/-- Whether a conditional runs its first body. -/
def holds (v : Value) (inverted emptiness : Bool) : Render Bool := do
  let truth ←
    if emptiness then Render.isNonempty v
    else Render.ofExcept (if inverted then v.truth else v.check)
  return truth != inverted

/-- What a block comes to: one of its bodies, or its first one for every element in order, and the
other one where there is no element. -/
def Head.trace (head : Head) (body : Bindings → Render (List Piece))
    (other : Render (List Piece)) : Render (List Piece) := do
  match head with
  | .conditional path inverted emptiness =>
    if ← holds (← readPath context bindings path) inverted emptiness then body bindings else other
  | .loop path binding =>
    let v ← readPath context bindings path
    let results ← Render.eachOf v fun element => body ((binding, element) :: bindings)
    if results.isEmpty then other else return results.flatten

end Trace

namespace Template

/-- What a template comes to, piece by piece. -/
def trace (context : Value) : Template → Bindings → Render (List Piece)
  | done, _ => return []
  | insert insertion rest, bindings => do
    let first ← insertion.trace context bindings
    return first ++ (← rest.trace context bindings)
  | block head body rest, bindings => do
    let first ← head.trace context bindings (body.trace context) (return [])
    return first ++ (← rest.trace context bindings)
  | choice head body other rest, bindings => do
    let first ← head.trace context bindings (body.trace context) (other.trace context bindings)
    return first ++ (← rest.trace context bindings)

/-- The pieces that a context is rendered to, with no iterator used yet. -/
def pieces (t : Template) (context : Value) : Except RenderFault (List Piece) :=
  (·.1) <$> (t.trace context []).run []

/-- The text that a context is rendered to. -/
def interpret (t : Template) (context : Value) : Except RenderFault String :=
  Piece.output <$> t.pieces context

end Template
end HtmlTemplate
