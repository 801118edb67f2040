/-!
# Part — what a template is made of

A template is a flat sequence of parts: literal text, values inserted in one of several positions,
and the openings, elses and closes of blocks.  Whether blocks match up is not a matter of the
sequence itself.
-/

namespace HtmlTemplate

inductive Part where
  /-- Literal text. -/
  | raw (text : String)
  /-- A value in body text. -/
  | body (path : String)
  /-- A value inside a comment. -/
  | comment (path : String)
  /-- An attribute value of literals, at the even places, and paths, at the odd ones. -/
  | composite (segments : List String)
  /-- An attribute that is left out when its value is missing. -/
  | optional (key path : String)
  /-- An attribute without value that is present when the path is true. -/
  | flag (key path : String)
  /-- Opens a block for a true value or, `inverted`, for a false one.  With `emptiness` a value is
  true when it can be iterated and has an element. -/
  | conditional (path : String) (inverted emptiness : Bool)
  /-- Opens a block that runs for every element, `binding` naming the element. -/
  | loop (path binding : String)
  /-- Goes over to the other body of the block. -/
  | otherwise
  /-- Ends the block. -/
  | close
  /-- A part of a kind that has no code. -/
  | foreign (kind : String)
  deriving DecidableEq, Repr

namespace Part

/-- The loop binding when none is given. -/
def defaultBinding : String := "_"

/-- Literal text, if there is any. -/
def literal (text : List Char) : List Part :=
  if text.isEmpty then [] else [raw (String.ofList text)]

/-- Joins neighbouring literal texts, `pending` being the text before the parts. -/
def coalesceFrom (pending : String) : List Part → List Part
  | [] => if pending.isEmpty then [] else [raw pending]
  | raw text :: parts => coalesceFrom (pending ++ text) parts
  | part :: parts =>
    if pending.isEmpty then part :: coalesceFrom "" parts
    else raw pending :: part :: coalesceFrom "" parts

/-- Joins neighbouring literal texts and drops empty ones. -/
def coalesce (parts : List Part) : List Part := coalesceFrom "" parts

end Part
end HtmlTemplate
