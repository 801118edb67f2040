import HtmlTemplate.Tag.Options
import HtmlTemplate.Tag.Registry

/-!
# Handler — the built-in directive tags

* `loop` goes through the value at `iter` and binds each element to `v`,
* `if` tests the value at `i` for truth or the one at `iter` for elements, and a `!` before the
  path inverts the test,
* `else` goes over to the other body.

An opening tag that closes itself is followed by the close of its block.
-/

namespace HtmlTemplate

open Text

namespace Handler

/-- The close of a block, which takes no attributes. -/
def closeParts (tag : Tag) : Except Error (List Part) :=
  match tag.attributes with
  | [] => .ok [.close]
  | (key, _) :: _ => .error (.tag tag.name (some key) .attributesOnClose)

/-- A block that a tag opens, and closes at once if it closes itself. -/
def block (tag : Tag) (opening : Part) : List Part :=
  if tag.isSelfClosing then [opening, .close] else [opening]

/-- An empty binding stands for the default one. -/
def bindingOf (v : Option String) : String :=
  match v with
  | none | some "" => Part.defaultBinding
  | some v => v

def resolveLoop (tag : Tag) : Except Error (List Part) :=
  if tag.isClose then closeParts tag
  else do
    let options ← Options.collect Options.loopFields tag
    let path := (Options.get options "iter").getD ""
    return block tag (.loop path (bindingOf (Options.get options "v")))

/-- The test that a path writes: a `!` in front inverts it. -/
def testPart (path : String) (emptiness : Bool) : Part :=
  match path.toList with
  | '!' :: rest => .conditional (String.ofList (strip rest)) true emptiness
  | _ => .conditional path false emptiness

def resolveConditional (tag : Tag) : Except Error (List Part) :=
  if tag.isClose then closeParts tag
  else do
    let options ← Options.collect Options.conditionalFields tag
    match Options.get options "i", Options.get options "iter" with
    | some path, none => return block tag (testPart path false)
    | none, some path => return block tag (testPart path true)
    | _, _ => throw (.tag tag.name none .notOneTest)

def resolveElse (tag : Tag) : Except Error (List Part) :=
  if tag.isClose || !tag.isSelfClosing then .error (.tag tag.name none .notSelfClosing)
  else do
    let _ ← Options.collect Options.noFields tag
    return [.otherwise]

def loop : Handler := ⟨"LoopTag", "LoopTag()", some ["loop"], resolveLoop⟩

def conditional : Handler :=
  ⟨"ConditionalTag", "ConditionalTag()", some ["if"], resolveConditional⟩

def otherwise : Handler := ⟨"ElseTag", "ElseTag()", some ["else"], resolveElse⟩

end Handler

namespace Registry

/-- The registry of the built-in tags. -/
def builtin : Registry :=
  (registerAll [] [Handler.loop, Handler.conditional, Handler.otherwise]).2

end Registry
end HtmlTemplate
