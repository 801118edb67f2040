import HtmlTemplate.Text.Bytes
import HtmlTemplate.Value
import HtmlTemplate.Value.Fault

/-!
# Text — the text of values

`shown` is the text of a value inside another one, with texts quoted.  `text` is the text of a value
by itself.  An object may refuse either, and so does a number with too many digits: `obstacle?` is
what stands in the way.  `escape` makes a text safe to stand in markup, and `truth` tells which
values count as true.
-/

namespace HtmlTemplate

open Text

namespace Value

/-! ## Text -/

def boolText (b : Bool) : String := if b then "True" else "False"

def rangeText (start stop step : Int) : String :=
  "range(" ++ toString start ++ ", " ++ toString stop ++
    (if step == 1 then "" else ", " ++ toString step) ++ ")"

/-- Items with commas between them. -/
def listed (items : List String) : String := ", ".intercalate items

/-- Items in round brackets.  A single one keeps its comma. -/
def tupleText : List String → String
  | [item] => "(" ++ item ++ ",)"
  | items => "(" ++ listed items ++ ")"

mutual

/-- The text of a value inside another one. -/
def shown : Value → String
  | none => "None"
  | bool b => boolText b
  | int n => toString n
  | float x => x.text
  | str s => quoted s
  | markup s => "unsafe(" ++ quoted s ++ ")"
  | bytes bs => quotedBytes bs
  | list items => "[" ++ listed (shownAll items) ++ "]"
  | tuple items => tupleText (shownAll items)
  | range a b c => rangeText a b c
  | dict entries => "\x7b" ++ listed (shownEntries entries) ++ "\x7d"
  | iterator _ _ => "<iterator>"
  | function _ => "<fn>"
  | object _ _ _ => "<obj>"

def shownAll : List Value → List String
  | [] => []
  | v :: vs => shown v :: shownAll vs

def shownEntries : List (Value × Value) → List String
  | [] => []
  | (k, v) :: rest => (shown k ++ ": " ++ shown v) :: shownEntries rest

end

/-- Whether a number has more digits than are written. -/
def tooLong (n : Int) : Bool := RenderFault.maxDigits < (Nat.toDigits 10 n.natAbs).length

mutual

/-- What keeps a value from being shown inside another one: the first number in it that is too long,
or the first object that refuses. -/
def obstacle? : Value → Option RenderFault
  | int n => if tooLong n then some (.indexTooLong Option.none) else Option.none
  | list items => obstacleIn? items
  | tuple items => obstacleIn? items
  | range start stop step =>
    if [start, stop, step].any tooLong then some (.indexTooLong Option.none) else Option.none
  | dict entries => obstacleAmong? entries
  | object traits _ _ => if traits.refuses .shown then some .conversion else Option.none
  | _ => Option.none

def obstacleIn? : List Value → Option RenderFault
  | [] => Option.none
  | v :: vs => (obstacle? v).or (obstacleIn? vs)

def obstacleAmong? : List (Value × Value) → Option RenderFault
  | [] => Option.none
  | (k, v) :: rest => (obstacle? k).or ((obstacle? v).or (obstacleAmong? rest))

end

/-- A value as it is shown, unless something is in the way. -/
def showing (v : Value) : Except RenderFault String :=
  match v.obstacle? with
  | some fault => .error fault
  | Option.none => .ok v.shown

/-- The text of a value by itself.  An object without a text of its own is shown. -/
def text : Value → Except RenderFault String
  | str s => .ok s
  | markup s => .ok s
  | object traits attributes items? =>
    match traits.text with
    | .plain => (object traits attributes items?).showing
    | .given s => .ok s
    | .failing => .error .conversion
  | v => v.showing

/-! ## Escaping -/

/-- What stands for a character in markup. -/
def escapeChar (c : Char) : List Char :=
  match c with
  | '&' => "&amp;".toList
  | '<' => "&lt;".toList
  | '>' => "&gt;".toList
  | '"' => "&quot;".toList
  | '\'' => "&#39;".toList
  | c => [c]

/-- The text that markup shows as `s`. -/
def escape (s : String) : String := String.ofList (s.toList.flatMap escapeChar)

/-! ## Truth -/

/-- Every length is below this. -/
def lengthBound : Nat := 1 <<< 63

/-- The length that an object reports, which cannot be below zero. -/
def reported (n : Int) : Except RenderFault Nat :=
  if n < 0 then .error .negativeLength
  else if lengthBound ≤ n.toNat then .error .lengthTooLarge
  else .ok n.toNat

/-- The length of a range. -/
def rangeSize (start stop step : Int) : Except RenderFault Nat :=
  let n := rangeLength start stop step
  if lengthBound ≤ n then .error .rangeTooLong else .ok n

/-- How many items an object says it has.  A mapping or a sequence knows that by itself. -/
def objectSize? (traits : ObjectTraits) (items? : Option (List Value)) :
    Option (Except RenderFault Nat) :=
  if traits.refuses .length then some (.error .conversion)
  else
    match traits.length?, traits.access.kind with
    | some n, _ => some (reported n)
    | Option.none, .plain => Option.none
    | Option.none, _ => items?.map fun items => .ok items.length

/-- How many items a value has, if it can tell. -/
def size? : Value → Option (Except RenderFault Nat)
  | str s => some (.ok s.length)
  | markup s => some (.ok s.length)
  | bytes bs => some (.ok bs.length)
  | list items => some (.ok items.length)
  | tuple items => some (.ok items.length)
  | range a b c => some (rangeSize a b c)
  | dict entries => some (.ok entries.length)
  | object traits _ items? => objectSize? traits items?
  | _ => Option.none

/-- Whether a value is true: numbers unless they are zero, what has a length unless it is empty,
objects as they decide, and everything else that is there. -/
def truth (v : Value) : Except RenderFault Bool :=
  let bySize : Except RenderFault Bool :=
    match v.size? with
    | some size => size.map (0 < ·)
    | Option.none => .ok true
  match v with
  | none => .ok false
  | bool b => .ok b
  | int n => .ok (n != 0)
  | float x => .ok !x.isZero
  | range a b c => .ok (rangeLength a b c != 0)
  | object traits _ _ =>
    if traits.refuses .truth then .error .conversion
    else
      match traits.truth? with
      | some b => .ok b
      | Option.none => bySize
  | _ => bySize

/-- The text that a conditional judges a value by: the one of an object that has a text of its own,
and neither a truth nor a length. -/
def judgedBy? (v : Value) : Option String :=
  match v with
  | object ⟨.given s, Option.none, _, access⟩ _ _ =>
    if access.refusals.contains .truth || v.size?.isSome then Option.none else some s
  | _ => Option.none

/-- Whether a conditional takes a value for true. -/
def check (v : Value) : Except RenderFault Bool :=
  match v.judgedBy? with
  | some s => .ok !s.isEmpty
  | Option.none => v.truth

/-! ## Items -/

/-- Whether a value can be gone through. -/
def isIterable : Value → Bool
  | none | bool _ | int _ | float _ | function _ => false
  | object _ _ items? => items?.isSome
  | _ => true

/-- What a value other than an iterator gives when it is gone through: the items of a sequence,
the keys of a mapping, the characters of a text, the numbers of bytes. -/
def items? : Value → Option (List Value)
  | str s => some (s.toList.map fun c => str (String.singleton c))
  | markup s => some (s.toList.map fun c => str (String.singleton c))
  | bytes bs => some (bs.map fun b => int b.toNat)
  | list items => some items
  | tuple items => some items
  | range a b c => some (rangeItems a b c)
  | dict entries => some (entries.map (·.1))
  | object _ _ items? => items?
  | _ => Option.none

/-- Whether a value stops with an error behind the items that it gives. -/
def breaksOff : Value → Bool
  | iterator id _ => id.failing
  | object traits _ (some _) => traits.refuses .items
  | _ => false

end Value
end HtmlTemplate
