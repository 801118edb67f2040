import HtmlTemplate.Text.Digit
import HtmlTemplate.Value.Text

/-!
# Lookup — following a path into a value

Each segment is tried as the key of a mapping, as the index of a sequence, or as the name of a
public attribute, whichever the value offers first.  What is missing, is a private attribute or one
that cannot be read, or is a function there, counts as nothing, and nothing has no parts.
-/

namespace HtmlTemplate

open Text

namespace Value

/-- Whether a value is a function. -/
def isFunction : Value → Bool
  | function _ => true
  | _ => false

/-- The value at a text key. -/
def valueAt? (segment : List Char) : List (Value × Value) → Option Value
  | [] => Option.none
  | (k, v) :: rest => if k.chars? == some segment then some v else valueAt? segment rest

/-- Whether a value can be indexed. -/
def isSequence : Value → Bool
  | str _ | markup _ | bytes _ | list _ | tuple _ | range _ _ _ => true
  | object traits _ _ => traits.access.kind == .sequence
  | _ => false

/-- The item of a sequence at an index. -/
def item? (v : Value) (n : Nat) : Option Value :=
  match v with
  | range start stop step =>
    if n < rangeLength start stop step then some (int (start + n * step)) else Option.none
  | v => v.items?.bind fun items => items[n]?

/-- What an object that is a sequence gives for an item.  It may refuse, and does if it has not as
many items as it says. -/
def supplied (traits : ObjectTraits) (n : Nat) : Option Value → Except RenderFault Value
  | some item => if traits.refuses (.member (toString n)) then .error .conversion else .ok item
  | Option.none => .error .conversion

/-- What a sequence gives at an index below its length. -/
def itemAt (v : Value) (n : Nat) : Except RenderFault Value :=
  match v with
  | object traits _ items? => supplied traits n (items?.bind fun items => items[n]?)
  | v => .ok ((v.item? n).getD none)

/-- What a sequence gives at an index. -/
def indexed (v : Value) (n : Nat) : Except RenderFault Value := do
  if n < (← v.size?.getD (.ok 0)) then v.itemAt n else return none

/-- What an object that is a mapping holds under a key. -/
def keyed (traits : ObjectTraits) (attributes : List (String × Value)) (key : String) :
    Except RenderFault Value :=
  if traits.refuses (.member key) then .error .conversion
  else .ok ((attributes.lookup key).getD none)

/-- The index that a segment writes, if it is made of decimal digits alone. -/
def index? (segment : List Char) : Option (Except RenderFault Nat) :=
  (decimal? segment).map fun n =>
    if RenderFault.maxDigits < segment.length then
      .error (.indexTooLong (some segment.length))
    else .ok n

/-- An attribute that every number has. -/
def integerAttribute? (n : Int) : String → Option Value
  | "real" => some (int n)
  | "imag" => some (int 0)
  | "numerator" => some (int n)
  | "denominator" => some (int 1)
  | _ => Option.none

/-- The public attribute of a name, functions apart. -/
def attribute? (v : Value) (name : String) : Option Value :=
  match v with
  | bool b => integerAttribute? (if b then 1 else 0) name
  | int n => integerAttribute? n name
  | float x =>
    match name with
    | "real" => some (float x)
    | "imag" => some (float (Binary64.zero false))
    | _ => Option.none
  | range start stop step =>
    match name with
    | "start" => some (int start)
    | "stop" => some (int stop)
    | "step" => some (int step)
    | _ => Option.none
  | object traits attributes _ =>
    if traits.access.raising.contains name then Option.none else attributes.lookup name
  | _ => Option.none

/-- The attribute of a segment that is not private, or nothing. -/
def publicAttribute (v : Value) (segment : String) : Value :=
  if segment.toList.head? == some '_' then none
  else
    match v.attribute? segment with
    | Option.none => none
    | some a => if a.isFunction then none else a

/-- What one segment leads to in a value that is no mapping. -/
def itemOrAttribute (v : Value) (segment : String) : Except RenderFault Value :=
  match v.isSequence, index? segment.toList with
  | true, some index => do v.indexed (← index)
  | _, _ => .ok (v.publicAttribute segment)

/-- What one segment leads to. -/
def step (v : Value) (segment : String) : Except RenderFault Value :=
  match v with
  | none => .ok none
  | dict entries => .ok ((valueAt? segment.toList entries).getD none)
  | object traits attributes items? =>
    if traits.access.kind = .mapping then keyed traits attributes segment
    else (object traits attributes items?).itemOrAttribute segment
  | v => v.itemOrAttribute segment

/-- What a path leads to. -/
def lookup (v : Value) : List String → Except RenderFault Value
  | [] => .ok v
  | segment :: rest => do (← v.step segment).lookup rest

end Value
end HtmlTemplate
