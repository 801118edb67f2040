import HtmlTemplate.Value.Text

/-!
# Output — how values become markup

Rendering keeps track of how far each iterator was gone through, since an iterator gives every
item once.  Every text that is not markup already is escaped.
-/

namespace HtmlTemplate

/-- How many items were taken from each iterator, by its number. -/
abbrev Progress := List (Nat × Nat)

/-- A computation that may take items from iterators, and may stop with a fault. -/
abbrev Render := StateT Progress (Except RenderFault)

namespace Progress

def taken (p : Progress) (id : Nat) : Nat := (p.lookup id).getD 0

def setTaken (id count : Nat) : Progress → Progress
  | [] => [(id, count)]
  | (i, n) :: rest => if i = id then (i, count) :: rest else (i, n) :: setTaken id count rest

end Progress

namespace Render

/-- How many items were taken from an iterator. -/
def taken (id : Nat) : Render Nat := return (← get).taken id

def setTaken (id count : Nat) : Render Unit := modify (Progress.setTaken id count)

/-- A result that needs no iterator. -/
def ofExcept {α : Type} (x : Except RenderFault α) : Render α := liftM x

/-- The escaped text of a value. -/
def escaped (v : Value) : Render String := return Value.escape (← ofExcept v.text)

/-- The results for items, one after another. -/
def eachItem {α : Type} (each : Value → Render α) : List Value → Render (List α)
  | [] => return []
  | v :: vs => do
    let first ← each v
    return first :: (← eachItem each vs)

/-- The end of a value's items, where it may break off. -/
def ended (breaksOff : Bool) : Render Unit :=
  if breaksOff then throw .conversion else return ()

mutual

/-- A value in body text: nothing for what is missing, markup as it is, everything else that can
be gone through item by item, and the escaped text of the rest. -/
def body : Value → Render String
  | .none => return ""
  | .markup s => return s
  | .list items => bodyAfter false 0 items
  | .tuple items => bodyAfter false 0 items
  | .dict entries => bodyKeys entries
  | .range start stop step => String.join <$> eachItem escaped (Value.rangeItems start stop step)
  | .iterator id items => do
    let n ← taken id.number
    setTaken id.number items.length
    bodyAfter id.failing n items
  | .object traits _ (some items) => bodyAfter (traits.refuses .items) 0 items
  | v => escaped v

/-- The items but the first `n`, and what comes behind them. -/
def bodyAfter (breaksOff : Bool) : Nat → List Value → Render String
  | _, [] => do
    ended breaksOff
    return ""
  | 0, v :: vs => do
    let first ← body v
    return first ++ (← bodyAfter breaksOff 0 vs)
  | n + 1, _ :: vs => bodyAfter breaksOff n vs

def bodyKeys : List (Value × Value) → Render String
  | [] => return ""
  | (k, _) :: rest => do
    let first ← body k
    return first ++ (← bodyKeys rest)

end

/-- The escaped text of a value that is there, put in a frame. -/
def defined (v : Value) (frame : String → Render Value) : Render Value :=
  match v with
  | .none => return .str ""
  | v => do frame (← escaped v)

/-- A result that is text, or nothing. -/
def orEmpty (v : Value) : Render Value := do
  return if ← ofExcept v.truth then v else .str ""

/-- One of two results, by whether a value is taken for true. -/
def choose (v : Value) (yes : Render Value) (no? : Option (Render Value)) : Render Value := do
  if ← ofExcept v.check then orEmpty (← yes)
  else
    match no? with
    | none => return .str ""
    | some no => orEmpty (← no)

/-- The text that a value is. -/
def asText (v : Value) : Render String :=
  match v.chars? with
  | some cs => return String.ofList cs
  | none => throw (.misuse "sequence item: expected str instance")

/-- The results for what is left of an iterator, `count` at most, its end counted as well.  Items may
be taken from it in between. -/
def eachLeft {α : Type} (each : Value → Render α) (id : IteratorId) (items : List Value) :
    Nat → Render (List α)
  | 0 => return []
  | count + 1 => do
    let n ← taken id.number
    match items[n]? with
    | none => do
      ended id.failing
      return []
    | some v => do
      setTaken id.number (n + 1)
      let first ← each v
      return first :: (← eachLeft each id items count)

/-- The results for everything that a value gives when it is gone through. -/
def eachOf {α : Type} (v : Value) (each : Value → Render α) : Render (List α) :=
  match v with
  | .iterator id items => eachLeft each id items (items.length + 1)
  | v =>
    match v.items? with
    | some items => do
      let results ← eachItem each items
      ended v.breaksOff
      return results
    | none => return []

/-- Texts one after another. -/
def joined (separator : String) (vs : List Value) : Render Value := do
  return .str (separator.intercalate (← vs.mapM asText))

/-- The results for all items together or, if there was none, the other result. -/
def loop (v : Value) (each : Value → Render Value) (empty? : Option (Render Value)) :
    Render Value := do
  let results ← eachOf v each
  match results, empty? with
  | [], some empty => empty
  | results, _ => joined "" results

/-- Whether a value has an item.  An iterator is asked for its next one, which is lost. -/
def isNonempty (v : Value) : Render Bool :=
  match v with
  | .iterator id items => do
    let n ← taken id.number
    if n < items.length then
      setTaken id.number (n + 1)
      return true
    else
      ended id.failing
      return false
  | v =>
    if v.isIterable then
      match v.size? with
      | some size => do return 0 < (← ofExcept size)
      | none =>
        if v.items?.any (!·.isEmpty) then return true
        else do
          ended v.breaksOff
          return false
    else return false

end Render

namespace Value

/-- A value's text as markup that is safe already. -/
def asMarkup : Value → Except RenderFault Value
  | markup s => .ok (markup s)
  | v => v.text.map markup

end Value
end HtmlTemplate
