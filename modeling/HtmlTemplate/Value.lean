import HtmlTemplate.Number.Binary64

/-!
# Value — what a context holds

Templates are rendered with values of a dynamic kind: missing values, numbers, texts, sequences,
mappings, iterators that can be gone through once, and objects with attributes.  Objects may be
mappings or sequences of their own, and may refuse whatever rendering asks of them.
-/

namespace HtmlTemplate

/-- How an object turns into text: like any object, by a text of its own, or not at all. -/
inductive ObjectText where
  | plain
  | given (text : String)
  | failing
  deriving DecidableEq, Repr

/-- What a value may be asked for in rendering, its own text apart. -/
inductive Request where
  | truth
  | length
  /-- What comes after the items that it has given. -/
  | items
  /-- Its text inside another value. -/
  | shown
  /-- What a mapping or a sequence holds under a key or an index. -/
  | member (name : String)
  deriving DecidableEq, Repr

/-- How a path leads into an object: by its attributes, by its keys, or by its items. -/
inductive ObjectKind where
  | plain
  | mapping
  | sequence
  deriving DecidableEq, Repr

/-- How an object is read.  The attributes in `raising` cannot be read, which counts as if they were
not there; what is in `refusals` is asked in vain, with an error that nothing catches. -/
structure ObjectAccess where
  raising : List String := []
  kind : ObjectKind := .plain
  refusals : List Request := []
  deriving DecidableEq, Repr

instance : Coe (List String) ObjectAccess := ⟨fun raising => { raising }⟩

/-- What an object says of itself. -/
structure ObjectTraits where
  text : ObjectText := .plain
  truth? : Option Bool := none
  length? : Option Int := none
  access : ObjectAccess := {}
  deriving DecidableEq, Repr

namespace ObjectTraits

/-- Whether an object refuses what it is asked for. -/
def refuses (traits : ObjectTraits) (request : Request) : Bool :=
  traits.access.refusals.contains request

end ObjectTraits

/-- An iterator by its number.  A failing one stops with an error behind its last item. -/
structure IteratorId where
  number : Nat
  failing : Bool := false
  deriving DecidableEq, Repr

instance : Coe Nat IteratorId := ⟨fun number => { number }⟩

inductive Value where
  /-- Nothing is there. -/
  | none
  | bool (b : Bool)
  | int (n : Int)
  | float (x : Binary64)
  | str (s : String)
  /-- Text that is safe markup already. -/
  | markup (s : String)
  | bytes (bs : List UInt8)
  | list (items : List Value)
  | tuple (items : List Value)
  | range (start stop step : Int)
  | dict (entries : List (Value × Value))
  /-- An iterator over the items that are left of `items`; how many were taken is kept apart, by
  the iterator's number. -/
  | iterator (id : IteratorId) (items : List Value)
  /-- A function that gives one text, whatever it is given. -/
  | function (result : String)
  /-- An object with its attributes and, if it can be gone through, its items.  What a mapping holds
  stands among the attributes, and its keys are its items. -/
  | object (traits : ObjectTraits) (attributes : List (String × Value))
      (items? : Option (List Value))

namespace Value

instance : Inhabited Value := ⟨none⟩

/-- Whether a value is text that is safe markup already. -/
def isMarkup : Value → Bool
  | markup _ => true
  | _ => false

/-! ## Ranges -/

/-- How many numbers a range holds. -/
def rangeLength (start stop step : Int) : Nat :=
  if 0 < step then ((stop - start + step - 1) / step).toNat
  else if step < 0 then ((start - stop - step - 1) / (-step)).toNat
  else 0

/-- The numbers of a range from `start` on, `count` of them. -/
def rangeFrom (start step : Int) : Nat → List Value
  | 0 => []
  | count + 1 => int start :: rangeFrom (start + step) step count

/-- The numbers of a range. -/
def rangeItems (start stop step : Int) : List Value :=
  rangeFrom start step (rangeLength start stop step)

/-! ## Mappings -/

/-- The number that a value is, if it is an integer or a truth value, or equals an integer. -/
def integer? : Value → Option Int
  | bool b => some (if b then 1 else 0)
  | int n => some n
  | float x => x.toInt?
  | _ => Option.none

/-- The characters of a text, safe or not. -/
def chars? : Value → Option (List Char)
  | str s => some s.toList
  | markup s => some s.toList
  | _ => Option.none

mutual

/-- Whether two keys of a mapping are one: numbers by their amount, texts by their characters. -/
def sameKey : Value → Value → Bool
  | none, none => true
  | tuple a, tuple b => sameKeys a b
  | bytes a, bytes b => a == b
  | range a b c, range d e f =>
    let m := rangeLength a b c
    m == rangeLength d e f && (m == 0 || (a == d && (m == 1 || c == f)))
  | float a, float b => a.same b
  | a, b =>
    match a.integer?, b.integer? with
    | some m, some n => m == n
    | _, _ =>
      match a.chars?, b.chars? with
      | some s, some t => s == t
      | _, _ => false

def sameKeys : List Value → List Value → Bool
  | [], [] => true
  | a :: as, b :: bs => sameKey a b && sameKeys as bs
  | _, _ => false

end

/-- Adds an entry; one that is there already keeps its place and its key. -/
def insertEntry (key value : Value) : List (Value × Value) → List (Value × Value)
  | [] => [(key, value)]
  | (k, v) :: rest =>
    if sameKey k key then (k, value) :: rest else (k, v) :: insertEntry key value rest

/-- The mapping that entries make, the later ones replacing the earlier. -/
def ofEntries (entries : List (Value × Value)) : Value :=
  dict (entries.foldl (fun made (key, value) => insertEntry key value made) [])

end Value
end HtmlTemplate
