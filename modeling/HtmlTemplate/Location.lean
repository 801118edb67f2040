/-!
# Location — places in a template's source

Lines and columns count from one, offsets from zero.  All three count characters.
-/

namespace HtmlTemplate

structure Location where
  (line column offset : Nat)
  file : Option String
  deriving DecidableEq, Repr

namespace Location

/-- An offset brought into the range from zero to `size`. -/
def clamp (size : Nat) (offset : Int) : Nat := min offset.toNat size

/-- How many characters follow the last line feed. -/
def tailLength (cs : List Char) : Nat := (cs.reverse.takeWhile (· != '\n')).length

/-- The place of an offset in a source.  An offset outside the source stands for its nearer end. -/
def ofOffset (source : List Char) (offset : Int) (file : Option String) : Location :=
  let size := clamp source.length offset
  let before := source.take size
  ⟨before.count '\n' + 1, tailLength before + 1, size, file⟩

/-- `file:line:column`, without the file if there is none or its name is empty. -/
def text (l : Location) : String :=
  let place := toString l.line ++ ":" ++ toString l.column
  match l.file with
  | none | some "" => place
  | some file => file ++ ":" ++ place

end Location
end HtmlTemplate
