/-!
# Blank — white space, and what is left of a text without it

The blanks are the white space characters of Unicode together with the four information
separators U+001C to U+001F.
-/

namespace HtmlTemplate
namespace Text

def isBlank (c : Char) : Bool :=
  let n := c.toNat
  (0x9 ≤ n && n ≤ 0xd) || (0x1c ≤ n && n ≤ 0x20) || n == 0x85 || n == 0xa0 || n == 0x1680 ||
    (0x2000 ≤ n && n ≤ 0x200a) || n == 0x2028 || n == 0x2029 || n == 0x202f || n == 0x205f ||
    n == 0x3000

/-- The text without the blanks at its end. -/
def stripEnd (cs : List Char) : List Char := (cs.reverse.dropWhile isBlank).reverse

/-- The text without the blanks at either end. -/
def strip (cs : List Char) : List Char := stripEnd (cs.dropWhile isBlank)

def stripText (s : String) : String := String.ofList (strip s.toList)

/-- The runs of a text whose beginning is the run `run`. -/
def runsFrom (p : Char → Bool) (run : List Char) : List Char → List (List Char)
  | [] => if run.isEmpty then [] else [run]
  | c :: cs =>
    if p c then runsFrom p (run ++ [c]) cs
    else if run.isEmpty then runsFrom p [] cs
    else run :: runsFrom p [] cs

/-- The longest runs of characters with a property. -/
def runs (p : Char → Bool) (cs : List Char) : List (List Char) := runsFrom p [] cs

/-- What stands between blanks. -/
def words (cs : List Char) : List (List Char) := runs (fun c => !isBlank c) cs

end Text
end HtmlTemplate
