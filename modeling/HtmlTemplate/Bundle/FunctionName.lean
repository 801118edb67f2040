import HtmlTemplate.Error
import HtmlTemplate.Text.Blank

/-!
# FunctionName — the function that a template file becomes

The ASCII letters and digits of the file's stem are its words; a capital after a small letter or
digit starts a new one.  The function's name is made of the words in small letters.
-/

namespace HtmlTemplate
namespace FunctionName

open Text

/-- Whether a new word starts between two characters. -/
def isHump (a b : Char) : Bool := (a.isLower || a.isDigit) && b.isUpper

/-- Puts an underscore wherever a new word starts. -/
def splitHumps : List Char → List Char
  | a :: b :: cs => if isHump a b then a :: '_' :: splitHumps (b :: cs) else a :: splitHumps (b :: cs)
  | cs => cs

/-- The words of a stem, in small letters. -/
def wordsOf (stem : String) : List String :=
  (runs Char.isAlphanum (splitHumps stem.toList)).map fun word =>
    String.ofList (word.map Char.toLower)

def leading : String := "template_"

/-- The name of the function, if the stem has a word. -/
def ofStem (stem : String) : Except Error String :=
  match wordsOf stem with
  | [] => .error (.unnamedTemplate stem)
  | words => .ok (leading ++ "_".intercalate words)

/-- The ending of template files. -/
def extension : String := ".html"

/-- Whether a file is a template. -/
def isTemplate (file : String) : Bool := file.endsWith extension

/-- The name of a template file without its ending, if anything stands before that. -/
def stem (file : String) : String :=
  if file.length ≤ extension.length then file
  else String.ofList (file.toList.take (file.length - extension.length))

end FunctionName
end HtmlTemplate
