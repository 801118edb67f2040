import HtmlTemplate.Text.Quoted

/-!
# FilePath — paths, and why they cannot be opened

A path is written with slashes; empty parts and single dots in it say nothing, and two dots lead
back to the folder above.
-/

namespace HtmlTemplate

open Text

namespace FilePath

/-- The texts between the slashes. -/
def split : List Char → List (List Char)
  | [] => [[]]
  | c :: cs =>
    if c == '/' then [] :: split cs
    else
      match split cs with
      | [] => [[c]]
      | part :: rest => (c :: part) :: rest

/-- The slashes that an absolute path starts with: two stay two, and any other number is one. -/
def root (path : List Char) : String :=
  match (path.takeWhile (· == '/')).length with
  | 0 => ""
  | 2 => "//"
  | _ => "/"

/-- The parts of a path that say something. -/
def parts (path : String) : List String :=
  ((split path.toList).filter fun part => !part.isEmpty && part != ['.']).map String.ofList

/-- The shortest way to write a path, two dots being kept. -/
def normalize (path : String) : String :=
  let text := root path.toList ++ "/".intercalate (parts path)
  if text.isEmpty then "." else text

/-- A name has at most this many bytes. -/
def maxNameSize : Nat := 255

/-- A path has at most this many bytes. -/
def maxPathSize : Nat := 4095

end FilePath

/-- Why a path cannot be opened. -/
inductive OpenFault where
  | missing
  | notFolder
  | isFolder
  | nameTooLong
  /-- No name holds the character U+0000. -/
  | nullCharacter
  deriving DecidableEq, Repr

namespace OpenFault

/-- The message for a path. -/
def message (path : String) : OpenFault → String
  | missing => "[Errno 2] No such file or directory: " ++ quoted path
  | notFolder => "[Errno 20] Not a directory: " ++ quoted path
  | isFolder => "[Errno 21] Is a directory: " ++ quoted path
  | nameTooLong => "[Errno 36] File name too long: " ++ quoted path
  | nullCharacter => "embedded null byte"

end OpenFault

end HtmlTemplate
