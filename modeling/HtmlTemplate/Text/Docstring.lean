import HtmlTemplate.Text.Lines
import HtmlTemplate.Text.Quoted

/-!
# Docstring — texts between triple quotes

A text that is written between triple double quotes may hold line breaks.  A backslash or quote in
it is written with a backslash in front, so that neither ends or alters the text.
-/

namespace HtmlTemplate
namespace Text

def encodeDocChar (c : Char) : List Char :=
  if c == '\\' || c == '"' then ['\\', c] else [c]

/-- A text as it stands between triple quotes. -/
def encodeDoc (s : String) : String := String.ofList (s.toList.flatMap encodeDocChar)

/-- Reads up to the first triple quote that is not escaped, and gives the rest. -/
def readDocFrom : List Char → Option (List Char × List Char)
  | [] => none
  | '"' :: '"' :: '"' :: cs => some ([], cs)
  | '\\' :: cs =>
    match h : readEscape cs with
    | none => none
    | some (ds, rest) =>
      have : rest.length ≤ cs.length := readEscape_length h
      (readDocFrom rest).map fun (text, after) => (ds ++ text, after)
  | c :: cs => (readDocFrom cs).map fun (text, after) => (c :: text, after)
termination_by cs => cs.length

/-- What a triple-quoted literal stands for, its opening quotes having been read.  Every line break
in it is one line feed. -/
def readDoc (cs : List Char) : Option (List Char × List Char) := readDocFrom (unifyLineEnds cs)

end Text
end HtmlTemplate
