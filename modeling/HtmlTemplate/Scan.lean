import HtmlTemplate.Chunk
import HtmlTemplate.Interpolation
import HtmlTemplate.Tag.Attribute
import HtmlTemplate.Tag.Resolver

/-!
# Scan — from a source to its parts

The chunks of a source are turned into parts one after another: texts and comments by their
markers, tags by a reader of tags or, if it does not claim them, attribute by attribute.  A scan
that meets a fault keeps what it found before it.
-/

namespace HtmlTemplate

/-- What a scan found: the kinds of the chunks that gave their parts, those parts, the tags that
the reader of tags was asked about, and the fault that ended the scan early. -/
structure Scan where
  kinds : List ChunkKind
  parts : List Part
  tags : List Tag
  fault : Option Error

namespace Scan

/-- The end of the source. -/
def done : Scan := ⟨[], [], [], none⟩

/-- A fault, with the parts and tags of the chunk that has it. -/
def failed (parts : List Part) (tags : List Tag) (fault : Error) : Scan :=
  ⟨[], parts, tags, some fault⟩

/-- What one chunk gives: its parts as far as they could be made, and its fault. -/
structure Yield where
  parts : List Part
  fault : Option Error

/-- All the parts, or the fault alone. -/
def Yield.ofExcept : Except Error (List Part) → Yield
  | .ok parts => ⟨parts, none⟩
  | .error fault => ⟨[], some fault⟩

/-- Puts parts in front. -/
def Yield.after (before : List Part) (y : Yield) : Yield := ⟨before ++ y.parts, y.fault⟩

/-- The attributes of a literal tag and its ending. -/
def attributesYield (ending : String) : Attributes → Yield
  | [] => ⟨[.raw ending], none⟩
  | (key, value) :: rest =>
    match Attribute.parts key value with
    | .ok parts => (attributesYield ending rest).after parts
    | .error fault => ⟨[], some (Error.semantic fault)⟩

/-- A tag as it stands in the source. -/
def literalYield (tag : Tag) : Yield :=
  (attributesYield tag.ending tag.attributes).after [.raw tag.opening]

def tagYield (reader : TagReader) (tag : Tag) : Yield :=
  match reader tag with
  | .ok (some parts) => ⟨parts, none⟩
  | .ok none => literalYield tag
  | .error fault => ⟨[], some fault⟩

/-- What a chunk gives; `place` finds the place of an offset within it. -/
def chunkYield (reader : TagReader) (place : Interpolation.Locator) : Chunk → Yield
  | .text cs => .ofExcept (Interpolation.parts .body Interpolation.builtin place cs)
  | .comment cs => .ofExcept (Interpolation.parts .comment Interpolation.builtin place cs)
  | .tag tag => tagYield reader tag

/-- The tag that a chunk asks the reader of tags about. -/
def askedTags : Chunk → List Tag
  | .tag tag => [tag]
  | _ => []

/-- Puts what a chunk gave in front of what the rest of the source gave. -/
def Yield.before (y : Yield) (chunk : Chunk) (rest : Scan) : Scan :=
  ⟨chunk.kind :: rest.kinds, y.parts ++ rest.parts, askedTags chunk ++ rest.tags, rest.fault⟩

/-- How much of the source an error shows. -/
def snippetLength : Nat := 12

/-- The fault of a tag that does not end. -/
def malformedFault (place : Interpolation.Locator) (m : Malformed) : Error :=
  .template
    (.lexical (.malformedTag m.isClose m.name (String.ofList (m.rest.take snippetLength))))
    (place 0)

/-- Scans the rest `cs` of a source.  `place` finds the place of an offset within the end of the
source that starts with the given rest. -/
def scanFrom (reader : TagReader) (place : List Char → Interpolation.Locator) (cs : List Char) :
    Scan :=
  if hne : cs = [] then done
  else
    match h : Chunk.read cs with
    | .error m => failed [] [] (malformedFault (place m.rest) m)
    | .ok (chunk, rest) =>
      have := Chunk.read_length hne h
      let y := chunkYield reader (place cs) chunk
      match y.fault with
      | some fault => failed y.parts (askedTags chunk) fault
      | none => y.before chunk (scanFrom reader place rest)
termination_by cs.length

/-- The place, in a source, of an offset within an end of it. -/
def placeIn (source : List Char) (file : Option String) (rest : List Char) : Interpolation.Locator :=
  fun offset =>
    some (Location.ofOffset source ((source.length - rest.length + offset : Nat) : Int) file)

/-- Scans a source, `file` being named in errors. -/
def ofSource (resolver : Resolver) (file : Option String) (source : String) : Scan :=
  scanFrom resolver.resolve (placeIn source.toList file) source.toList

/-- The parts with neighbouring literals joined. -/
def template (scan : Scan) : List Part := Part.coalesce scan.parts

end Scan
end HtmlTemplate
