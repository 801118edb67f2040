/-!
# Builder — a text that grows at its end
-/

namespace HtmlTemplate
namespace Text

/-- The pieces that a text is made of.  Empty ones are left out. -/
structure Builder where
  pieces : Array String := #[]

namespace Builder

def append (b : Builder) (piece : String) : Builder :=
  if piece.isEmpty then b else ⟨b.pieces.push piece⟩

/-- All the pieces as one text. -/
def build (b : Builder) : String := String.join b.pieces.toList

end Builder
end Text
end HtmlTemplate
