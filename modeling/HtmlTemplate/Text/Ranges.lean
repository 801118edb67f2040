/-!
# Ranges — classes of characters given as intervals of code points
-/

namespace HtmlTemplate
namespace Text

/-- Whether `code` lies in one of the closed intervals. -/
def inRanges (ranges : Array (Nat × Nat)) (code : Nat) : Bool :=
  ranges.any fun range => range.1 ≤ code && code ≤ range.2

end Text
end HtmlTemplate
