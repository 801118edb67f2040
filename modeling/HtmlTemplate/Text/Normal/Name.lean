import HtmlTemplate.Text.Normal.Decomposition
import HtmlTemplate.Text.Normal.Mark

/-!
# Name — when two spellings are one name

Names are compared in their normal spelling: every character is replaced by the plain ones that it
stands for, marks are sorted, and what can be composed is composed again.  A spelling in ASCII is
normal.
-/

namespace HtmlTemplate
namespace Text

/-- Whether a character cannot reach the one that starts its cluster past the marks `between`. -/
def isBlocked (between : List Nat) (code : Nat) : Bool :=
  between.any fun mark => markClass code ≤ markClass mark

/-- Composes from a cluster on, which is what `start` has become and the marks that did not
compose. -/
def composeCluster (start : Nat) (marks : List Nat) : List Nat → List Nat
  | [] => start :: marks
  | c :: cs =>
    match if isBlocked marks c then none else compose? start c with
    | some composite => composeCluster composite marks cs
    | none =>
      if markClass c = 0 then start :: marks ++ composeCluster c [] cs
      else composeCluster start (marks ++ [c]) cs

/-- Composes what can be composed. -/
def composeAll : List Nat → List Nat
  | [] => []
  | c :: cs => if markClass c = 0 then composeCluster c [] cs else c :: composeAll cs

def normalCodes (codes : List Nat) : List Nat := composeAll (sortMarks (codes.flatMap decompose))

/-- The normal spelling of a name. -/
def normalName (name : String) : String :=
  if name.toList.all (·.toNat < 0x80) then name
  else String.ofList ((normalCodes (name.toList.map Char.toNat)).map Char.ofNat)

theorem normalName_ascii {name : String} (h : name.toList.all (·.toNat < 0x80) = true) :
    normalName name = name := by
  unfold normalName
  rw [if_pos h]

end Text
end HtmlTemplate
