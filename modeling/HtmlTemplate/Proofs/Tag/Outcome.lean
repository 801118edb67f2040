import HtmlTemplate.Proofs.Except
import HtmlTemplate.Proofs.Lookup
import HtmlTemplate.Tag.Resolver

/-!
# Outcome — what comes of a directive tag

The tags that are built in open a block, close one or go over to its other body.  What each of them
gives are parts that stand alone (`Part.Lone`), and what a misused one is refused for is declared
(`Error.Declared`): it names the tag.
-/

namespace HtmlTemplate

/-- What a template may be refused for: its source cannot be read, its blocks do not match up, a
path, a binding or an expression means nothing, or a directive tag is misused. -/
inductive Error.Declared : Error → Prop
  | lexical (fault : LexicalFault) (location : Option Location) :
    Declared (.template (.lexical fault) location)
  | structural (fault : StructureFault) (location : Option Location) :
    Declared (.template (.structural fault) location)
  | semantic (fault : SemanticFault) (location : Option Location) :
    Declared (.template (.semantic fault) location)
  | unknownDirective (expression : String) (location : Option Location) :
    Declared (.template (.unknownDirective expression) location)
  | tag (name : String) (key : Option String) (fault : TagFault) : Declared (.tag name key fault)

namespace Part

/-- A part that has code and needs no literal text in front of it. -/
def isLone : Part → Bool
  | raw _ => false
  | composite _ => false
  | foreign _ => false
  | _ => true

/-- There are parts, and each of them stands alone. -/
def Lone (ps : List Part) : Prop := ps ≠ [] ∧ ∀ part ∈ ps, part.isLone = true

theorem Lone.singleton {part : Part} (h : part.isLone = true) : Lone [part] :=
  ⟨List.cons_ne_nil _ _, List.forall_mem_singleton.2 h⟩

end Part

namespace Options

theorem within_value (fields : List OptionField) (tag key : String) (v : AttributeValue) :
    (value fields tag key v).Within (fun _ => True) Error.Declared := by
  unfold value
  split
  · exact .tag tag key .notAllowed
  · cases v with
    | present => exact .tag tag key .needsValue
    | text text =>
      dsimp only
      split
      · trivial
      · exact .tag tag key (.notOnePath text)

theorem within_given (fields : List OptionField) (tag : String) (attributes : Attributes) :
    (given fields tag attributes).Within (fun _ => True) Error.Declared := by
  induction attributes with
  | nil => trivial
  | cons a attributes ih =>
    exact (within_value fields tag a.1 a.2).bind fun _ _ => ih.bind fun _ _ => trivial

theorem within_collect (fields : List OptionField) (tag : Tag) :
    (collect fields tag).Within (fun _ => True) Error.Declared := by
  apply (within_given fields tag.name tag.attributes).bind
  intro values _
  split
  · exact .tag tag.name _ .missing
  · trivial

end Options

namespace Handler

theorem lone_block (tag : Tag) {opening : Part} (h : opening.isLone = true) :
    Part.Lone (block tag opening) := by
  unfold block
  split
  · exact ⟨List.cons_ne_nil _ _, List.forall_mem_cons.2 ⟨h, List.forall_mem_singleton.2 rfl⟩⟩
  · exact .singleton h

theorem isLone_testPart (path : String) (emptiness : Bool) :
    (testPart path emptiness).isLone = true := by
  unfold testPart
  split <;> rfl

theorem within_closeParts (tag : Tag) : (closeParts tag).Within Part.Lone Error.Declared := by
  unfold closeParts
  split
  · exact .singleton rfl
  · exact .tag tag.name _ .attributesOnClose

theorem within_loop (tag : Tag) : (resolveLoop tag).Within Part.Lone Error.Declared := by
  unfold resolveLoop
  split
  · exact within_closeParts tag
  · apply (Options.within_collect Options.loopFields tag).bind
    intro options _
    exact lone_block tag rfl

theorem within_conditional (tag : Tag) :
    (resolveConditional tag).Within Part.Lone Error.Declared := by
  unfold resolveConditional
  split
  · exact within_closeParts tag
  · apply (Options.within_collect Options.conditionalFields tag).bind
    intro options _
    split
    · exact lone_block tag (isLone_testPart _ _)
    · exact lone_block tag (isLone_testPart _ _)
    · exact .tag tag.name none .notOneTest

theorem within_otherwise (tag : Tag) : (resolveElse tag).Within Part.Lone Error.Declared := by
  unfold resolveElse
  split
  · exact .tag tag.name none .notSelfClosing
  · apply (Options.within_collect Options.noFields tag).bind
    intro options _
    exact .singleton rfl

end Handler

theorem Registry.get?_builtin {name : String} {handler : Handler}
    (h : Registry.builtin.get? name = some handler) :
    handler = Handler.loop ∨ handler = Handler.conditional ∨ handler = Handler.otherwise := by
  have hbuiltin : Registry.builtin =
      [("loop", Handler.loop), ("if", Handler.conditional), ("else", Handler.otherwise)] := rfl
  have hin : (name, handler) ∈ Registry.builtin := mem_of_lookup h
  rw [hbuiltin] at hin
  simp only [List.mem_cons, Prod.mk.injEq, List.not_mem_nil, or_false] at hin
  rcases hin with ⟨-, h⟩ | ⟨-, h⟩ | ⟨-, h⟩
  · exact Or.inl h
  · exact Or.inr (Or.inl h)
  · exact Or.inr (Or.inr h)

namespace Resolver

/-- A resolver that knows the built-in directive tags or none. -/
def IsBuiltin : Resolver → Prop
  | .literal => True
  | .space _ registry => registry = Registry.builtin

/-- A tag is left alone, gives parts that stand alone, or is refused for its misuse. -/
theorem IsBuiltin.within_resolve {resolver : Resolver} (h : resolver.IsBuiltin) (tag : Tag) :
    (resolver.resolve tag).Within (∀ ps ∈ ·, Part.Lone ps) Error.Declared := by
  cases resolver with
  | literal => exact nofun
  | space leading registry =>
    obtain rfl : registry = Registry.builtin := h
    unfold resolve
    dsimp only
    split
    · exact nofun
    · split
      · exact .tag tag.name none (.unknownName _)
      · rename_i handler hget
        have hhandler : (handler.resolve tag).Within Part.Lone Error.Declared := by
          rcases Registry.get?_builtin hget with rfl | rfl | rfl
          · exact Handler.within_loop tag
          · exact Handler.within_conditional tag
          · exact Handler.within_otherwise tag
        exact hhandler.map fun ps hps _ hmem => Option.mem_some_iff.1 hmem ▸ hps

end Resolver
end HtmlTemplate
