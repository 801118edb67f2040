import HtmlTemplate.Proofs.Code.Names

/-!
# Closed — the names that an expression reads and binds

An expression can be run if every name that it reads means something, and every parameter of its
functions can be bound.  `Expr.Closed` says the first.  As to the second, the parameters of an
expression that can be written may all be used (`Expr.usable_parameters`), and only the reserved
name among them could not be bound (`Expr.bindable_eq`).
-/

namespace HtmlTemplate

open Text

namespace Expr

/-! ## Names that are read -/

mutual

/-- Whether every name that an expression reads is bound around it, or a helper's. -/
def Closed (bound : List String) : Expr → Prop
  | literal _ => True
  | name word => word ∈ bound ∨ (Helper.ofName? word).isSome = true
  | tuple items => ClosedAll bound items
  | member target _ => target.Closed bound
  | call target arguments => target.Closed bound ∧ ClosedAll bound arguments
  | function parameter? body => body.Closed (parameter?.toList ++ bound)
  | negation operand => operand.Closed bound
  | plus left right => left.Closed bound ∧ right.Closed bound

def ClosedAll (bound : List String) : List Expr → Prop
  | [] => True
  | e :: es => e.Closed bound ∧ ClosedAll bound es

end

theorem ClosedAll.append {bound : List String} {es fs : List Expr} (hes : ClosedAll bound es)
    (hfs : ClosedAll bound fs) : ClosedAll bound (es ++ fs) := by
  induction es with
  | nil => exact hfs
  | cons e es ih => exact ⟨hes.1, ih hes.2⟩

theorem closed_helper (bound : List String) (h : Helper) : (name h.name).Closed bound := by
  have hknown : (Helper.ofName? h.name).isSome = true := by
    rw [h.ofName?_name]
    rfl
  exact Or.inr hknown

/-! ## Names that are bound -/

theorem parametersOfAll_append (es fs : List Expr) :
    parametersOfAll (es ++ fs) = parametersOfAll es ++ parametersOfAll fs := by
  induction es with
  | nil => rfl
  | cons e es ih => simp [parametersOfAll, ih]

mutual

/-- The parameters of an expression that can be written may be used. -/
theorem usable_parameters : ∀ e : Expr, e.Writable → ∀ p ∈ e.parameters, Usable p
  | literal _, _ => by
    intro p hp
    cases hp
  | name _, _ => by
    intro p hp
    cases hp
  | tuple items, hw => usable_parametersOfAll items hw
  | member target _, hw => usable_parameters target hw.2.1
  | call target arguments, hw => by
    intro p hp
    rcases List.mem_append.1 hp with htarget | harguments
    · exact usable_parameters target hw.2.1 p htarget
    · exact usable_parametersOfAll arguments hw.2.2 p harguments
  | function none body, hw => usable_parameters body hw.2
  | function (some parameter) body, hw => by
    intro p hp
    rcases List.mem_cons.1 hp with rfl | hbody
    · exact hw.1 p rfl
    · exact usable_parameters body hw.2 p hbody
  | negation operand, hw => usable_parameters operand hw.2
  | plus left right, hw => by
    intro p hp
    rcases List.mem_append.1 hp with hleft | hright
    · exact usable_parameters left hw.2.2.1 p hleft
    · exact usable_parameters right hw.2.2.2 p hright

theorem usable_parametersOfAll : ∀ es : List Expr, WritableAll es →
    ∀ p ∈ parametersOfAll es, Usable p
  | [], _ => by
    intro p hp
    cases hp
  | e :: es, hw => by
    intro p hp
    rcases List.mem_append.1 hp with he | hes
    · exact usable_parameters e hw.1 p he
    · exact usable_parametersOfAll es hw.2 p hes

end

/-- The parameters of an expression can be bound if none of them is the reserved name. -/
theorem bindable_eq (e : Expr) :
    e.bindable = if reservedName ∈ e.parameters then .error (.reservedParameter reservedName)
      else .ok e := by
  unfold bindable
  simp only [List.contains_iff_mem]

end Expr
end HtmlTemplate
