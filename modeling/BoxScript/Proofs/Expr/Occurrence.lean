import BoxScript.Expr.Basic

/-!
# What stands in an expression

An expression is made of parts, which have parts themselves. Those among them
that are evaluated against the same target as the expression are its operands:
all but the bodies of boxes and methods.
-/

set_option autoImplicit false

namespace BoxScript.Expr

/-- The expressions that an expression is made of. -/
def parts : Expr → List Expr
  | .sequence es => es
  | .member target _ => [target]
  | .assign _ value => [value]
  | .assignMember target _ value => [target, value]
  | .call target argument => [target, argument]
  | .box body => body.toList
  | .method _ body => body.toList
  | .list items => items
  | _ => []

/-- An expression stands somewhere in another, or is that one. -/
inductive Occurs (f : Expr) : Expr → Prop where
  | here : Occurs f f
  | inside {e g : Expr} (part : g ∈ e.parts) (occurs : Occurs f g) : Occurs f e

theorem Occurs.trans {f g e : Expr} (inner : Occurs f g) (outer : Occurs g e) : Occurs f e := by
  induction outer with
  | here => exact inner
  | inside part _ ih => exact .inside part ih

/-- The expressions of a sequence occur in what it is folded into. -/
theorem occurs_ofList {es : List Expr} {e : Expr} (member : e ∈ es) :
    ∃ body, ofList es = some body ∧ Occurs e body := by
  match es, member with
  | [f], member =>
    rw [List.mem_singleton.mp member]
    exact ⟨f, rfl, .here⟩
  | f :: g :: es, member => exact ⟨.sequence (f :: g :: es), rfl, .inside member .here⟩

/-- The parts that are evaluated against the target of the expression. -/
def operands : Expr → List Expr
  | .box _ => []
  | .method _ _ => []
  | e => e.parts

theorem parts_of_operands {e g : Expr} (operand : g ∈ e.operands) : g ∈ e.parts := by
  cases e with
  | box body => cases operand
  | method params body => cases operand
  | _ => exact operand

end BoxScript.Expr
