import BoxScript.Expr.Basic

/-!
# Boxes

Every value is a box: variables, possibly a method of its own, and a payload.
Variables are kept with distinct names, in no order that anyone is shown.
-/

set_option autoImplicit false

namespace BoxScript

/-- Names bound to boxes. -/
abbrev Vars := List (String × Ref)

namespace Vars

/-- Binds a name, in place of an earlier binding of it. -/
def set (name : String) (value : Ref) : Vars → Vars
  | [] => [(name, value)]
  | (n, r) :: vars => if n = name then (n, value) :: vars else (n, r) :: set name value vars

/-- Removes the binding of a name. -/
def erase (name : String) (vars : Vars) : Vars := vars.filter fun v => v.1 != name

/-- The bound names in ascending order. -/
def sortedNames (vars : Vars) : List String :=
  (vars.map Prod.fst).mergeSort fun a b => a ≤ b

end Vars

/-- What a call runs. Variadic methods take an argument book of any size. -/
structure Method where
  params : List String
  body : Option Expr
  variadic : Bool

/-- The opaque content of a box. An item of a list and the value of a dictionary
entry may be missing, which only the embedding program can bring about. -/
inductive Payload where
  | none
  | bool (value : Bool)
  | integer (value : Int64)
  | real (value : Float)
  | text (bytes : Bytes)
  | list (items : List (Option Ref))
  | dictionary (entries : List (Ref × Option Ref))
deriving Inhabited

/-- Whether a payload is a value of its own rather than a collection of boxes. -/
def Payload.isPrimitive : Payload → Bool
  | .bool _ => true
  | .integer _ => true
  | .real _ => true
  | .text _ => true
  | _ => false

structure Box where
  vars : Vars := []
  method : Option Method := none
  payload : Payload := .none
deriving Inhabited

namespace Box

/-- The box bound to a name. Components and delegates are not searched. -/
def get? (b : Box) (name : String) : Option Ref := b.vars.lookup name

/-- The items of a list. -/
def items? (b : Box) : Option (List (Option Ref)) :=
  match b.payload with
  | .list items => some items
  | _ => none

/-- A box whose method runs a native routine on any arguments. -/
def native (name : String) (routine : Option Routine) : Box :=
  { method := some ⟨[], some (.native name routine), true⟩ }

end Box

/-- The variable that lists a box's components, its structural types. -/
def componentsName : String := "components"

/-- The variable that redirects calls to another box. -/
def callName : String := "call"

/-- The variable that holds the getter by which arguments are bound. -/
def getName : String := "get"

/-- The variable of a call scope that holds the argument book. -/
def argumentsName : String := "arguments"

end BoxScript
