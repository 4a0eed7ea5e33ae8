import BoxScript.Heap.Basic

/-!
# Classifying boxes

A box includes itself, its components, their components, and so on. Null
values are the boxes that include the null prototype. A box whose `call`
variable holds a box that is not null is called as that box is.

Both searches keep the boxes they have met, so a box is met once, and the
number of boxes bounds their length on every heap.
-/

set_option autoImplicit false

namespace BoxScript.Heap

/-- The components of a box that were not met before, each once. -/
def unmet (h : Heap) (met : List Ref) (r : Ref) : List Ref :=
  ((((h.components? r).getD []).filterMap id).filter fun p =>
    p < h.size && !met.contains p).eraseDups

/-- Whether a box is found from the waiting ones, breadth first. -/
def search (h : Heap) (goal : Ref) : Nat → (waiting met : List Ref) → Bool
  | 0, _, _ => false
  | _ + 1, [], _ => false
  | n + 1, r :: waiting, met =>
    if r = goal then true
    else
      let fresh := h.unmet met r
      h.search goal n (waiting ++ fresh) (fresh ++ met)

/-- Whether a box is another one or has it among its components, directly or
through others. -/
def includes (h : Heap) (r goal : Ref) : Bool := h.search goal (h.size + 1) [r] [r]

/-- Whether a box counts as null. -/
def isNull (h : Heap) (r : Ref) : Bool := h.includes r Canon.null

/-- The method found from a box, with the boxes met on the way to it. -/
def methodFrom (h : Heap) : Nat → (met : List Ref) → Ref → Option Method
  | 0, _, _ => none
  | n + 1, met, r =>
    match h.get? r callName with
    | none => (h.box r).method
    | some next =>
      if h.isNull next then (h.box r).method
      else if met.contains next then none
      else h.methodFrom n (next :: met) next

/-- The method that a call of a box runs: that of the last box in its chain of
`call` variables, and none if the chain comes back on itself. -/
def method? (h : Heap) (r : Ref) : Option Method := h.methodFrom (h.size + 1) [r] r

/-- Whether a box counts as true: all do but null values and `false`. -/
def isTruthy (h : Heap) (r : Ref) : Bool :=
  if h.isNull r then false
  else match (h.box r).payload with
    | .bool b => b
    | _ => true

/-- Whether two payloads are primitive, of one kind and equal. -/
def equalPayloads : Payload → Payload → Bool
  | .bool x, .bool y => x == y
  | .integer x, .integer y => x == y
  | .real x, .real y => x == y
  | .text x, .text y => x == y
  | _, _ => false

/-- Whether two boxes are the same or have equal primitive payloads. -/
def equal (h : Heap) (x y : Ref) : Bool :=
  x == y || equalPayloads (h.box x).payload (h.box y).payload

end BoxScript.Heap
