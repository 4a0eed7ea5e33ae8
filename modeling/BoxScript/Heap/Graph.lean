import BoxScript.Heap.Factory

/-!
# What a box refers to

The references of a box in an order that does not depend on how it is kept:
variables by name, then items in order or entries by the age of their keys.
`reachable` follows them breadth first.
-/

set_option autoImplicit false

namespace BoxScript

/-- The entries of a dictionary, the oldest key first. -/
def entriesByAge (entries : List (Ref × Option Ref)) : List (Ref × Option Ref) :=
  entries.mergeSort fun a b => a.1 ≤ b.1

/-- Variables in ascending order of their names. -/
def Vars.sorted (vars : Vars) : Vars := vars.mergeSort fun a b => a.1 ≤ b.1

namespace Heap

/-- The boxes that a payload holds. -/
def held : Payload → List Ref
  | .list items => items.filterMap id
  | .dictionary entries =>
    (entriesByAge entries).flatMap fun (key, value) => key :: value.toList
  | _ => []

/-- The boxes that a box refers to. -/
def references (h : Heap) (r : Ref) : List Ref :=
  (h.box r).vars.sorted.map Prod.snd ++ held (h.box r).payload

/-- The boxes reachable from the waiting ones, behind those already met. -/
def reach (h : Heap) (outside : Ref → Bool) : Nat → (waiting met : List Ref) → List Ref
  | 0, _, met => met
  | _ + 1, [], met => met
  | n + 1, r :: waiting, met =>
    let fresh := ((h.references r).filter fun p => !outside p && !met.contains p).eraseDups
    h.reach outside n (waiting ++ fresh) (met ++ fresh)

/-- The boxes reachable from a box, itself first, without entering those that
count as outside. -/
def reachable (h : Heap) (outside : Ref → Bool) (start : Ref) : List Ref :=
  h.reach outside (h.size + 1) [start] [start]

/-- A store into a list by the embedding program, which may leave an item out. -/
def putItem (h : Heap) (list : Ref) (i : Nat) (value : Option Ref) : Heap :=
  ⟨h.boxes.modify list fun b =>
    match b.payload with
    | .list items => { b with payload := .list (items.set i value) }
    | _ => b⟩

end Heap

end BoxScript
