import BoxScript.Box

/-!
# The heap

All boxes by the order in which they were made. Boxes are never removed, and a
box keeps its payload and method; only variables change. The first boxes are
the same in every heap: the prototypes, the list that is the components of all
lists, the singletons and the globals.
-/

set_option autoImplicit false

namespace BoxScript

structure Heap where
  boxes : Array Box

/-! ## The boxes that every heap starts with -/

namespace Canon

/-- The prototype of null values. -/
def null : Ref := 0
def boolean : Ref := 1
def integer : Ref := 2
def real : Ref := 3
def text : Ref := 4
def list : Ref := 5
def dictionary : Ref := 6

/-- The components shared by all lists: the list of the list prototype. It is
its own components. -/
def listTag : Ref := 7
def listTagGetter : Ref := 8

/-- The value of `null`. -/
def nullValue : Ref := 9
def trueValue : Ref := 12
def falseValue : Ref := 15

/-- The box whose variables names fall back to. -/
def globals : Ref := 18

/-- The singleton of a truth value. -/
def ofBool (b : Bool) : Ref := if b then trueValue else falseValue

/-- The boxes that programs may not assign to. -/
def isSealed (r : Ref) : Bool :=
  r == nullValue || r == trueValue || r == falseValue || r == listTag

end Canon

namespace Heap

def size (h : Heap) : Nat := h.boxes.size

/-- The box of an identity; an empty one if it was never made. -/
def box (h : Heap) (r : Ref) : Box := h.boxes[r]?.getD {}

/-- A heap with one more box, whose identity is the old size. -/
def push (h : Heap) (b : Box) : Heap := ⟨h.boxes.push b⟩

/-- Makes a box. -/
def alloc (h : Heap) (b : Box) : Heap × Ref :=
  let r := h.size
  (h.push b, r)

/-- Changes the variables of a box. -/
def updateVars (h : Heap) (r : Ref) (f : Vars → Vars) : Heap :=
  ⟨h.boxes.modify r fun b => { b with vars := f b.vars }⟩

/-- The variable of a box. -/
def get? (h : Heap) (r : Ref) (name : String) : Option Ref := (h.box r).get? name

/-- The components of a box, if its variable for them holds a list. -/
def components? (h : Heap) (r : Ref) : Option (List (Option Ref)) :=
  match h.get? r componentsName with
  | some c => (h.box c).items?
  | none => none

end Heap

end BoxScript
