import BoxScript.Proofs.Machine.Simulation
import BoxScript.Proofs.Safety.Heap

/-!
# The boxes that factories make

Every factory puts its boxes behind those of the heap and changes none of them.
A box with components comes with the list of its components and the getter of
that list, so it takes three places.

Methods and payloads are for good. So what is true of those of every box stays
true as long as it is true of new boxes, and of what comes with them.
-/

set_option autoImplicit false

namespace BoxScript.Heap

/-! ## Payloads without boxes -/

theorem plain_none : Plain .none := ⟨nofun, nofun⟩

theorem plain_integer (n : Int64) : Plain (.integer n) := ⟨nofun, nofun⟩

theorem plain_real (x : Float) : Plain (.real x) := ⟨nofun, nofun⟩

theorem plain_text (bytes : Bytes) : Plain (.text bytes) := ⟨nofun, nofun⟩

variable (h : Heap)

/-! ## Boxes with components -/

section Components

variable (component : Ref) (payload : Payload)

theorem newWith_eq :
    h.newWith [component] payload =
      (((h.push { vars := [(componentsName, h.size + 1)], payload }).newList [component]).1,
        h.size) := rfl

@[simp] theorem size_newWith : (h.newWith [component] payload).1.size = h.size + 3 := by
  rw [newWith_eq, size_newList, size_push]

theorem keeps_newWith : h.Keeps (h.newWith [component] payload).1 := by
  rw [newWith_eq]
  exact (keeps_push h _).trans (keeps_newList _ _)

theorem box_newWith :
    (h.newWith [component] payload).1.box h.size =
      { vars := [(componentsName, h.size + 1)], payload } := by
  rw [newWith_eq, (keeps_newList _ _).same _ (by rw [size_push]; omega), box_push_size]

theorem box_newWith_components :
    (h.newWith [component] payload).1.box (h.size + 1) = listBox (h.size + 1) [component] := by
  have list := box_newList (h.push { vars := [(componentsName, h.size + 1)], payload }) [component]
  rw [size_push] at list
  rw [newWith_eq, list]

theorem box_newWith_getter :
    (h.newWith [component] payload).1.box (h.size + 2) =
      .native "List.get" (some (.item (h.size + 1))) := by
  have getter :=
    box_newList_getter (h.push { vars := [(componentsName, h.size + 1)], payload }) [component]
  rw [size_push] at getter
  rw [newWith_eq, getter]

end Components

/-! ## Scopes -/

section Scopes

variable (callee book : Ref)

@[simp] theorem size_scope : (h.scope callee book).1.size = h.size + 3 := by
  rw [scope, size_assign, size_newWith]

theorem box_scope_of_ne {r : Ref} (other : r ≠ h.size) :
    (h.scope callee book).1.box r = (h.newWith [callee] .none).1.box r :=
  box_assign_of_ne other _ _

theorem keeps_scope : h.Keeps (h.scope callee book).1 where
  size := by rw [size_scope]; omega
  same r inside := by
    rw [box_scope_of_ne h callee book (Nat.ne_of_lt inside), (keeps_newWith h _ _).same r inside]

end Scopes

/-- The books for parameters are new boxes. -/
theorem keeps_bindings (getter : Ref) (i : Nat) (params : List String) :
    h.Keeps (Recursive.bindings getter h i params).1 := by
  induction params generalizing h i with
  | nil => exact .refl h
  | cons param params ih =>
    have integer := keeps_newWith h Canon.integer (.integer (Int64.ofNat i))
    have list := keeps_newList (h.newInteger (Int64.ofNat i)).1 [(h.newInteger (Int64.ofNat i)).2]
    exact (integer.trans list).trans (ih _ (i + 1))

/-! ## What is true of every box -/

/-- `P` is true of the method and the payload of every box. -/
def Throughout (P : Option Method → Payload → Prop) (h : Heap) : Prop :=
  ∀ r, P (h.box r).method (h.box r).payload

/-- It is true of an empty box, of lists and their getters, and of the positions
of parameters. -/
structure Usual (P : Option Method → Payload → Prop) : Prop where
  empty : P none .none
  list : ∀ items, P none (.list items)
  getter : ∀ list, P (Box.native "List.get" (some (.item list))).method .none
  integer : ∀ n, P none (.integer n)

namespace Throughout

variable {h} {P : Option Method → Payload → Prop} (usual : Usual P)

include usual

theorem push {b : Box} (new : P b.method b.payload) (all : h.Throughout P) :
    (h.push b).Throughout P := by
  intro r
  rcases Nat.lt_trichotomy r h.size with old | rfl | outside
  · rw [box_push_of_lt b old]
    exact all r
  · rw [box_push_size]
    exact new
  · rw [box_of_le (by rw [size_push]; exact outside)]
    exact usual.empty

theorem assign (r : Ref) (x : String) (v : Ref) (all : h.Throughout P) :
    (h.assign r x v).Throughout P := by
  intro q
  by_cases inside : q < h.size
  · have same := h.extends_assign r x v
    rw [same.method q inside, same.payload q inside]
    exact all q
  · rw [box_of_le (by rw [size_assign]; exact Nat.le_of_not_lt inside)]
    exact usual.empty

theorem newList (items : List Ref) (all : h.Throughout P) : (h.newList items).1.Throughout P := by
  rw [newList_eq]
  exact (all.push usual (usual.list _)).push usual (usual.getter _)

theorem newWith (component : Ref) {payload : Payload} (new : P none payload)
    (all : h.Throughout P) : (h.newWith [component] payload).1.Throughout P := by
  rw [newWith_eq]
  exact (all.push usual new).newList usual _

theorem scope (callee book : Ref) (all : h.Throughout P) :
    (h.scope callee book).1.Throughout P :=
  (all.newWith usual callee usual.empty).assign usual _ _ _

theorem bindings (getter : Ref) (i : Nat) (params : List String) (all : h.Throughout P) :
    (Recursive.bindings getter h i params).1.Throughout P := by
  induction params generalizing h i with
  | nil => exact all
  | cons param params ih =>
    exact ih (i + 1) ((all.newWith usual _ (usual.integer _)).newList usual _)

theorem target (target : Option Ref) (all : h.Throughout P) :
    (h.target target).1.Throughout P := by
  cases target with
  | none => exact all.push usual usual.empty
  | some t => exact all

end Throughout

end BoxScript.Heap
