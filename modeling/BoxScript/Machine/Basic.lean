import BoxScript.Native.Routines

/-!
# The evaluation machine

Evaluation keeps two stacks: frames, one for each expression under evaluation,
and values, the boxes that finished expressions have left. A frame knows its
target, the box against which names resolve, how often it has been dispatched,
and its floor, the number of values when it was pushed. A frame pushes frames
for the parts of its expression, finds their values above its floor, and pops
itself when it has left exactly one value there.
-/

set_option autoImplicit false

namespace BoxScript

structure Frame where
  target : Ref
  expr : Expr
  step : Nat
  floor : Nat
  /-- The method that a call has found. -/
  method : Option Method

/-- The state of an evaluation. The newest frame comes first, the newest value
last. -/
structure Machine (σ : Type) where
  heap : Heap
  world : σ
  values : Array Ref
  frames : List Frame

/-- An evaluation that cannot go on. -/
structure Halted (σ : Type) where
  failure : Failure
  heap : Heap
  world : σ

namespace Machine

variable {σ : Type}

/-- What a dispatch leads to. -/
abbrev Next (σ : Type) := Except (Halted σ) (Machine σ)

/-- Adds a frame for an expression. -/
def push (m : Machine σ) (target : Ref) (e : Expr) : Machine σ :=
  { m with frames := ⟨target, e, 0, m.values.size, none⟩ :: m.frames }

/-- Removes the newest frame. -/
def pop (m : Machine σ) : Machine σ := { m with frames := m.frames.tail }

/-- Adds a value. -/
def pushValue (m : Machine σ) (v : Ref) : Machine σ :=
  match m with
  | ⟨heap, world, values, frames⟩ => ⟨heap, world, values.push v, frames⟩

/-- Removes all values but the first `n`. -/
def trim (m : Machine σ) (n : Nat) : Machine σ :=
  match m with
  | ⟨heap, world, values, frames⟩ => ⟨heap, world, values.shrink n, frames⟩

/-- Changes the heap. -/
def mapHeap (m : Machine σ) (f : Heap → Heap) : Machine σ :=
  match m with
  | ⟨heap, world, values, frames⟩ => ⟨f heap, world, values, frames⟩

/-- Makes a box. -/
def make (m : Machine σ) (f : Heap → Heap × Ref) : Machine σ × Ref :=
  match m with
  | ⟨heap, world, values, frames⟩ =>
    let (heap, r) := f heap
    (⟨heap, world, values, frames⟩, r)

/-- Keeps the method that a call has found in the newest frame. -/
def setMethod (m : Machine σ) (method : Option Method) : Machine σ :=
  match m.frames with
  | [] => m
  | f :: frames => { m with frames := { f with method } :: frames }

/-- Stops for a cause. -/
def fail (m : Machine σ) (cause : Cause) : Next σ := .error ⟨.cause cause, m.heap, m.world⟩

/-- Stops for good. -/
def crash (m : Machine σ) : Next σ := .error ⟨.fatal, m.heap, m.world⟩

/-- Takes the newest value off and goes on with it. -/
def withValue (m : Machine σ) (next : Ref → Machine σ → Next σ) : Next σ :=
  match m.values.back? with
  | none => m.crash
  | some v =>
    match m with
    | ⟨heap, world, values, frames⟩ => next v ⟨heap, world, values.pop, frames⟩

/-- The machine about to evaluate an expression. The value at the bottom is
never taken off. -/
def start (h : Heap) (world : σ) (target : Ref) (e : Expr) : Machine σ :=
  { heap := h, world, values := #[Canon.nullValue], frames := [⟨target, e, 0, 1, none⟩] }

end Machine

end BoxScript
