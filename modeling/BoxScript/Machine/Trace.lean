import BoxScript.Machine.Run

/-!
# Tracing

A traced run does what a run does and notes each dispatch beforehand: the text
of the frame's expression, its step and floor, the sizes of the two stacks,
and the target. A frame whose expression has a hole cannot be noted.
-/

set_option autoImplicit false

namespace BoxScript

/-- A dispatch as it is noted. -/
structure TraceRow where
  text : String
  step : Nat
  floor : Nat
  frames : Nat
  values : Nat
  target : Ref

namespace Machine

variable {σ : Type}

/-- The note on the next dispatch. -/
def row? (m : Machine σ) : Option TraceRow :=
  match m.frames with
  | [] => none
  | f :: _ =>
    if f.expr.complete then
      some ⟨f.expr.render, f.step, f.floor, m.frames.length, m.values.size, f.target⟩
    else none

/-- Runs a machine with notes. `notes` holds those taken so far, in reverse. -/
def runTraced (host : Host σ) (notes : List TraceRow) (fuel : Nat) (m : Machine σ) :
    List TraceRow × Result σ :=
  if m.frames.isEmpty then (notes.reverse, ⟨m.answer, m.heap, m.world⟩)
  else if host.done m.world then (notes.reverse, ⟨.cancelled, m.heap, m.world⟩)
  else match fuel with
    | 0 => (notes.reverse, ⟨.unfinished, m.heap, m.world⟩)
    | fuel + 1 =>
      match m.row? with
      | none => (notes.reverse, ⟨.fatal, m.heap, m.world⟩)
      | some row =>
        match step host m with
        | .error (halted, e) => ((row :: notes).reverse, stopped halted e)
        | .ok m => runTraced host (row :: notes) fuel m

end Machine

/-- Evaluates a program with notes on every dispatch. -/
def evaluateTraced {σ : Type} (host : Host σ) (fuel : Nat) (h : Heap) (world : σ)
    (target : Option Ref) (program : Option Expr) : List TraceRow × Result σ :=
  let (h, target) := h.target target
  match program with
  | none => ([], ⟨.value Canon.nullValue, h, world⟩)
  | some e =>
    let (notes, result) := Machine.runTraced host [] fuel (.start h world target e)
    (notes, result.reported e)

end BoxScript
