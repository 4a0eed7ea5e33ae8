import BoxScript.Machine.Step

/-!
# Running the machine

A run dispatches frames until none is left, one fails, or the embedding
program has asked for an end, which is looked at before every dispatch. The
number of dispatches is bounded by an allowance; a run that used it up is
unfinished, which is no answer.

When an evaluation fails, the failure is reported with the text of the whole
program, so a program with a hole in it, which has no text, ends it for good.
-/

set_option autoImplicit false

namespace BoxScript

/-- How an evaluation ends. -/
inductive Outcome where
  | value (r : Ref)
  | failed (error : EvalError)
  | cancelled
  | fatal
  | unfinished

/-- The end of an evaluation and what it left behind. -/
structure Result (σ : Type) where
  outcome : Outcome
  heap : Heap
  world : σ

namespace Machine

variable {σ : Type}

/-- The newest value, which is that of the program once no frame is left. -/
def answer (m : Machine σ) : Outcome :=
  match m.values.back? with
  | some v => .value v
  | none => .fatal

/-- The result of a failed dispatch of an expression. -/
def stopped (halted : Halted σ) (e : Expr) : Result σ :=
  match halted.failure with
  | .cause cause => ⟨.failed ⟨e, cause⟩, halted.heap, halted.world⟩
  | .fatal => ⟨.fatal, halted.heap, halted.world⟩

/-- Runs a machine for at most `fuel` dispatches. -/
def run (host : Host σ) (fuel : Nat) (m : Machine σ) : Result σ :=
  if m.frames.isEmpty then ⟨m.answer, m.heap, m.world⟩
  else if host.done m.world then ⟨.cancelled, m.heap, m.world⟩
  else match fuel with
    | 0 => ⟨.unfinished, m.heap, m.world⟩
    | fuel + 1 =>
      match step host m with
      | .error (halted, e) => stopped halted e
      | .ok m => run host fuel m

end Machine

/-- An allowance of dispatches that no run comes near. -/
def ampleFuel : Nat := 1000000000000000000

/-- Ends an evaluation for good if its failure cannot be reported. -/
def Result.reported {σ : Type} (program : Expr) (r : Result σ) : Result σ :=
  match r.outcome with
  | .failed _ => if program.complete then r else { r with outcome := .fatal }
  | _ => r

/-- The target of an evaluation; a new box if none is given. -/
def Heap.target (h : Heap) : Option Ref → Heap × Ref
  | some target => (h, target)
  | none => h.newBox

/-- Evaluates a program against a target. The value of no program is null. -/
def evaluate {σ : Type} (host : Host σ) (fuel : Nat) (h : Heap) (world : σ)
    (target : Option Ref) (program : Option Expr) : Result σ :=
  let (h, target) := h.target target
  match program with
  | none => ⟨.value Canon.nullValue, h, world⟩
  | some e => (Machine.run host fuel (.start h world target e)).reported e

end BoxScript
