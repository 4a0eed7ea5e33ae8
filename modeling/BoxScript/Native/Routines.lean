import BoxScript.Native.Arithmetic
import BoxScript.Native.Text
import BoxScript.Native.Getter

/-!
# The native routines

The routines that come with the language, by name, and how any of them is run.
The embedding program may supply more: its functions see and change the heap
and a world of its own, and can ask for the evaluation to end.
-/

set_option autoImplicit false

namespace BoxScript

/-- The routines that come with the language. -/
def shippedRoutines : List (String × Routine) :=
  [("add", .add), ("sub", .sub), ("mul", .mul), ("div", .div), ("less", .less),
    ("equal", .equal), ("if", .select), ("concat", .concat), ("length", .length),
    ("upper", .upper), ("lower", .lower), ("join", .join)]

/-- What a function of the embedding program leaves behind. -/
structure Reply (σ : Type) where
  result : Except Failure (Option Ref)
  heap : Heap
  world : σ

/-- The program that embeds the language. `σ` is the type of its world. -/
structure Host (σ : Type) where
  /-- The routines that native calls find by name. -/
  natives : List (String × Routine) := shippedRoutines
  /-- Its own functions, by key. -/
  call : String → List (Option Ref) → Heap → σ → Reply σ
  /-- Whether it has asked for the running evaluation to end. -/
  done : σ → Bool

/-- A program that adds no functions and never ends an evaluation early. -/
def Host.plain : Host Unit where
  call := fun _ _ h w => ⟨.error .fatal, h, w⟩
  done := fun _ => false

namespace Routine

/-- What a routine of the language answers, from the heap as it is. -/
def answer (h : Heap) (args : List (Option Ref)) : Routine → Except Failure Native.Answer
  | .add => Native.add h args
  | .sub => Native.sub h args
  | .mul => Native.mul h args
  | .div => Native.div h args
  | .less => Native.less h args
  | .equal => Native.equal h args
  | .select => Native.select h args
  | .concat => Native.concat h args
  | .length => Native.length h args
  | .upper => Native.upper h args
  | .lower => Native.lower h args
  | .join => Native.join h args
  | .item list => Native.item h list args
  | .entry dictionary => Native.entry h dictionary args
  | .host _ => .error .fatal

/-- Runs a routine. -/
def run {σ : Type} (host : Host σ) (routine : Routine) (args : List (Option Ref)) (h : Heap)
    (world : σ) : Reply σ :=
  match routine with
  | .host key => host.call key args h world
  | routine =>
    match routine.answer h args with
    | .error failure => ⟨.error failure, h, world⟩
    | .ok answer =>
      let (h, r) := answer.realize h
      ⟨.ok r, h, world⟩

end Routine

end BoxScript
