import BoxScript.Machine.Run

/-!
# Evaluation by plain recursion

The meaning of an expression, without frames and without a stack of values:
parts are evaluated from left to right, each by a nested call. A call evaluates
its target and its argument book, finds the method, makes the scope, checks the
arguments, makes the lists that hold the parameters' positions, binds the
parameters from the last to the first, and evaluates the body.

The recursion may not end, so it is given how deeply calls may nest. A trial
that runs into that limit says nothing; every other result is final.
-/

set_option autoImplicit false

namespace BoxScript

/-- What evaluation reads and changes. -/
structure Store (σ : Type) where
  heap : Heap
  world : σ

/-- What comes of an evaluation that may nest only so deep: nothing, or a value
or a failure with the expression that failed. -/
abbrev Trial (σ α : Type) := Option (Except (Halted σ × Expr) (α × Store σ))

namespace Trial

variable {σ α β : Type}

def value (a : α) (s : Store σ) : Trial σ α := some (.ok (a, s))

def halted (failure : Failure) (e : Expr) (s : Store σ) : Trial σ α :=
  some (.error (⟨failure, s.heap, s.world⟩, e))

def failed (cause : Cause) (e : Expr) (s : Store σ) : Trial σ α := halted (.cause cause) e s

/-- Goes on with a value. -/
def andThen (t : Trial σ α) (next : α → Store σ → Trial σ β) : Trial σ β :=
  match t with
  | none => none
  | some (.error error) => some (.error error)
  | some (.ok (a, s)) => next a s

end Trial

namespace Recursive

variable {σ : Type}

/-- The values of expressions, from left to right. -/
def each (eval : Expr → Store σ → Trial σ Ref) : List Expr → Store σ → Trial σ (List Ref)
  | [], s => .value [] s
  | e :: es, s =>
    (eval e s).andThen fun v s =>
      (each eval es s).andThen fun vs s => .value (v :: vs) s

/-- The value of the last expression, with `v` for that of the one before. -/
def last (eval : Expr → Store σ → Trial σ Ref) (v : Ref) : List Expr → Store σ → Trial σ Ref
  | [], s => .value v s
  | e :: es, s => (eval e s).andThen fun v s => last eval v es s

/-- Binds a variable unless its box is sealed. -/
def store (e : Expr) (r : Ref) (name : String) (v : Ref) (s : Store σ) : Trial σ Ref :=
  if Canon.isSealed r then .failed (.sealed name) e s
  else .value v { s with heap := s.heap.assign r name v }

/-- The assignments that bind parameters from position `i` on, in the order of
their declaration, and the heap with the lists that hold the positions. -/
def bindings (getter : Ref) (h : Heap) (i : Nat) : List String → Heap × List Expr
  | [] => (h, [])
  | param :: params =>
    let (h, position) := h.newInteger (Int64.ofNat i)
    let (h, book) := h.newList [position]
    let (h, rest) := bindings getter h (i + 1) params
    (h, .assign param (.call (.held getter) (.held book)) :: rest)

/-- Binds the parameters of a method on a scope, from the last to the first. -/
def bindAll (eval : Ref → Expr → Store σ → Trial σ Ref) (e : Expr) (scope book : Ref)
    (params : List String) (s : Store σ) : Trial σ (List Ref) :=
  match params with
  | [] => .value [] s
  | params =>
    match s.heap.get? book getName with
    | none => .halted .fatal e s
    | some getter =>
      let (h, assignments) := bindings getter s.heap 0 params
      each (eval scope) assignments.reverse { s with heap := h }

/-- The value of a method's body against a scope. -/
def bodyValue (eval : Ref → Expr → Store σ → Trial σ Ref) (method : Option Method) (scope : Ref)
    (s : Store σ) : Trial σ Ref :=
  match method.bind Method.body with
  | none => .value Canon.nullValue s
  | some body => eval scope body s

/-- The value of a call, from the called box and the argument book on. -/
def invoke (eval : Ref → Expr → Store σ → Trial σ Ref) (e : Expr) (callee book : Ref)
    (s : Store σ) : Trial σ Ref :=
  let method := s.heap.method? callee
  let (h, scope) := s.heap.newWith [callee] .none
  let s := { s with heap := h.assign scope argumentsName book }
  match checkArguments s.heap method book with
  | .error cause => .failed cause e s
  | .ok () =>
    (bindAll eval e scope book ((method.map Method.params).getD []) s).andThen fun _ s =>
      bodyValue eval method scope s

/-- The value of a native call on the arguments of a scope. -/
def runNative (host : Host σ) (e : Expr) (scope : Ref) (name : String)
    (routine : Option Routine) (s : Store σ) : Trial σ Ref :=
  match routine.or (host.natives.lookup name) with
  | none => .failed (.unsupported name) e s
  | some routine =>
    match routine.run host (s.heap.arguments scope) s.heap s.world with
    | ⟨.error failure, heap, world⟩ => .halted failure e ⟨heap, world⟩
    | ⟨.ok r, heap, world⟩ => .value (r.getD Canon.nullValue) ⟨heap, world⟩

/-- A box found by name, or the failure to find one. -/
def found (e : Expr) (name : String) (r : Option Ref) (s : Store σ) : Trial σ Ref :=
  match r with
  | some v => .value v s
  | none => .failed (.undefined name) e s

/-- A box that a factory makes. -/
def made (make : Heap → Heap × Ref) (s : Store σ) : Trial σ Ref :=
  .value (make s.heap).2 { s with heap := (make s.heap).1 }

/-- The value of an expression against a target. -/
def eval (host : Host σ) : Nat → Ref → Expr → Store σ → Trial σ Ref
  | 0, _, _, _ => none
  | n + 1, target, e, s =>
    match e with
    | .sequence es => last (eval host n target) Canon.nullValue es s
    | .name x => found e x (s.heap.lookup target x) s
    | .member t x => (eval host n target t s).andThen fun r s => found e x (s.heap.get? r x) s
    | .assign x value => (eval host n target value s).andThen fun v s => store e target x v s
    | .assignMember t x value =>
      (eval host n target t s).andThen fun r s =>
        (eval host n target value s).andThen fun v s => store e r x v s
    | .call t argument =>
      (eval host n target t s).andThen fun callee s =>
        (eval host n target argument s).andThen fun book s =>
          invoke (eval host n) e callee book s
    | .box none => made Heap.newBox s
    | .box (some body) =>
      (made Heap.newBox s).andThen fun b s =>
        (eval host n b body s).andThen fun _ s => .value b s
    | .method params body => made (fun h => h.newMethod ⟨params, body, false⟩) s
    | .text bytes => made (fun h => h.newRepairedText bytes) s
    | .integer i => made (fun h => h.newInteger i) s
    | .real x => made (fun h => h.newReal x) s
    | .list items =>
      (each (eval host n target) items s).andThen fun vs s => made (fun h => h.newList vs) s
    | .native x routine => runNative host e target x routine s
    | .held r => .value r s
    | .foreign kind _ => .failed (.unknownNode kind) e s
    | .hole => .failed (.unknownNode "<nil>") e s

/-- The recursion ends, with a value or a failure. -/
def Ends (host : Host σ) (target : Ref) (e : Expr) (s : Store σ)
    (result : Except (Halted σ × Expr) (Ref × Store σ)) : Prop :=
  ∃ n, eval host n target e s = some result

end Recursive

end BoxScript
