import BoxScript.Native.Arguments

/-!
# Arithmetic, comparison and selection

Integers are 64 bits wide and wrap around; their division truncates toward
zero. If either operand is real, both are taken as reals.
-/

set_option autoImplicit false

namespace BoxScript.Native

/-- A number on its own. -/
inductive Number where
  | integer (n : Int64)
  | real (x : Float)

/-- The number at a position. -/
def numberAt (h : Heap) (routine : String) (position : Nat) (x : Option Ref) :
    Except Failure Number := do
  match ← payload h x with
  | .integer n => return .integer n
  | .real x => return .real x
  | _ => fails (.argumentType routine position "Integer or Real")

/-- Two numbers of one kind. -/
inductive Operands where
  | integers (x y : Int64)
  | reals (x y : Float)

/-- Brings two numbers to one kind. -/
def Operands.ofNumbers : Number → Number → Operands
  | .integer x, .integer y => .integers x y
  | .integer x, .real y => .reals x.toFloat y
  | .real x, .integer y => .reals x y.toFloat
  | .real x, .real y => .reals x y

/-- The operands of a binary routine. -/
def operands (h : Heap) (routine : String) (args : List (Option Ref)) : Except Failure Operands := do
  let (x, y) ← two routine args
  let x ← numberAt h routine 0 x
  let y ← numberAt h routine 1 y
  return .ofNumbers x y

/-- A binary operation with a form for each kind of number. -/
def arithmetic (routine : String) (onIntegers : Int64 → Int64 → Except Failure Int64)
    (onReals : Float → Float → Float) (h : Heap) (args : List (Option Ref)) :
    Except Failure Answer := do
  match ← operands h routine args with
  | .integers x y => return .integer (← onIntegers x y)
  | .reals x y => return .real (onReals x y)

def add : Heap → List (Option Ref) → Except Failure Answer :=
  arithmetic "add" (fun x y => .ok (x + y)) (· + ·)

def sub : Heap → List (Option Ref) → Except Failure Answer :=
  arithmetic "sub" (fun x y => .ok (x - y)) (· - ·)

def mul : Heap → List (Option Ref) → Except Failure Answer :=
  arithmetic "mul" (fun x y => .ok (x * y)) (· * ·)

/-- The quotient, truncated for integers. Only integers fail on a zero divisor. -/
def div : Heap → List (Option Ref) → Except Failure Answer :=
  arithmetic "div" (fun x y => if y = 0 then fails .divideByZero else .ok (x / y)) (· / ·)

/-- Whether the first number is less than the second. -/
def less (h : Heap) (args : List (Option Ref)) : Except Failure Answer := do
  match ← operands h "less" args with
  | .integers x y => return .bool (x < y)
  | .reals x y => return .bool (x < y)

/-- Whether two arguments are the same or hold equal primitive payloads. -/
def areEqual (h : Heap) (x y : Option Ref) : Except Failure Bool :=
  match x, y with
  | some x, some y => .ok (h.equal x y)
  | none, none => .ok true
  | none, some _ => .error .fatal
  | some x, none => if (h.box x).payload.isPrimitive then .error .fatal else .ok false

/-- Whether two boxes are the same or hold equal primitive payloads. -/
def equal (h : Heap) (args : List (Option Ref)) : Except Failure Answer := do
  let (x, y) ← two "equal" args
  return .bool (← areEqual h x y)

/-- The second argument if the first counts as true, and the third otherwise. -/
def select (h : Heap) (args : List (Option Ref)) : Except Failure Answer := do
  let (condition, yes, no) ← three "if" args
  match condition with
  | none => .error .fatal
  | some condition => return .passed (if h.isTruthy condition then yes else no)

end BoxScript.Native
