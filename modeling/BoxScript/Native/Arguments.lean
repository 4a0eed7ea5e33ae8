import BoxScript.Failure
import BoxScript.Heap.Factory

/-!
# Arguments and answers of native routines

A routine first checks how many arguments it got and then what kind of payload
each has, from left to right. It reads the heap and answers with a box that
exists or with the payload of a new one; it changes no box. A missing argument
can be passed on but has no payload, and asking for one is fatal.
-/

set_option autoImplicit false

namespace BoxScript.Native

/-- What a routine answers with. -/
inductive Answer where
  | box (r : Ref)
  /-- Nothing, which counts as null. -/
  | nothing
  | integer (n : Int64)
  | real (x : Float)
  | text (bytes : Bytes)

/-- Makes the box of an answer. -/
def Answer.realize (h : Heap) : Answer → Heap × Option Ref
  | .box r => (h, some r)
  | .nothing => (h, none)
  | .integer n => let (h, r) := h.newInteger n; (h, some r)
  | .real x => let (h, r) := h.newReal x; (h, some r)
  | .text bytes => let (h, r) := h.newText bytes; (h, some r)

/-- The singleton of a truth value. -/
def Answer.bool (b : Bool) : Answer := .box (Canon.ofBool b)

/-- An argument or item passed on. -/
def Answer.passed : Option Ref → Answer
  | some r => .box r
  | none => .nothing

/-- A failure for a cause. -/
def fails {α : Type} (cause : Cause) : Except Failure α := .error (.cause cause)

/-- Fails unless there are exactly `n` arguments. -/
def checkCount (routine : String) (args : List (Option Ref)) (n : Int) : Except Failure Unit :=
  if (args.length : Int) = n then .ok () else fails (.argumentCount routine n args.length)

/-- The only argument. -/
def one (routine : String) (args : List (Option Ref)) : Except Failure (Option Ref) :=
  match args with
  | [x] => .ok x
  | _ => fails (.argumentCount routine 1 args.length)

/-- The two arguments. -/
def two (routine : String) (args : List (Option Ref)) :
    Except Failure (Option Ref × Option Ref) :=
  match args with
  | [x, y] => .ok (x, y)
  | _ => fails (.argumentCount routine 2 args.length)

/-- The three arguments. -/
def three (routine : String) (args : List (Option Ref)) :
    Except Failure (Option Ref × Option Ref × Option Ref) :=
  match args with
  | [x, y, z] => .ok (x, y, z)
  | _ => fails (.argumentCount routine 3 args.length)

/-- The payload of an argument. -/
def payload (h : Heap) : Option Ref → Except Failure Payload
  | some r => .ok (h.box r).payload
  | none => .error .fatal

/-- The integer at a position. -/
def integerAt (h : Heap) (routine : String) (position : Nat) (x : Option Ref) :
    Except Failure Int64 := do
  match ← payload h x with
  | .integer n => return n
  | _ => fails (.argumentType routine position "Integer")

/-- The text at a position. -/
def textAt (h : Heap) (routine : String) (position : Nat) (x : Option Ref) :
    Except Failure Bytes := do
  match ← payload h x with
  | .text bytes => return bytes
  | _ => fails (.argumentType routine position "String")

/-- The items of the list at a position. -/
def listAt (h : Heap) (routine : String) (position : Nat) (x : Option Ref) :
    Except Failure (List (Option Ref)) := do
  match ← payload h x with
  | .list items => return items
  | _ => fails (.argumentType routine position "List")

/-- The texts of all arguments from a position on. -/
def textsFrom (h : Heap) (routine : String) :
    Nat → List (Option Ref) → Except Failure (List Bytes)
  | _, [] => .ok []
  | position, x :: rest =>
    match textAt h routine position x with
    | .error failure => .error failure
    | .ok bytes =>
      match textsFrom h routine (position + 1) rest with
      | .error failure => .error failure
      | .ok texts => .ok (bytes :: texts)

end BoxScript.Native
