import BoxScript.Machine.Call

/-!
# Dispatching frames

One dispatch counts a step of the newest frame and does what its expression
does at that step.
-/

set_option autoImplicit false

namespace BoxScript

/-- What a name stands for: a variable of the target, the keyword `null`, or a
global variable. -/
def Heap.lookup (h : Heap) (target : Ref) (name : String) : Option Ref :=
  match h.get? target name with
  | some v => some v
  | none => if name = "null" then some Canon.nullValue else h.get? Canon.globals name

/-- The items that a native call is given: those of a list, any other box as
the only one, or none. -/
def Heap.arguments (h : Heap) (scope : Ref) : List (Option Ref) :=
  match h.get? scope argumentsName with
  | none => []
  | some book => (h.box book).items?.getD [some book]

namespace Machine

variable {σ : Type}

def sequence (m : Machine σ) (f : Frame) (es : List Expr) : Next σ :=
  match es with
  | [] => .ok (if f.step = 0 then m.pushValue Canon.nullValue else m.pop)
  | es =>
    match es[f.step]? with
    | some e => .ok ((m.trim f.floor).push f.target e)
    | none => .ok m.pop

def name (m : Machine σ) (f : Frame) (n : String) : Next σ :=
  match f.step with
  | 0 =>
    match m.heap.lookup f.target n with
    | some v => .ok (m.pushValue v)
    | none => m.fail (.undefined n)
  | _ => .ok m.pop

def member (m : Machine σ) (f : Frame) (target : Expr) (n : String) : Next σ :=
  match f.step with
  | 0 => .ok (m.push f.target target)
  | 1 => m.withValue fun t m =>
    match m.heap.get? t n with
    | some v => .ok (m.pushValue v)
    | none => m.fail (.undefined n)
  | _ => .ok m.pop

/-- Binds a variable unless its box is sealed. The value is left. -/
def store (m : Machine σ) (r : Ref) (n : String) (v : Ref) : Next σ :=
  if Canon.isSealed r then m.fail (.sealed n)
  else .ok ((m.mapHeap fun h => h.assign r n v).pushValue v)

def assign (m : Machine σ) (f : Frame) (n : String) (value : Expr) : Next σ :=
  match f.step with
  | 0 => .ok (m.push f.target value)
  | 1 => m.withValue fun v m => m.store f.target n v
  | _ => .ok m.pop

def assignMember (m : Machine σ) (f : Frame) (target : Expr) (n : String) (value : Expr) :
    Next σ :=
  match f.step with
  | 0 => .ok (m.push f.target target)
  | 1 => .ok (m.push f.target value)
  | 2 => m.withValue fun v m => m.withValue fun t m => m.store t n v
  | _ => .ok m.pop

def box (m : Machine σ) (f : Frame) (body : Option Expr) : Next σ :=
  match f.step with
  | 0 =>
    let (m, b) := m.make Heap.newBox
    let m := m.pushValue b
    match body with
    | none => .ok m
    | some e => .ok (m.push b e)
  | 1 => .ok (m.trim (f.floor + 1))
  | _ => .ok m.pop

def method (m : Machine σ) (f : Frame) (params : List String) (body : Option Expr) : Next σ :=
  match f.step with
  | 0 =>
    let (m, b) := m.make fun h => h.newMethod ⟨params, body, false⟩
    .ok (m.pushValue b)
  | 1 => .ok (m.trim (f.floor + 1))
  | _ => .ok m.pop

/-- An expression without parts that makes its value. -/
def leaf (m : Machine σ) (f : Frame) (value : Heap → Heap × Ref) : Next σ :=
  match f.step with
  | 0 =>
    let (m, v) := m.make value
    .ok (m.pushValue v)
  | _ => .ok m.pop

def list (m : Machine σ) (f : Frame) (items : List Expr) : Next σ :=
  match items[f.step]? with
  | some e => .ok (m.push f.target e)
  | none =>
    if f.step = items.length then
      let above := (m.values.extract f.floor m.values.size).toList
      let (m, l) := (m.trim f.floor).make fun h => h.newList above
      .ok (m.pushValue l)
    else .ok m.pop

def native (host : Host σ) (m : Machine σ) (f : Frame) (n : String)
    (routine : Option Routine) : Next σ :=
  match f.step with
  | 0 =>
    match routine.or (host.natives.lookup n) with
    | none => m.fail (.unsupported n)
    | some routine =>
      let ⟨heap, world, values, frames⟩ := m
      let args := heap.arguments f.target
      match routine.run host args heap world with
      | ⟨.error failure, heap, world⟩ => .error ⟨failure, heap, world⟩
      | ⟨.ok r, heap, world⟩ =>
        .ok ⟨heap, world, values.push (r.getD Canon.nullValue), frames⟩
  | _ => .ok m.pop

/-- What a frame does when it is dispatched. -/
def dispatch (host : Host σ) (m : Machine σ) (f : Frame) : Next σ :=
  match f.expr with
  | .sequence es => m.sequence f es
  | .name n => m.name f n
  | .member target n => m.member f target n
  | .assign n value => m.assign f n value
  | .assignMember target n value => m.assignMember f target n value
  | .call target argument => m.call f target argument
  | .box body => m.box f body
  | .method params body => m.method f params body
  | .text bytes => m.leaf f fun h => h.newRepairedText bytes
  | .integer n => m.leaf f fun h => h.newInteger n
  | .real x => m.leaf f fun h => h.newReal x
  | .list items => m.list f items
  | .native n routine => native host m f n routine
  | .held r => m.leaf f fun h => (h, r)
  | .foreign kind _ => m.fail (.unknownNode kind)
  | .hole => m.fail (.unknownNode "<nil>")

/-- One dispatch of the newest frame, which is also named if it fails. -/
def step (host : Host σ) (m : Machine σ) : Except (Halted σ × Expr) (Machine σ) :=
  match m with
  | ⟨heap, world, values, []⟩ => .ok ⟨heap, world, values, []⟩
  | ⟨heap, world, values, f :: frames⟩ =>
    match dispatch host ⟨heap, world, values, { f with step := f.step + 1 } :: frames⟩ f with
    | .ok m => .ok m
    | .error halted => .error (halted, f.expr)

end Machine

end BoxScript
