import BoxScript.Machine.Basic

/-!
# Calls

A call evaluates its target and its argument book, finds the method, and makes
a scope whose only component is the called box and whose `arguments` is the
book. Each parameter is bound on the scope by calling the book's getter with
the parameter's position, from the last parameter to the first. Then the body
is evaluated against the scope.
-/

set_option autoImplicit false

namespace BoxScript

/-- Fails unless a list of arguments is as long as the parameter list. -/
def checkLength (params : List String) (given : Nat) : Except Cause Unit :=
  if params.length < given then .error (.tooManyArguments params.length given)
  else match params[given]? with
    | some param => .error (.missingArgument param)
    | none => .ok ()

/-- Fails if there are parameters to bind and no getter to bind them by. -/
def checkGetter (h : Heap) (params : List String) (book : Ref) : Except Cause Unit :=
  match params, h.get? book getName with
  | param :: _, none => .error (.noGetter param (h.display book))
  | _, _ => .ok ()

/-- Whether an argument book can supply a method's parameters. A variadic
method takes any book. -/
def checkArguments (h : Heap) (method : Option Method) (book : Ref) : Except Cause Unit :=
  match method with
  | none => .ok ()
  | some method =>
    if method.variadic then .ok ()
    else match (h.box book).items? with
      | none => checkGetter h method.params book
      | some items =>
        match checkLength method.params items.length with
        | .error cause => .error cause
        | .ok () => checkGetter h method.params book

namespace Machine

variable {σ : Type}

/-- Pushes a frame for each parameter from position `i` on that binds it to
what the getter answers for its position. The lists that hold the positions
are made now, so the frames run from the last parameter to the first. -/
def pushBindings (scope getter : Ref) (m : Machine σ) (i : Nat) : List String → Machine σ
  | [] => m
  | param :: params =>
    let (m, position) := m.make fun h => h.newInteger (Int64.ofNat i)
    let (m, book) := m.make fun h => h.newList [position]
    let bound : Expr := .assign param (.call (.held getter) (.held book))
    pushBindings scope getter (m.push scope bound) (i + 1) params

/-- Binds the parameters of a method on the scope of its call, whose book has
passed the check. -/
def bindParameters (m : Machine σ) (scope book : Ref) : List String → Next σ
  | [] => .ok m
  | params =>
    match m.heap.get? book getName with
    | none => m.crash
    | some getter => .ok (pushBindings scope getter m 0 params)

/-- Makes the scope of a call, checks the arguments and starts binding them. -/
def openScope (m : Machine σ) (method : Option Method) (callee book : Ref) : Next σ :=
  let (m, scope) := m.make fun h => h.newWith [callee] .none
  let m := m.mapHeap fun h => h.assign scope argumentsName book
  match checkArguments m.heap method book with
  | .error cause => m.fail cause
  | .ok () =>
    ((m.setMethod method).pushValue scope).bindParameters scope book
      ((method.map Method.params).getD [])

/-- Starts the call of a box, whose method is found before its scope is made. -/
def enter (m : Machine σ) (callee book : Ref) : Next σ :=
  m.openScope (m.heap.method? callee) callee book

/-- Evaluates the body of a call's method against the scope. -/
def runBody (m : Machine σ) (method : Option Method) (scope : Ref) : Machine σ :=
  match method.bind Method.body with
  | none => m.pushValue Canon.nullValue
  | some body => m.push scope body

/-- The dispatches of a call. -/
def call (m : Machine σ) (f : Frame) (target argument : Expr) : Next σ :=
  match f.step with
  | 0 => .ok (m.push f.target target)
  | 1 => .ok (m.push f.target argument)
  | 2 => m.withValue fun book m => m.withValue fun callee m => m.enter callee book
  | 3 => (m.trim (f.floor + 1)).withValue fun scope m => .ok (m.runBody f.method scope)
  | _ => .ok m.pop

end Machine

end BoxScript
