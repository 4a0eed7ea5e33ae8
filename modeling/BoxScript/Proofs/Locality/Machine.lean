import BoxScript.Proofs.Locality.Natives
import BoxScript.Proofs.Safety.Machine

/-!
# Machines on heaps that are alike

Two machines are alike on a set of boxes if they differ in the boxes outside it
only, and their values, targets and expressions are of the set. A dispatch leads
both to machines that are alike, or stops both for the same reason, and it
changes no box outside the set. So two runs stay in step to their ends.
-/

set_option autoImplicit false

namespace BoxScript

namespace Heap.Alike

variable {P : Ref → Prop} {h h' : Heap} (alike : Alike P h h')

include alike

theorem symm : Alike P h' h where
  size := alike.size.symm
  same r inside := (alike.same r inside).symm
  closed r inside := by
    rw [alike.same r inside]
    exact alike.closed r inside
  fresh r outside := alike.fresh r (by rwa [alike.size] at outside)
  shared := alike.shared

theorem left : Alike P h h := ⟨rfl, fun _ _ => rfl, alike.closed, alike.fresh, alike.shared⟩

/-- The books for parameters, and the assignments that bind them. -/
theorem bindings {getter : Ref} (inside : P getter) (i : Nat) (params : List String) :
    Alike P (Recursive.bindings getter h i params).1 (Recursive.bindings getter h' i params).1 ∧
      (Recursive.bindings getter h' i params).2 = (Recursive.bindings getter h i params).2 ∧
      ∀ e ∈ (Recursive.bindings getter h i params).2, e.Local P := by
  induction params generalizing h h' i with
  | nil => exact ⟨alike, rfl, fun e none => by cases none⟩
  | cons param params ih =>
    have integer := alike.newInteger (Int64.ofNat i)
    have book : AlikeMade P
        ((h.newInteger (Int64.ofNat i)).1.newList [(h.newInteger (Int64.ofNat i)).2])
        ((h'.newInteger (Int64.ofNat i)).1.newList [(h'.newInteger (Int64.ofNat i)).2]) := by
      rw [integer.same]
      exact integer.heap.newList (by simpa using integer.inside)
    obtain ⟨heap, same, all⟩ := ih book.heap (i + 1)
    refine ⟨heap, ?_, fun e member => ?_⟩
    · simp only [Recursive.bindings, book.same, same]
    · rcases List.mem_cons.mp member with rfl | member
      · exact .assign (.call (.held inside) (.held book.inside))
      · exact all e member

end Heap.Alike

structure Frame.Local (P : Ref → Prop) (f : Frame) : Prop where
  target : P f.target
  expr : f.expr.Local P
  method : ∀ m ∈ f.method, m.Local P

theorem Frame.local_new {P : Ref → Prop} {target : Ref} {e : Expr} (inside : P target)
    (local_ : e.Local P) (floor : Nat) : Frame.Local P ⟨target, e, 0, floor, none⟩ where
  target := inside
  expr := local_
  method m none := by cases none

structure Halted.Alike {σ : Type} (P : Ref → Prop) (a b : Halted σ) : Prop where
  failure : b.failure = a.failure
  heap : Heap.Alike P a.heap b.heap
  world : b.world = a.world

namespace Machine

variable {σ : Type}

structure Alike (P : Ref → Prop) (m m' : Machine σ) : Prop where
  heap : Heap.Alike P m.heap m'.heap
  world : m'.world = m.world
  values : m'.values = m.values
  frames : m'.frames = m.frames
  held : ∀ v ∈ m.values, P v
  local_ : ∀ f ∈ m.frames, f.Local P

/-- Two dispatches lead to machines that are alike, or both stop. -/
def AlikeNext (P : Ref → Prop) : Next σ → Next σ → Prop
  | .ok m, .ok m' => Alike P m m'
  | .error a, .error b => a.Alike P b
  | _, _ => False

namespace Alike

variable {P : Ref → Prop} {m m' : Machine σ} (alike : Alike P m m')

include alike

theorem symm : Alike P m' m where
  heap := alike.heap.symm
  world := alike.world.symm
  values := alike.values.symm
  frames := alike.frames.symm
  held := by rw [alike.values]; exact alike.held
  local_ := by rw [alike.frames]; exact alike.local_

/-! ## The parts of a dispatch -/

theorem push {target : Ref} {e : Expr} (inside : P target) (local_ : e.Local P) :
    Alike P (m.push target e) (m'.push target e) where
  heap := alike.heap
  world := alike.world
  values := alike.values
  frames := by rw [Machine.push, Machine.push, alike.values, alike.frames]
  held := alike.held
  local_ f member := by
    rcases List.mem_cons.mp member with rfl | member
    · exact Frame.local_new inside local_ _
    · exact alike.local_ f member

theorem pop : Alike P m.pop m'.pop where
  heap := alike.heap
  world := alike.world
  values := alike.values
  frames := congrArg List.tail alike.frames
  held := alike.held
  local_ f member := alike.local_ f (List.mem_of_mem_tail member)

theorem pushValue {v : Ref} (inside : P v) : Alike P (m.pushValue v) (m'.pushValue v) where
  heap := alike.heap
  world := alike.world
  values := congrArg (·.push v) alike.values
  frames := alike.frames
  held w member := by
    rcases Array.mem_push.mp member with member | rfl
    · exact alike.held w member
    · exact inside
  local_ := alike.local_

theorem trim (n : Nat) : Alike P (m.trim n) (m'.trim n) where
  heap := alike.heap
  world := alike.world
  values := congrArg (·.shrink n) alike.values
  frames := alike.frames
  held v member := by
    have kept : v ∈ m.values.toList.take n := by
      rw [← Array.toList_shrink]
      exact Array.mem_toList_iff.mpr member
    exact alike.held v (Array.mem_toList_iff.mp (List.mem_of_mem_take kept))
  local_ := alike.local_

/-- Both heaps may change. -/
theorem onHeaps {h h' : Heap} (heap : Heap.Alike P h h') :
    Alike P { m with heap := h } { m' with heap := h' } :=
  ⟨heap, alike.world, alike.values, alike.frames, alike.held, alike.local_⟩

/-- The machines differ in their heaps only. -/
theorem eq_onHeap : ∃ h', m' = { m with heap := h' } := by
  obtain ⟨heap', world', values', frames'⟩ := m'
  exact ⟨heap', (Machine.mk.injEq ..).mpr ⟨rfl, alike.world, alike.values, alike.frames⟩⟩

theorem setMethod {method : Option Method} (local_ : ∀ x ∈ method, x.Local P) :
    Alike P (m.setMethod method) (m'.setMethod method) := by
  obtain ⟨h', rfl⟩ := alike.eq_onHeap
  obtain ⟨heap, world, values, frames⟩ := m
  cases frames with
  | nil => exact alike
  | cons f frames =>
    refine ⟨alike.heap, rfl, rfl, rfl, alike.held, fun g member => ?_⟩
    rcases List.mem_cons.mp member with rfl | member
    · have newest := alike.local_ f (by simp)
      exact ⟨newest.target, newest.expr, local_⟩
    · exact alike.local_ g (List.mem_cons_of_mem f member)

end Alike

namespace AlikeNext

variable {P : Ref → Prop} {m m' : Machine σ} (alike : Alike P m m')

include alike

theorem fail (cause : Cause) : AlikeNext P (m.fail cause) (m'.fail cause) :=
  ⟨rfl, alike.heap, alike.world⟩

theorem crash : AlikeNext P m.crash m'.crash := ⟨rfl, alike.heap, alike.world⟩

/-- What goes on with a value gets the same one in both machines. -/
theorem withValue {next next' : Ref → Machine σ → Next σ}
    (goesOn : ∀ v n n', Alike P n n' → P v → AlikeNext P (next v n) (next' v n')) :
    AlikeNext P (m.withValue next) (m'.withValue next') := by
  obtain ⟨h', rfl⟩ := alike.eq_onHeap
  obtain ⟨heap, world, values, frames⟩ := m
  simp only [Machine.withValue]
  cases newest : values.back? with
  | none => exact crash alike
  | some v =>
    refine goesOn v _ _ ⟨alike.heap, rfl, rfl, rfl, fun w member => ?_, alike.local_⟩ ?_
    · exact alike.held w (mem_of_mem_pop member)
    · exact alike.held v (Array.mem_of_back? newest)

theorem store {r v : Ref} (inside : P v) (x : String) :
    AlikeNext P (m.store r x v) (m'.store r x v) := by
  rw [Machine.store, Machine.store]
  split
  · exact fail alike _
  · exact (alike.onHeaps (alike.heap.assign r x inside)).pushValue inside

variable {f : Frame}

/-- A box is made and its identity left as a value. -/
theorem make (value : Heap → Heap × Ref)
    (made : Heap.AlikeMade P (value m.heap) (value m'.heap)) :
    Alike P ((m.make value).1.pushValue (m.make value).2)
      ((m'.make value).1.pushValue (m'.make value).2) := by
  have same : (m'.make value).2 = (m.make value).2 := made.same
  rw [same]
  exact (alike.onHeaps made.heap).pushValue made.inside

theorem leaf {value : Heap → Heap × Ref}
    (made : Heap.AlikeMade P (value m.heap) (value m'.heap)) :
    AlikeNext P (m.leaf f value) (m'.leaf f value) := by
  rw [Machine.leaf, Machine.leaf]
  cases f.step with
  | zero => exact make alike _ made
  | succ => exact alike.pop

/-! ## The kinds of dispatches -/

section Kinds

variable (frame : f.Local P)

include frame

theorem sequence {es : List Expr} (all : ∀ e ∈ es, e.Local P) :
    AlikeNext P (m.sequence f es) (m'.sequence f es) := by
  rw [Machine.sequence.eq_def, Machine.sequence.eq_def]
  cases es with
  | nil =>
    simp only
    split
    · exact alike.pushValue alike.heap.canon
    · exact alike.pop
  | cons e es =>
    simp only
    cases found : (e :: es)[f.step]? with
    | none => exact alike.pop
    | some next =>
      exact (alike.trim f.floor).push frame.target (all next (List.mem_of_getElem? found))

theorem name (x : String) : AlikeNext P (m.name f x) (m'.name f x) := by
  rw [Machine.name, Machine.name, alike.heap.lookup frame.target]
  rcases f.step with _ | _
  · cases found : m.heap.lookup f.target x with
    | none => exact fail alike _
    | some v => exact alike.pushValue (alike.heap.local_lookup frame.target found)
  · exact alike.pop

theorem member {t : Expr} (local_ : t.Local P) (x : String) :
    AlikeNext P (m.member f t x) (m'.member f t x) := by
  rw [Machine.member, Machine.member]
  rcases f.step with _ | _ | _
  · exact alike.push frame.target local_
  · refine withValue alike fun r n n' alike' inside => ?_
    rw [alike'.heap.get? inside]
    cases found : n.heap.get? r x with
    | none => exact fail alike' _
    | some v => exact alike'.pushValue (alike'.heap.local_get? inside found)
  · exact alike.pop

theorem assign {v : Expr} (local_ : v.Local P) (x : String) :
    AlikeNext P (m.assign f x v) (m'.assign f x v) := by
  rw [Machine.assign, Machine.assign]
  rcases f.step with _ | _ | _
  · exact alike.push frame.target local_
  · exact withValue alike fun v n n' alike' inside => store alike' inside x
  · exact alike.pop

theorem assignMember {t v : Expr} (target : t.Local P) (value : v.Local P) (x : String) :
    AlikeNext P (m.assignMember f t x v) (m'.assignMember f t x v) := by
  rw [Machine.assignMember, Machine.assignMember]
  rcases f.step with _ | _ | _ | _
  · exact alike.push frame.target target
  · exact alike.push frame.target value
  · refine withValue alike fun v n n' alike' inside => ?_
    exact withValue alike' fun r n n' alike' _ => store alike' inside x
  · exact alike.pop

omit frame in
theorem box {body : Option Expr} (inner : ∀ e ∈ body, e.Local P) :
    AlikeNext P (m.box f body) (m'.box f body) := by
  rw [Machine.box, Machine.box]
  rcases f.step with _ | _ | _
  · have made := alike.heap.alloc (Box.local_empty P)
    have pushed := make alike Heap.newBox made
    cases body with
    | none => exact pushed
    | some e =>
      have same : (m'.make Heap.newBox).2 = (m.make Heap.newBox).2 := made.same
      simp only [same] at pushed ⊢
      exact pushed.push made.inside (inner e rfl)
  · exact alike.trim _
  · exact alike.pop

omit frame in
theorem method {params : List String} {body : Option Expr} (inner : ∀ e ∈ body, e.Local P) :
    AlikeNext P (m.method f params body) (m'.method f params body) := by
  have local_ : Box.Local P { method := some ⟨params, body, false⟩ } := by
    refine Box.local_method fun m isMethod => ?_
    cases isMethod
    exact inner
  rw [Machine.method, Machine.method]
  rcases f.step with _ | _ | _
  · exact make alike (fun h => h.newMethod ⟨params, body, false⟩) (alike.heap.alloc local_)
  · exact alike.trim _
  · exact alike.pop

theorem list {items : List Expr} (all : ∀ e ∈ items, e.Local P) :
    AlikeNext P (m.list f items) (m'.list f items) := by
  rw [Machine.list, Machine.list, alike.values]
  cases found : items[f.step]? with
  | some e => exact alike.push frame.target (all e (List.mem_of_getElem? found))
  | none =>
    simp only
    split
    · have above : ∀ v ∈ (m.values.extract f.floor m.values.size).toList, P v :=
        fun v member => alike.held v (mem_of_mem_extract member)
      exact make (alike.trim f.floor) _ (alike.heap.newList above)
    · exact alike.pop

theorem native {host : Host σ} (shipped : host.natives = shippedRoutines) {x : String}
    {routine : Option Routine} (own : ∀ r ∈ routine, r.Local P) :
    AlikeNext P (native host m f x routine) (native host m' f x routine) := by
  obtain ⟨h', rfl⟩ := alike.eq_onHeap
  rw [Machine.native, Machine.native]
  rcases f.step with _ | _
  · cases found : routine.or (host.natives.lookup x) with
    | none => exact fail alike _
    | some r =>
      have local_ := Routine.local_found shipped own found
      have args : ∀ y ∈ m.heap.arguments f.target, Native.Within P y := by
        intro y member v isSome
        cases isSome
        exact alike.heap.local_arguments frame.target member
      have sameArguments := alike.heap.arguments frame.target
      simp only at sameArguments
      simp only [sameArguments]
      rcases Routine.run_alike alike.heap host local_ args m.world with
        ⟨failure, first, second⟩ | ⟨g, g', v, first, second, heap, within⟩
      · simp only at second
        simp only [first, second]
        exact ⟨rfl, alike.heap, rfl⟩
      · simp only at second
        simp only [first, second]
        refine (alike.onHeaps heap).pushValue ?_
        cases v with
        | none => exact alike.heap.canon
        | some v => exact within v rfl
  · exact alike.pop

omit frame in
theorem bindParameters {scope book : Ref} (insideScope : P scope) (insideBook : P book)
    (params : List String) :
    AlikeNext P (m.bindParameters scope book params) (m'.bindParameters scope book params) := by
  rw [Machine.bindParameters.eq_def, Machine.bindParameters.eq_def]
  cases params with
  | nil => exact alike
  | cons param params =>
    simp only [alike.heap.get? insideBook]
    cases found : m.heap.get? book getName with
    | none => exact crash alike
    | some getter =>
      obtain ⟨h', rfl⟩ := alike.eq_onHeap
      obtain ⟨heap, same, all⟩ :=
        alike.heap.bindings (alike.heap.local_get? insideBook found) 0 (param :: params)
      simp only [pushBindings_eq]
      refine ⟨heap, rfl, rfl, ?_, alike.held, fun g member => ?_⟩
      · simp only at same
        simp only [same]
      · rcases List.mem_append.mp member with new | old
        · rw [List.mem_reverse] at new
          obtain ⟨e, isBinding, rfl⟩ := List.mem_map.mp new
          exact Frame.local_new insideScope (all e isBinding) _
        · exact alike.local_ g old

omit frame in
/-- The method of a call is the same, and so is what the check of its arguments
says. -/
theorem enter {callee book : Ref} (insideCallee : P callee) (insideBook : P book) :
    AlikeNext P (m.enter callee book) (m'.enter callee book) := by
  have scope := alike.heap.scope insideCallee insideBook
  have local_ := alike.heap.local_method? insideCallee
  rw [Machine.enter, Machine.enter, alike.heap.method? insideCallee]
  -- The method was found before the scope was made, so it is kept apart from the heap.
  generalize m.heap.method? callee = method at local_
  have opened : Alike P (m.opened callee book) (m'.opened callee book) := alike.onHeaps scope.heap
  have sameCheck := scope.heap.checkArguments insideBook method
  cases check : checkArguments (m.heap.scope callee book).1 method book with
  | error cause =>
    rw [openScope_error check, openScope_error (sameCheck.trans check)]
    exact fail opened cause
  | ok =>
    rw [openScope_ok check, openScope_ok (sameCheck.trans check), scope.same]
    exact bindParameters ((opened.setMethod local_).pushValue scope.inside) scope.inside insideBook _

theorem call {t argument : Expr} (target : t.Local P) (book : argument.Local P) :
    AlikeNext P (m.call f t argument) (m'.call f t argument) := by
  rw [Machine.call, Machine.call]
  rcases f.step with _ | _ | _ | _ | _
  · exact alike.push frame.target target
  · exact alike.push frame.target book
  · refine withValue alike fun book n n' alike' insideBook => ?_
    exact withValue alike' fun callee n n' alike' insideCallee =>
      enter alike' insideCallee insideBook
  · refine withValue (alike.trim _) fun scope n n' alike' inside => ?_
    rw [Machine.runBody, Machine.runBody]
    cases look : f.method.bind Method.body with
    | none => exact alike'.pushValue alike'.heap.canon
    | some body =>
      obtain ⟨x, isMethod, isBody⟩ := Option.bind_eq_some_iff.mp look
      exact alike'.push inside (frame.method x isMethod body isBody)
  · exact alike.pop

end Kinds

/-- A dispatch does the same on both machines. -/
theorem dispatch {host : Host σ} (shipped : host.natives = shippedRoutines) (frame : f.Local P) :
    AlikeNext P (dispatch host m f) (dispatch host m' f) := by
  have local_ := frame.expr
  rw [Machine.dispatch, Machine.dispatch]
  generalize f.expr = e at local_
  cases local_ with
  | sequence all => exact sequence alike frame all
  | name => exact name alike frame _
  | member target => exact member alike frame target _
  | assign value => exact assign alike frame value _
  | assignMember target value => exact assignMember alike frame target value _
  | call target argument => exact call alike frame target argument
  | box inner => exact box alike inner
  | method inner => exact method alike inner
  | text => exact leaf alike (alike.heap.newText _)
  | integer => exact leaf alike (alike.heap.newInteger _)
  | real => exact leaf alike (alike.heap.newReal _)
  | list all => exact list alike frame all
  | native own => exact native alike frame shipped own
  | held inside => exact leaf alike ⟨alike.heap, rfl, inside⟩
  | foreign => exact fail alike _
  | hole => exact fail alike _

end AlikeNext

end Machine

end BoxScript
