import BoxScript.Proofs.Machine.Steps
import BoxScript.Proofs.Machine.Recursive

/-!
# The machine follows the recursion

A frame for an expression, on top of any frames and any values, does what the
recursion does: it leaves the recursion's value on top of the values it found,
stops where the recursion fails, and goes on for at least as many dispatches as
the recursion was allowed to nest if that was not enough. The last clause is
what turns "the recursion does not end" into "the machine does not end".

The proof is by induction on the allowance. All kinds of expressions are
treated alike: the dispatches between two parts are computed, and the parts are
supplied by the induction hypothesis with the waiting frame below them.
-/

set_option autoImplicit false

namespace BoxScript

/-- A machine that works on a store. -/
abbrev Store.machine {σ : Type} (s : Store σ) (values : Array Ref) (frames : List Frame) :
    Machine σ :=
  ⟨s.heap, s.world, values, frames⟩

/-- The scope of a call, with the argument book as its variable. -/
def Heap.scope (h : Heap) (callee book : Ref) : Heap × Ref :=
  ((h.newWith [callee] .none).1.assign (h.newWith [callee] .none).2 argumentsName book,
    (h.newWith [callee] .none).2)

namespace Machine

variable {σ α β : Type} {host : Host σ}

/-- The dispatches from a state do what a trial says, and `after` is the state
that its value belongs to. -/
def Follows (host : Host σ) (depth n : Nat) (m : Machine σ) (t : Trial σ α)
    (after : α → Store σ → Machine σ) : Prop :=
  match t with
  | none => ∃ last, Steps host depth n m last
  | some (.error error) => Stops host depth m error
  | some (.ok (a, s)) => ∃ k, Steps host depth k m (after a s)

namespace Follows

variable {depth n : Nat} {m next : Machine σ} {t : Trial σ α} {after : α → Store σ → Machine σ}
  {a : α} {s : Store σ}

theorem here (same : m = after a s) : Follows host depth n m (.value a s) after :=
  ⟨0, same ▸ .stay _⟩

theorem halted {failure : Failure} {e : Expr} (deep : depth < m.frames.length)
    (failing : step host m = .error (⟨failure, s.heap, s.world⟩, e)) :
    Follows host depth n m (.halted failure e s) after :=
  ⟨0, m, .stay m, deep, failing⟩

/-- A dispatch in front. -/
theorem start (deep : depth < m.frames.length) (one : step host m = .ok next)
    (follows : Follows host depth n next t after) : Follows host depth (n + 1) m t after := by
  match t, follows with
  | none, ⟨last, steps⟩ => exact ⟨last, .dispatch deep one steps⟩
  | some (.error _), stops => exact Stops.after (.single deep one) stops
  | some (.ok _), ⟨k, steps⟩ => exact ⟨k + 1, .dispatch deep one steps⟩

theorem weaken (follows : Follows host depth (n + 1) m t after) :
    Follows host depth n m t after := by
  match t, follows with
  | none, ⟨_, steps⟩ => exact steps.take (Nat.le_succ n)
  | some (.error _), stops => exact stops
  | some (.ok _), steps => exact steps

/-- A dispatch in front, not counted. -/
theorem dispatch (deep : depth < m.frames.length) (one : step host m = .ok next)
    (follows : Follows host depth n next t after) : Follows host depth n m t after :=
  (start deep one follows).weaken

/-- The last dispatch. -/
theorem finish (deep : depth < m.frames.length) (one : step host m = .ok (after a s)) :
    Follows host depth n m (.value a s) after :=
  .dispatch deep one (.here rfl)

/-- A dispatch behind a value. -/
theorem last {after' : α → Store σ → Machine σ} (follows : Follows host depth n m t after)
    (deep : ∀ a s, depth < (after a s).frames.length)
    (one : ∀ a s, step host (after a s) = .ok (after' a s)) :
    Follows host depth n m t after' := by
  match t, follows with
  | none, steps => exact steps
  | some (.error _), stops => exact stops
  | some (.ok (a, s)), ⟨k, steps⟩ =>
    exact ⟨k + 1, steps.trans (.single (deep a s) (one a s))⟩

theorem shallower {less : Nat} (le : less ≤ depth) (follows : Follows host depth n m t after) :
    Follows host less n m t after := by
  match t, follows with
  | none, ⟨last, steps⟩ => exact ⟨last, steps.shallower le⟩
  | some (.error _), stops => exact Stops.shallower le stops
  | some (.ok _), ⟨k, steps⟩ => exact ⟨k, steps.shallower le⟩

theorem andThen {f : α → Store σ → Trial σ β} {after' : β → Store σ → Machine σ}
    (first : Follows host depth n m t after)
    (second : ∀ a s, Follows host depth n (after a s) (f a s) after') :
    Follows host depth n m (t.andThen f) after' := by
  match t, first with
  | none, steps => exact steps
  | some (.error _), stops => exact stops
  | some (.ok (a, s)), ⟨k, steps⟩ =>
    have rest := second a s
    change Follows host depth n m (f a s) after'
    match f a s, rest with
    | none, ⟨last, more⟩ => exact (steps.trans more).take (Nat.le_add_left n k)
    | some (.error _), stops => exact Stops.after steps stops
    | some (.ok _), ⟨j, more⟩ => exact ⟨k + j, steps.trans more⟩

end Follows

open Recursive

/-- Whether a frame's floor is the number of values it starts on. Assignments
do not look at their floor, and those that bind parameters start above it. -/
def Fits (e : Expr) (floor size : Nat) : Prop := floor = size ∨ ∃ x value, e = .assign x value

/-- A new frame does what the recursion does with an allowance of `n`. -/
def Evaluates (host : Host σ) (n : Nat) (target : Ref) (e : Expr) (s : Store σ)
    (values : Array Ref) (frames : List Frame) (floor : Nat) : Prop :=
  Follows host frames.length n (s.machine values (⟨target, e, 0, floor, none⟩ :: frames))
    (eval host n target e s) fun v s => s.machine (values.push v) frames

/-- All frames do. -/
def Simulated (host : Host σ) (n : Nat) : Prop :=
  ∀ (target : Ref) (e : Expr) (s : Store σ) (values : Array Ref) (frames : List Frame)
    (floor : Nat), Fits e floor values.size → Evaluates host n target e s values frames floor

/-- A part of an expression, above the frame that waits for it. -/
theorem Simulated.part {n : Nat} (ih : Simulated host n) (target : Ref) (e : Expr) (s : Store σ)
    (values : Array Ref) (waiting : Frame) (frames : List Frame) :
    Follows host frames.length n
      (s.machine values (⟨target, e, 0, values.size, none⟩ :: waiting :: frames))
      (eval host n target e s) fun v s => s.machine (values.push v) (waiting :: frames) :=
  (ih target e s values (waiting :: frames) values.size (.inl rfl)).shallower (by simp)

/-! ## Expressions with a fixed number of parts -/

theorem step_ok {h : Heap} {w : σ} {values : Array Ref} {frames : List Frame} {next : Machine σ}
    (f : Frame)
    (one : Machine.dispatch host ⟨h, w, values, { f with step := f.step + 1 } :: frames⟩ f = .ok next) :
    step host ⟨h, w, values, f :: frames⟩ = .ok next := by
  simp [step, one]

theorem step_error {h : Heap} {w : σ} {values : Array Ref} {frames : List Frame}
    {halted : Halted σ} (f : Frame)
    (one : Machine.dispatch host ⟨h, w, values, { f with step := f.step + 1 } :: frames⟩ f =
      .error halted) :
    step host ⟨h, w, values, f :: frames⟩ = .error (halted, f.expr) := by
  simp [step, one]

section Parts

variable {n : Nat} (target : Ref) (s : Store σ) (values : Array Ref) (frames : List Frame)
  (floor : Nat)

theorem evaluates_name (x : String) :
    Evaluates host (n + 1) target (.name x) s values frames floor := by
  simp only [Evaluates, eval]
  cases look : s.heap.lookup target x with
  | none =>
    refine .halted (by simp) ?_
    simp [step, Machine.dispatch, name, look, fail]
  | some v =>
    have one : step host (s.machine values (⟨target, .name x, 0, floor, none⟩ :: frames)) =
        .ok (s.machine (values.push v) (⟨target, .name x, 1, floor, none⟩ :: frames)) := by
      simp [step, Machine.dispatch, name, look, pushValue]
    exact .dispatch (by simp) one (.finish (by simp) rfl)

/-- Literals and other expressions that make their value at once. -/
theorem evaluates_leaf (e : Expr) (factory : Heap → Heap × Ref)
    (leaf : ∀ (m : Machine σ) f, f.expr = e → Machine.dispatch host m f = m.leaf f factory)
    (value : eval host (n + 1) target e s = made factory s) :
    Evaluates host (n + 1) target e s values frames floor := by
  have one : step host (s.machine values (⟨target, e, 0, floor, none⟩ :: frames)) =
      .ok ⟨(factory s.heap).1, s.world, values.push (factory s.heap).2,
        ⟨target, e, 1, floor, none⟩ :: frames⟩ := by
    simp [step, leaf, Machine.leaf, make, pushValue]
  rw [Evaluates, value]
  refine .dispatch (by simp) one (.finish (by simp) ?_)
  simp [step, leaf, Machine.leaf, pop]

theorem evaluates_method (params : List String) (body : Option Expr) :
    Evaluates host (n + 1) target (.method params body) s values frames values.size := by
  let factory := fun h : Heap => h.newMethod ⟨params, body, false⟩
  have one : step host
      (s.machine values (⟨target, .method params body, 0, values.size, none⟩ :: frames)) =
      .ok ⟨(factory s.heap).1, s.world, values.push (factory s.heap).2,
        ⟨target, .method params body, 1, values.size, none⟩ :: frames⟩ := rfl
  have two : step host ⟨(factory s.heap).1, s.world, values.push (factory s.heap).2,
        ⟨target, .method params body, 1, values.size, none⟩ :: frames⟩ =
      .ok ⟨(factory s.heap).1, s.world, values.push (factory s.heap).2,
        ⟨target, .method params body, 2, values.size, none⟩ :: frames⟩ := by
    simp [step, Machine.dispatch, method, trim]
  exact .dispatch (by simp) one (.dispatch (by simp) two (.finish (by simp) rfl))

theorem evaluates_native (x : String) (routine : Option Routine) :
    Evaluates host (n + 1) target (.native x routine) s values frames floor := by
  simp only [Evaluates, eval, runNative]
  cases look : routine.or (host.natives.lookup x) with
  | none =>
    refine .halted (by simp) ?_
    simp [step, Machine.dispatch, native, look, fail]
  | some routine' =>
    cases reply : routine'.run host (s.heap.arguments target) s.heap s.world with
    | mk result heap world =>
      simp only [reply]
      cases result with
      | error failure =>
        refine .halted (by simp) ?_
        simp [step, Machine.dispatch, native, look, reply]
      | ok r =>
        have one : step host
            (s.machine values (⟨target, .native x routine, 0, floor, none⟩ :: frames)) =
            .ok ⟨heap, world, values.push (r.getD Canon.nullValue),
              ⟨target, .native x routine, 1, floor, none⟩ :: frames⟩ := by
          simp [step, Machine.dispatch, native, look, reply]
        exact .dispatch (by simp) one (.finish (by simp) rfl)

variable (ih : Simulated host n)

include ih

theorem evaluates_member (t : Expr) (x : String) :
    Evaluates host (n + 1) target (.member t x) s values frames floor := by
  have first : step host (s.machine values (⟨target, .member t x, 0, floor, none⟩ :: frames)) =
      .ok (s.machine values (⟨target, t, 0, values.size, none⟩ ::
        ⟨target, .member t x, 1, floor, none⟩ :: frames)) := rfl
  refine .start (by simp) first (.andThen (ih.part target t s values _ frames) ?_)
  intro r s
  cases look : s.heap.get? r x with
  | none =>
    refine .halted (by simp) ?_
    simp [step, Machine.dispatch, member, withValue, look, fail]
  | some v =>
    have one : step host
        (s.machine (values.push r) (⟨target, .member t x, 1, floor, none⟩ :: frames)) =
        .ok (s.machine (values.push v) (⟨target, .member t x, 2, floor, none⟩ :: frames)) := by
      simp [step, Machine.dispatch, member, withValue, look, pushValue]
    exact .dispatch (by simp) one (.finish (by simp) rfl)

omit ih in
/-- The last two dispatches of an assignment, the one that binds and the one that pops. -/
theorem store_follows {r v : Ref} {x : String} (f : Frame) (held : Array Ref)
    (stores : Machine.dispatch host (s.machine held ({ f with step := f.step + 1 } :: frames)) f =
      (s.machine values ({ f with step := f.step + 1 } :: frames)).store r x v)
    (pops : ∀ heap values, step host ⟨heap, s.world, values, { f with step := f.step + 1 } :: frames⟩ =
      .ok ⟨heap, s.world, values, frames⟩) :
    Follows host frames.length n (s.machine held (f :: frames)) (Recursive.store f.expr r x v s)
      fun v s => s.machine (values.push v) frames := by
  rw [Recursive.store]
  split
  next isSealed =>
    refine .halted (by simp) ?_
    simp [step, stores, Machine.store, isSealed, fail]
  next free =>
    have one : step host (s.machine held (f :: frames)) = .ok ⟨s.heap.assign r x v, s.world,
        values.push v, { f with step := f.step + 1 } :: frames⟩ := by
      simp [step, stores, Machine.store, free, mapHeap, pushValue]
    exact .dispatch (by simp) one (.finish (by simp) (pops _ _))

theorem evaluates_assign (x : String) (value : Expr) :
    Evaluates host (n + 1) target (.assign x value) s values frames floor := by
  have first : step host (s.machine values (⟨target, .assign x value, 0, floor, none⟩ :: frames)) =
      .ok (s.machine values (⟨target, value, 0, values.size, none⟩ ::
        ⟨target, .assign x value, 1, floor, none⟩ :: frames)) := rfl
  refine .start (by simp) first (.andThen (ih.part target value s values _ frames) ?_)
  intro v s
  refine store_follows s values frames ⟨target, .assign x value, 1, floor, none⟩ (values.push v)
    ?_ fun _ _ => rfl
  simp [Machine.dispatch, assign, withValue]

theorem evaluates_assignMember (t : Expr) (x : String) (value : Expr) :
    Evaluates host (n + 1) target (.assignMember t x value) s values frames floor := by
  have first : step host
      (s.machine values (⟨target, .assignMember t x value, 0, floor, none⟩ :: frames)) =
      .ok (s.machine values (⟨target, t, 0, values.size, none⟩ ::
        ⟨target, .assignMember t x value, 1, floor, none⟩ :: frames)) := rfl
  refine .start (by simp) first (.andThen (ih.part target t s values _ frames) ?_)
  intro r s
  have second : step host
      (s.machine (values.push r) (⟨target, .assignMember t x value, 1, floor, none⟩ :: frames)) =
      .ok (s.machine (values.push r) (⟨target, value, 0, (values.push r).size, none⟩ ::
        ⟨target, .assignMember t x value, 2, floor, none⟩ :: frames)) := rfl
  refine .dispatch (by simp) second (.andThen (ih.part target value s (values.push r) _ frames) ?_)
  intro v s
  refine store_follows s values frames ⟨target, .assignMember t x value, 2, floor, none⟩
    ((values.push r).push v) ?_ fun _ _ => rfl
  simp [Machine.dispatch, assignMember, withValue]

theorem evaluates_box (body : Option Expr) :
    Evaluates host (n + 1) target (.box body) s values frames values.size := by
  have trims : ∀ (s : Store σ) (b : Ref) (more : Array Ref),
      step host (s.machine (values.push b ++ more)
        (⟨target, .box body, 1, values.size, none⟩ :: frames)) =
      .ok (s.machine (values.push b) (⟨target, .box body, 2, values.size, none⟩ :: frames)) := by
    intro s b more
    simp [step, Machine.dispatch, box, trim]
  let b := s.heap.newBox.2
  let s' : Store σ := { s with heap := s.heap.newBox.1 }
  cases body with
  | none =>
    have first : step host (s.machine values (⟨target, .box none, 0, values.size, none⟩ :: frames)) =
        .ok (s'.machine (values.push b) (⟨target, .box none, 1, values.size, none⟩ :: frames)) := rfl
    have second := trims s' b #[]
    rw [Array.append_empty] at second
    exact .dispatch (by simp) first (.dispatch (by simp) second (.finish (by simp) rfl))
  | some e =>
    have first : step host (s.machine values (⟨target, .box e, 0, values.size, none⟩ :: frames)) =
        .ok (s'.machine (values.push b) (⟨b, e, 0, (values.push b).size, none⟩ ::
          ⟨target, .box e, 1, values.size, none⟩ :: frames)) := rfl
    refine .start (by simp) first (.andThen (ih.part b e s' (values.push b) _ frames) ?_)
    intro v s
    have second := trims s b #[v]
    rw [Array.append_singleton] at second
    exact .dispatch (by simp) second (.finish (by simp) rfl)

end Parts

/-! ## Expressions with any number of parts -/

section Lists

variable {n : Nat} (ih : Simulated host n) (target : Ref) (values : Array Ref)
  (frames : List Frame)

include ih

/-- A list whose first items are evaluated goes on to the others. -/
theorem items_follow (done rest : List Expr) (vs : List Ref) (s : Store σ) :
    Follows host frames.length (n + 1)
      (s.machine (values ++ vs.toArray)
        (⟨target, .list (done ++ rest), done.length, values.size, none⟩ :: frames))
      (each (eval host n target) rest s)
      fun us s => s.machine (values ++ (vs ++ us).toArray)
        (⟨target, .list (done ++ rest), (done ++ rest).length, values.size, none⟩ :: frames) := by
  induction rest generalizing done vs s with
  | nil => exact .here (by simp)
  | cons e rest more =>
    have first : step host (s.machine (values ++ vs.toArray)
        (⟨target, .list (done ++ e :: rest), done.length, values.size, none⟩ :: frames)) =
        .ok (s.machine (values ++ vs.toArray)
          (⟨target, e, 0, (values ++ vs.toArray).size, none⟩ ::
            ⟨target, .list (done ++ e :: rest), done.length + 1, values.size, none⟩ :: frames)) := by
      simp [step, Machine.dispatch, list, push]
    refine .start (by simp) first (.andThen (ih.part target e s _ _ frames) ?_)
    intro v s
    have next := more (done ++ [e]) (vs ++ [v]) s
    simp only [List.append_assoc, List.singleton_append, List.length_append, List.length_singleton]
      at next
    have pushed : (values ++ vs.toArray).push v = values ++ (vs ++ [v]).toArray := by simp
    rw [pushed]
    exact .andThen next.weaken fun us s => .here (by simp)

theorem evaluates_list (items : List Expr) (s : Store σ) :
    Evaluates host (n + 1) target (.list items) s values frames values.size := by
  have all := items_follow ih target values frames [] items [] s
  simp only [List.nil_append, List.length_nil, Array.append_empty] at all
  refine .andThen all ?_
  intro us s
  have collects : step host (s.machine (values ++ us.toArray)
        (⟨target, .list items, items.length, values.size, none⟩ :: frames)) =
      .ok ⟨(s.heap.newList us).1, s.world, values.push (s.heap.newList us).2,
        ⟨target, .list items, items.length + 1, values.size, none⟩ :: frames⟩ := by
    simp [step, Machine.dispatch, list, trim, make, pushValue]
  refine .dispatch (by simp) collects (.finish (by simp) ?_)
  simp [step, Machine.dispatch, list, pop]

/-- A sequence whose first expressions are evaluated goes on to the others,
and drops the value of each before the next. -/
theorem statements_follow (done rest : List Expr) (v : Ref) (s : Store σ) :
    Follows host frames.length (n + 1)
      (s.machine (values.push v)
        (⟨target, .sequence (done ++ rest), done.length, values.size, none⟩ :: frames))
      (last (eval host n target) v rest s)
      fun v s => s.machine (values.push v)
        (⟨target, .sequence (done ++ rest), (done ++ rest).length, values.size, none⟩ :: frames) := by
  induction rest generalizing done v s with
  | nil => exact .here (by simp)
  | cons e rest more =>
    have first : step host (s.machine (values.push v)
        (⟨target, .sequence (done ++ e :: rest), done.length, values.size, none⟩ :: frames)) =
        .ok (s.machine values
          (⟨target, e, 0, values.size, none⟩ ::
            ⟨target, .sequence (done ++ e :: rest), done.length + 1, values.size, none⟩ ::
            frames)) := by
      simp [step, Machine.dispatch, sequence, push, trim]
    refine .start (by simp) first (.andThen (ih.part target e s values _ frames) ?_)
    intro v s
    simpa only [List.append_assoc, List.singleton_append, List.length_append,
      List.length_singleton] using (more (done ++ [e]) v s).weaken

theorem evaluates_sequence (es : List Expr) (s : Store σ) :
    Evaluates host (n + 1) target (.sequence es) s values frames values.size := by
  cases es with
  | nil =>
    have first : step host
        (s.machine values (⟨target, .sequence [], 0, values.size, none⟩ :: frames)) =
        .ok (s.machine (values.push Canon.nullValue)
          (⟨target, .sequence [], 1, values.size, none⟩ :: frames)) := rfl
    exact .dispatch (by simp) first (.finish (by simp) rfl)
  | cons e es =>
    have first : step host
        (s.machine values (⟨target, .sequence (e :: es), 0, values.size, none⟩ :: frames)) =
        .ok (s.machine values (⟨target, e, 0, values.size, none⟩ ::
          ⟨target, .sequence (e :: es), 1, values.size, none⟩ :: frames)) := by
      simp [step, Machine.dispatch, sequence, push, trim]
    refine .start (by simp) first (.andThen (ih.part target e s values _ frames) ?_)
    intro v s
    have rest := statements_follow ih target values frames [e] es v s
    refine .last rest.weaken (by simp) ?_
    intro v s
    simp [step, Machine.dispatch, sequence, pop]

/-- Frames for assignments one above the other, the newest first, leave their
values in the order in which they run. -/
theorem assignments_follow (floor : Nat) (es : List Expr)
    (assignments : ∀ e ∈ es, ∃ x value, e = .assign x value) (s : Store σ) (values : Array Ref) :
    Follows host frames.length n
      (s.machine values (es.map (fun e => ⟨target, e, 0, floor, none⟩) ++ frames))
      (each (eval host n target) es s)
      fun us s => s.machine (values ++ us.toArray) frames := by
  induction es generalizing s values with
  | nil => exact .here (by simp)
  | cons e es more =>
    have one := ih target e s values (es.map (fun e => ⟨target, e, 0, floor, none⟩) ++ frames) floor
      (.inr (assignments e (by simp)))
    refine .andThen (one.shallower (by simp)) ?_
    intro v s
    refine .andThen (more (fun e member => assignments e (by simp [member])) s (values.push v)) ?_
    intro us s
    exact .here (by simp)

end Lists

/-! ## Calls -/

theorem bindings_call (getter : Ref) (h : Heap) (i : Nat) (params : List String) :
    ∀ e ∈ (bindings getter h i params).2,
      ∃ param book, e = .assign param (.call (.held getter) (.held book)) := by
  induction params generalizing h i with
  | nil => simp [bindings]
  | cons param params ih =>
    intro e member
    rcases List.mem_cons.mp member with rfl | member
    · exact ⟨_, _, rfl⟩
    · exact ih _ _ e member

theorem bindings_assign (getter : Ref) (h : Heap) (i : Nat) (params : List String) :
    ∀ e ∈ (bindings getter h i params).2, ∃ x value, e = .assign x value := by
  intro e member
  obtain ⟨param, book, rfl⟩ := bindings_call getter h i params e member
  exact ⟨param, _, rfl⟩

/-- The frames that bind parameters are those of the assignments, with the
last one on top. -/
theorem pushBindings_eq (scope getter : Ref) (m : Machine σ) (i : Nat) (params : List String) :
    pushBindings scope getter m i params =
      ⟨(bindings getter m.heap i params).1, m.world, m.values,
        ((bindings getter m.heap i params).2.map
          fun e => ⟨scope, e, 0, m.values.size, none⟩).reverse ++ m.frames⟩ := by
  induction params generalizing m i with
  | nil => rfl
  | cons param params ih =>
    obtain ⟨heap, world, values, frames⟩ := m
    simp [pushBindings, bindings, make, push, ih]

section Scopes

variable {m : Machine σ} {method : Option Method} {callee book : Ref}

/-- The machine once the scope of a call is made. -/
abbrev opened (m : Machine σ) (callee book : Ref) : Machine σ :=
  { m with heap := (m.heap.scope callee book).1 }

theorem openScope_error {cause : Cause}
    (check : checkArguments (m.heap.scope callee book).1 method book = .error cause) :
    m.openScope method callee book = (m.opened callee book).fail cause := by
  simp only [Heap.scope] at check
  simp only [openScope, make, mapHeap, check]
  rfl

theorem openScope_ok (check : checkArguments (m.heap.scope callee book).1 method book = .ok ()) :
    m.openScope method callee book =
      (((m.opened callee book).setMethod method).pushValue (m.heap.scope callee book).2).bindParameters
        (m.heap.scope callee book).2 book ((method.map Method.params).getD []) := by
  simp only [Heap.scope] at check
  simp only [openScope, make, mapHeap, check]
  rfl

variable {e : Expr} {s : Store σ} {f : Ref → Expr → Store σ → Trial σ Ref}

theorem invoke_error {cause : Cause} (check : checkArguments (s.heap.scope callee book).1
      (s.heap.method? callee) book = .error cause) :
    invoke f e callee book s = .failed cause e ⟨(s.heap.scope callee book).1, s.world⟩ := by
  simp only [Heap.scope] at check
  simp only [invoke, check]
  rfl

theorem invoke_ok
    (check : checkArguments (s.heap.scope callee book).1 (s.heap.method? callee) book = .ok ()) :
    invoke f e callee book s =
      (bindAll f e (s.heap.scope callee book).2 book
        (((s.heap.method? callee).map Method.params).getD [])
        ⟨(s.heap.scope callee book).1, s.world⟩).andThen fun _ s' =>
          bodyValue f (s.heap.method? callee) (s.heap.scope callee book).2 s' := by
  simp only [Heap.scope] at check
  simp only [invoke, check]
  rfl

end Scopes

section Calls

variable {n : Nat} (ih : Simulated host n) (target : Ref) (values : Array Ref)
  (frames : List Frame)

include ih

/-- The body of a call runs where its scope was, and the call pops behind it. -/
theorem body_follows (e : Expr) (isCall : ∃ t argument, e = .call t argument)
    (method : Option Method) (scope : Ref) (bound : List Ref) (s : Store σ) :
    Follows host frames.length n
      (s.machine (values.push scope ++ bound.toArray)
        (⟨target, e, 3, values.size, method⟩ :: frames))
      (bodyValue (eval host n) method scope s)
      fun v s => s.machine (values.push v) frames := by
  obtain ⟨t, argument, rfl⟩ := isCall
  cases look : method.bind Method.body with
  | none =>
    have one : step host (s.machine (values.push scope ++ bound.toArray)
        (⟨target, .call t argument, 3, values.size, method⟩ :: frames)) =
        .ok (s.machine (values.push Canon.nullValue)
          (⟨target, .call t argument, 4, values.size, method⟩ :: frames)) := by
      simp [step, Machine.dispatch, call, trim, withValue, runBody, look, pushValue]
    rw [bodyValue, look]
    exact .dispatch (by simp) one (.finish (by simp) rfl)
  | some body =>
    have one : step host (s.machine (values.push scope ++ bound.toArray)
        (⟨target, .call t argument, 3, values.size, method⟩ :: frames)) =
        .ok (s.machine values (⟨scope, body, 0, values.size, none⟩ ::
          ⟨target, .call t argument, 4, values.size, method⟩ :: frames)) := by
      simp [step, Machine.dispatch, call, trim, withValue, runBody, look, push]
    rw [bodyValue, look]
    exact .dispatch (by simp) one
      (.last (ih.part scope body s values _ frames) (by simp) fun _ _ => rfl)

/-- Binding parameters and evaluating the body, once the scope is made and the
arguments are checked. -/
theorem bindAll_follows (t argument : Expr) (method : Option Method) (scope book : Ref)
    (params : List String) (m : Machine σ) (s : Store σ) (deep : frames.length < m.frames.length)
    (binds : Machine.Next σ) (isBind : binds = bindParameters (s.machine (values.push scope)
      (⟨target, .call t argument, 3, values.size, method⟩ :: frames)) scope book params)
    (goesOn : ∀ next, binds = .ok next → step host m = .ok next)
    (failsToo : ∀ halted, binds = .error halted → step host m = .error (halted, .call t argument)) :
    Follows host frames.length n m
      ((bindAll (eval host n) (.call t argument) scope book params s).andThen fun _ s =>
        bodyValue (eval host n) method scope s)
      fun v s => s.machine (values.push v) frames := by
  subst isBind
  have runs := body_follows ih target values frames (.call t argument) ⟨t, argument, rfl⟩ method scope
  cases params with
  | nil =>
    have body := runs [] s
    rw [Array.append_empty] at body
    exact .dispatch deep (goesOn _ rfl) body
  | cons param params =>
    cases look : s.heap.get? book getName with
    | none =>
      simp only [bindAll, look]
      exact .halted deep (failsToo _ (by simp [bindParameters, look, crash]))
    | some getter =>
      simp only [bindAll, look]
      have binds := assignments_follow ih scope
        (⟨target, .call t argument, 3, values.size, method⟩ :: frames) (values.push scope).size
        (bindings getter s.heap 0 (param :: params)).2.reverse
        (fun e member => bindings_assign _ _ _ _ e (List.mem_reverse.mp member))
        ⟨(bindings getter s.heap 0 (param :: params)).1, s.world⟩ (values.push scope)
      refine .dispatch deep (goesOn _ ?_) (.andThen (binds.shallower (by simp)) runs)
      simp only [bindParameters, look, pushBindings_eq, List.map_reverse]

theorem evaluates_call (t argument : Expr) (s : Store σ) :
    Evaluates host (n + 1) target (.call t argument) s values frames values.size := by
  have first : step host
      (s.machine values (⟨target, .call t argument, 0, values.size, none⟩ :: frames)) =
      .ok (s.machine values (⟨target, t, 0, values.size, none⟩ ::
        ⟨target, .call t argument, 1, values.size, none⟩ :: frames)) := rfl
  refine .start (by simp) first (.andThen (ih.part target t s values _ frames) ?_)
  intro callee s
  have second : step host (s.machine (values.push callee)
        (⟨target, .call t argument, 1, values.size, none⟩ :: frames)) =
      .ok (s.machine (values.push callee) (⟨target, argument, 0, (values.push callee).size, none⟩ ::
        ⟨target, .call t argument, 2, values.size, none⟩ :: frames)) := rfl
  refine .dispatch (by simp) second
    (.andThen (ih.part target argument s (values.push callee) _ frames) ?_)
  intro book s
  let f : Frame := ⟨target, .call t argument, 2, values.size, none⟩
  let waiting : Machine σ :=
    s.machine values (⟨target, .call t argument, 3, values.size, none⟩ :: frames)
  have enters : Machine.dispatch host (s.machine ((values.push callee).push book)
      (⟨target, .call t argument, 3, values.size, none⟩ :: frames)) f =
      waiting.openScope (s.heap.method? callee) callee book := by
    simp only [f, Machine.dispatch, call, withValue, Array.back?_push, Array.pop_push]
    rfl
  cases check : checkArguments (s.heap.scope callee book).1 (s.heap.method? callee) book with
  | error cause =>
    rw [invoke_error check]
    have stops := enters.trans (openScope_error (m := waiting) check)
    exact ⟨0, _, .stay _, by simp, step_error f stops⟩
  | ok =>
    rw [invoke_ok check]
    have binds := enters.trans (openScope_ok (m := waiting) check)
    exact bindAll_follows ih target values frames t argument _ _ book _ _
      ⟨(s.heap.scope callee book).1, s.world⟩ (by simp) _ rfl
      (fun next ok => step_ok f (binds.trans ok)) fun halted error => step_error f (binds.trans error)

end Calls

/-- Frames do what the recursion does, whatever its allowance. -/
theorem simulated (host : Host σ) (n : Nat) : Simulated host n := by
  induction n with
  | zero =>
    intro target e s values frames floor _
    exact ⟨_, .stay _⟩
  | succ n ih =>
    intro target e s values frames floor fits
    -- Only assignments may start above their floor.
    rcases fits with rfl | ⟨x, value, rfl⟩
    · cases e with
      | sequence es => exact evaluates_sequence ih target values frames es s
      | name x => exact evaluates_name target s values frames _ x
      | member t x => exact evaluates_member target s values frames _ ih t x
      | assign x value => exact evaluates_assign target s values frames _ ih x value
      | assignMember t x value => exact evaluates_assignMember target s values frames _ ih t x value
      | call t argument => exact evaluates_call ih target values frames t argument s
      | box body => exact evaluates_box target s values frames ih body
      | method params body => exact evaluates_method target s values frames params body
      | text bytes =>
        exact evaluates_leaf target s values frames _ _ (fun h => h.newRepairedText bytes)
          (fun m f isText => by rw [Machine.dispatch, isText]) rfl
      | integer i =>
        exact evaluates_leaf target s values frames _ _ (fun h => h.newInteger i)
          (fun m f isInteger => by rw [Machine.dispatch, isInteger]) rfl
      | real x =>
        exact evaluates_leaf target s values frames _ _ (fun h => h.newReal x)
          (fun m f isReal => by rw [Machine.dispatch, isReal]) rfl
      | list items => exact evaluates_list ih target values frames items s
      | native x routine => exact evaluates_native target s values frames _ x routine
      | held r =>
        exact evaluates_leaf target s values frames _ _ (fun h => (h, r))
          (fun m f isHeld => by rw [Machine.dispatch, isHeld]) rfl
      | foreign kind shown => exact .halted (by simp) rfl
      | hole => exact .halted (by simp) rfl
    · exact evaluates_assign target s values frames floor ih x value

end Machine

end BoxScript
