import BoxScript.Proofs.Calls.Binding

/-!
# Variadic methods

A variadic method takes any argument book: the check of the arguments lets it
pass, whether it is a list of any length or a box without a getter. A method
without parameters then starts its body at once, on a scope with the book and
nothing bound from it. The check is all that the flag decides. A variadic method
with parameters has them bound like any other, and is at the mercy of the getter
that the check did not ask for.
-/

set_option autoImplicit false

namespace BoxScript

open Recursive

theorem checkArguments_variadic (h : Heap) {method : Method} (variadic : method.variadic = true)
    (book : Ref) : checkArguments h (some method) book = .ok () := by
  simp only [checkArguments, variadic, if_true]

section Calls

variable {σ : Type} {host : Host σ} {m : Machine σ} {target callee book : Ref} {t argument : Expr}
  {s : Store σ} {method : Method}

/-- A variadic method without parameters takes any argument book. The dispatch
that enters the call succeeds, the next one starts the body, and the scope has
the book and nothing bound from it. -/
theorem variadic_binds_nothing
    (evaluated : Machine.Evaluated host m target t argument callee book s)
    (resolves : s.heap.method? callee = some method) (variadic : method.variadic = true)
    (bare : method.params = []) (closed : s.heap.Closed) (canon : Canon.globals < s.heap.size)
    (inside : book < s.heap.size) :
    let call := m.callFrame target t argument
    ∃ h, s.heap.Keeps h ∧
      (∃ n, Machine.Steps host m.frames.length n (m.push target (.call t argument))
        (m.calling target t argument callee book s)) ∧
      Machine.step host (m.calling target t argument callee book s) =
        .ok ⟨h, s.world, m.values.push s.heap.size, call 3 (some method) :: m.frames⟩ ∧
      Machine.step host
          ⟨h, s.world, m.values.push s.heap.size, call 3 (some method) :: m.frames⟩ =
        .ok (Machine.runBody ⟨h, s.world, m.values, call 4 (some method) :: m.frames⟩ (some method)
          s.heap.size) ∧
      (∃ components, (h.box components).payload = .list [some callee] ∧
        ∀ x, h.get? s.heap.size x = s.heap.scopeVar components book x) ∧
      m.RunsBody host target t argument (some method) s.heap.size ⟨h, s.world⟩ := by
  intro call
  let h := (s.heap.scope callee book).1
  have enters : Machine.step host (m.calling target t argument callee book s) =
      .ok (m.awaiting (call 3 (some method)) s.heap.size book [] [] ⟨h, s.world⟩) :=
    Machine.step_calling_bare resolves (checkArguments_variadic _ variadic book) bare book
  have starts : Machine.step host
      (m.awaiting (call 3 (some method)) s.heap.size book [] [] ⟨h, s.world⟩) = .ok _ :=
    Machine.step_awaiting s.heap.size book []
  have free : Canon.isSealed s.heap.size = false := Heap.isSealed_of_le (Nat.le_of_lt canon)
  have runs := Machine.runsBody_of_served evaluated free enters (.none _)
  rw [Machine.awaiting_nil] at enters starts
  have components : (h.box (s.heap.size + 1)).payload = .list [some callee] := by
    rw [Heap.box_scope_components]
    rfl
  exact ⟨h, s.heap.keeps_scope callee book, Machine.steps_calling evaluated, enters, starts,
    ⟨s.heap.size + 1, components, Heap.get?_scope closed inside⟩, runs⟩

/-- A native method, called with a box that is no list and has no getter. -/
theorem variadic_binds_nothing_native :
    let h : Heap := Heap.initial.push {}
    h.box 19 = .native "add" none ∧ h.get? 31 getName = none ∧
      ∃ h', h.Keeps h' ∧ h'.get? 32 argumentsName = some 31 ∧
        (idle ⟨h, ()⟩).RunsBody Host.plain Canon.globals (.held 19) (.held 31)
          (some ⟨[], some (.native "add" none), true⟩) 32 ⟨h', ()⟩ := by
  intro h
  have isNative : h.box 19 = .native "add" none := rfl
  have size : h.size = 32 := by decide +kernel
  have sound : h.Sound := (Heap.made_newBox Heap.sound_initial.1).sound
  have evaluated : Machine.Evaluated Host.plain (idle ⟨h, ()⟩) Canon.globals (.held 19) (.held 31)
      19 31 ⟨h, ()⟩ := ⟨⟨h, ()⟩, ⟨1, rfl⟩, ⟨1, rfl⟩⟩
  obtain ⟨h', keeps, -, -, -, ⟨components, -, vars⟩, runs⟩ := variadic_binds_nothing evaluated
    (method?_native isNative) rfl rfl sound.closed (by rw [size]; decide) (by rw [size]; decide)
  rw [size] at vars runs
  refine ⟨isNative, by decide +kernel, h', keeps, (vars _).trans ?_, runs⟩
  have null : h.isNull 31 = false := by decide +kernel
  have other : argumentsName ≠ componentsName := by decide
  simp [Heap.scopeVar, null, other]

/-- The flag does not keep a variadic method from asking the getter for its
parameters: this one is called without arguments, and fails for want of the
first. -/
theorem exists_variadic_refused :
    let method : Method := ⟨["x"], some (.name "arguments"), true⟩
    let h := (Heap.initial.newMethod method).1
    h.method? 31 = some method ∧ method.variadic = true ∧
      ∃ error, Ends Host.plain Canon.globals (.call (.held 31) (.list [])) ⟨h, ()⟩ (.error error) ∧
        error.1.failure = .cause (.noItem 0 0) := by
  refine ⟨?_, rfl, _, ⟨6, rfl⟩, rfl⟩
  rw [Heap.method?, Heap.methodFrom]
  rfl

end Calls

end BoxScript
