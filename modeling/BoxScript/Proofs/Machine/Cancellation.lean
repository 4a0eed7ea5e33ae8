import BoxScript.Heap.Initial
import BoxScript.Proofs.Machine.Allowance

/-!
# Evaluations that are asked to end

Before every dispatch an evaluation looks whether the embedding program has
asked for its end. The world, and with it the answer, changes only when a
function of the embedding program is called, and the frame of a native call is
still there when the call has returned. So a frame is always left when the
program starts to ask: the evaluation looks once more, even if the call was the
last thing to do, and ends without another dispatch and without a value.

Up to there it has made the dispatches of the evaluation that nobody ends, so it
leaves the heap that this one has after as many dispatches.
-/

set_option autoImplicit false

namespace BoxScript

namespace Machine

variable {σ : Type} {host : Host σ}

/-! ## What changes the world -/

/-- What a dispatch leads to has this world. -/
def Silent (world : σ) : Next σ → Prop
  | .ok m => m.world = world
  | .error _ => True

section Kinds

variable {m : Machine σ} {f : Frame}

theorem Silent.withValue {next : Ref → Machine σ → Next σ}
    (silent : ∀ v values, Silent m.world (next v ⟨m.heap, m.world, values, m.frames⟩)) :
    Silent m.world (m.withValue next) := by
  unfold Machine.withValue
  split
  · trivial
  · exact silent _ _

theorem Silent.store {r v : Ref} {x : String} : Silent m.world (m.store r x v) := by
  unfold Machine.store
  split
  · trivial
  · rfl

theorem sequence_silent (es : List Expr) : Silent m.world (m.sequence f es) := by
  unfold Machine.sequence
  split
  · split <;> rfl
  · split <;> rfl

theorem name_silent (x : String) : Silent m.world (m.name f x) := by
  unfold Machine.name
  split
  · split
    · rfl
    · trivial
  · rfl

theorem member_silent (t : Expr) (x : String) : Silent m.world (m.member f t x) := by
  unfold Machine.member
  split
  · rfl
  · apply Silent.withValue
    intro v values
    simp only
    split
    · rfl
    · trivial
  · rfl

theorem assign_silent (x : String) (value : Expr) : Silent m.world (m.assign f x value) := by
  unfold Machine.assign
  split
  · rfl
  · apply Silent.withValue
    intro v values
    exact .store
  · rfl

theorem assignMember_silent (t : Expr) (x : String) (value : Expr) :
    Silent m.world (m.assignMember f t x value) := by
  unfold Machine.assignMember
  split
  · rfl
  · rfl
  · apply Silent.withValue
    intro v values
    apply Silent.withValue
    intro r values
    exact .store
  · rfl

theorem bindParameters_silent (scope book : Ref) (params : List String) :
    Silent m.world (m.bindParameters scope book params) := by
  rw [bindParameters.eq_def]
  split
  · rfl
  · split
    · trivial
    · rw [pushBindings_eq]
      rfl

theorem enter_silent (callee book : Ref) : Silent m.world (m.enter callee book) := by
  unfold Machine.enter
  cases check : checkArguments (m.heap.scope callee book).1 (m.heap.method? callee) book with
  | error cause =>
    rw [openScope_error check]
    trivial
  | ok =>
    rw [openScope_ok check]
    obtain ⟨heap, world, values, frames⟩ := m
    cases frames with
    | nil => exact bindParameters_silent _ _ _
    | cons g frames => exact bindParameters_silent _ _ _

theorem call_silent (t argument : Expr) : Silent m.world (m.call f t argument) := by
  unfold Machine.call
  split
  · rfl
  · rfl
  · apply Silent.withValue
    intro book values
    apply Silent.withValue
    intro callee values
    exact enter_silent (m := ⟨m.heap, m.world, values, m.frames⟩) callee book
  · apply Silent.withValue
    intro scope values
    unfold Machine.runBody
    split <;> rfl
  · rfl

theorem box_silent (body : Option Expr) : Silent m.world (m.box f body) := by
  unfold Machine.box
  split
  · cases body <;> rfl
  · rfl
  · rfl

theorem method_silent (params : List String) (body : Option Expr) :
    Silent m.world (m.method f params body) := by
  unfold Machine.method
  split <;> rfl

theorem leaf_silent (value : Heap → Heap × Ref) : Silent m.world (m.leaf f value) := by
  unfold Machine.leaf
  split <;> rfl

theorem list_silent (items : List Expr) : Silent m.world (m.list f items) := by
  unfold Machine.list
  split
  · rfl
  · split <;> rfl

/-- A native call is made at its first dispatch, and its frame stays for another. -/
theorem native_frames {x : String} {routine : Option Routine} {next : Machine σ}
    (now : f.step = 0) (ok : native host m f x routine = .ok next) : next.frames = m.frames := by
  unfold Machine.native at ok
  rw [now] at ok
  simp only at ok
  split at ok
  · cases ok
  · split at ok
    · cases ok
    · cases ok
      rfl

/-- A dispatch leaves the world alone, unless it is that of a native call. -/
theorem dispatch_silent (host : Host σ) (m : Machine σ) (f : Frame) :
    Silent m.world (dispatch host m f) ∨ ∃ x routine, f.expr = .native x routine ∧ f.step = 0 := by
  unfold Machine.dispatch
  cases kind : f.expr with
  | sequence es => exact .inl (sequence_silent es)
  | name x => exact .inl (name_silent x)
  | member t x => exact .inl (member_silent t x)
  | assign x value => exact .inl (assign_silent x value)
  | assignMember t x value => exact .inl (assignMember_silent t x value)
  | call t argument => exact .inl (call_silent t argument)
  | box body => exact .inl (box_silent body)
  | method params body => exact .inl (method_silent params body)
  | text bytes => exact .inl (leaf_silent _)
  | integer n => exact .inl (leaf_silent _)
  | real x => exact .inl (leaf_silent _)
  | list items => exact .inl (list_silent items)
  | native x routine =>
    cases now : f.step with
    | zero => exact .inr ⟨x, routine, rfl, rfl⟩
    | succ k =>
      left
      unfold Machine.native
      rw [now]
      rfl
  | held r => exact .inl (leaf_silent _)
  | foreign kind shown => exact .inl trivial
  | hole => exact .inl trivial

end Kinds

/-! ## Native calls that return -/

/-- The next dispatch is that of a native call, which returns without failing. -/
structure Returns (host : Host σ) (m next : Machine σ) : Prop where
  call : ∃ f frames x routine, m.frames = f :: frames ∧ f.expr = .native x routine ∧ f.step = 0
  ok : step host m = .ok next

section Returning

variable {m next : Machine σ}

theorem Returns.busy (returns : Returns host m next) : 0 < m.frames.length := by
  obtain ⟨f, frames, -, -, newest, -⟩ := returns.call
  rw [newest]
  exact Nat.succ_pos _

/-- The frame of the call is left. -/
theorem Returns.left (returns : Returns host m next) : 0 < next.frames.length := by
  obtain ⟨⟨f, frames, x, routine, newest, kind, now⟩, ok⟩ := returns
  obtain ⟨heap, world, values, _⟩ := m
  cases newest
  rw [step] at ok
  split at ok
  · next dispatched =>
    cases ok
    unfold Machine.dispatch at dispatched
    rw [kind] at dispatched
    rw [native_frames now dispatched]
    exact Nat.succ_pos _
  · cases ok

/-- Without a native call the world is what it was. -/
theorem step_world (ok : step host m = .ok next) : next.world = m.world ∨ Returns host m next := by
  obtain ⟨heap, world, values, frames⟩ := m
  cases frames with
  | nil =>
    cases ok
    exact .inl rfl
  | cons f frames =>
    rcases dispatch_silent host ⟨heap, world, values, { f with step := f.step + 1 } :: frames⟩ f with
      silent | ⟨x, routine, kind, now⟩
    · rw [step] at ok
      split at ok
      · next dispatched =>
        cases ok
        rw [dispatched] at silent
        exact .inl silent
      · cases ok
    · exact .inr ⟨⟨f, frames, x, routine, rfl, kind, now⟩, ok⟩

end Returning

/-! ## Asking for the end -/

/-- The embedding program asks for the end of a run for the first time after `n`
dispatches of the run that nobody ends: before the run starts, or during a native
call that returns. -/
inductive AsksAfter (host : Host σ) (m : Machine σ) : Nat → Machine σ → Prop where
  | before (asked : host.done m.world = true) : AsksAfter host m 0 m
  | during {k : Nat} {between after : Machine σ} (steps : Steps host.patient 0 k m between)
      (unasked : Unasked host m (k + 1)) (returns : Returns host between after)
      (asked : host.done after.world = true) : AsksAfter host m (k + 1) after

section Asking

variable {n : Nat} {m last : Machine σ}

/-- Whether the embedding program asks for the end makes no difference to a
dispatch. -/
theorem steps_patient {depth : Nat} :
    Steps host.patient depth n m last ↔ Steps host depth n m last := by
  constructor
  · intro steps
    induction steps with
    | stay => exact .stay _
    | dispatch deep one _ ih => exact .dispatch deep one ih
  · intro steps
    induction steps with
    | stay => exact .stay _
    | dispatch deep one _ ih => exact .dispatch deep one ih

theorem AsksAfter.steps (asks : AsksAfter host m n last) : Steps host 0 n m last := by
  cases asks with
  | before => exact .stay m
  | during steps _ returns _ =>
    exact (steps_patient.mp steps).trans (.single returns.busy returns.ok)

theorem AsksAfter.unasked (asks : AsksAfter host m n last) : Unasked host m n := by
  cases asks with
  | before => exact fun k less => absurd less (Nat.not_lt_zero k)
  | during _ unasked _ _ => exact unasked

/-- A frame is left, so that the evaluation looks. -/
theorem AsksAfter.run (asks : AsksAfter host m n last) (busy : 0 < m.frames.length) (fuel : Nat) :
    run host fuel last = ⟨.cancelled, last.heap, last.world⟩ := by
  have left : 0 < last.frames.length ∧ host.done last.world = true := by
    cases asks with
    | before asked => exact ⟨busy, asked⟩
    | during _ _ returns asked => exact ⟨returns.left, asked⟩
  have some_ : ¬ last.frames.isEmpty := by
    rw [List.isEmpty_iff_length_eq_zero]
    omega
  unfold Machine.run
  rw [if_neg some_, if_pos left.2]

theorem AsksAfter.takes (asks : AsksAfter host m n last) (busy : 0 < m.frames.length) :
    Takes (fun fuel => Machine.run host fuel m) n ⟨.cancelled, last.heap, last.world⟩ :=
  takes_of_chain asks.steps asks.unasked (asks.run busy)

/-- The last dispatch of a chain. -/
theorem Steps.split_last {depth : Nat} (steps : Steps host depth (n + 1) m last) :
    ∃ between, Steps host depth n m between ∧ step host between = .ok last := by
  obtain ⟨between, front⟩ := steps.take (Nat.le_succ n)
  have rest := front.connect steps (Nat.le_succ n)
  rw [Nat.succ_sub (Nat.le_refl n), Nat.sub_self] at rest
  cases rest with
  | dispatch _ one stay =>
    cases stay
    exact ⟨between, front, one⟩

theorem Unasked.cons {next : Machine σ} (now : host.done m.world = false)
    (one : step host m = .ok next) (later : Unasked host next n) : Unasked host m (n + 1) := by
  intro k less between steps
  cases steps with
  | stay => exact now
  | dispatch _ one' rest =>
    cases one.symm.trans one'
    exact later _ (Nat.lt_of_succ_lt_succ less) between rest

theorem busy_of_cancelled {fuel : Nat}
    (cancelled : (Machine.run host fuel m).outcome = .cancelled) : 0 < m.frames.length := by
  apply Nat.pos_of_ne_zero
  intro none
  rw [run_done fuel m (List.length_eq_zero_iff.mp none)] at cancelled
  unfold Machine.answer at cancelled
  split at cancelled <;> cases cancelled

/-- A run that is cancelled has come to a state in which the embedding program
asks, and to none before. -/
theorem chain_of_cancelled {fuel : Nat}
    (cancelled : (Machine.run host fuel m).outcome = .cancelled) :
    ∃ n last, n ≤ fuel ∧ Steps host 0 n m last ∧ Unasked host m n ∧
      host.done last.world = true := by
  induction fuel generalizing m with
  | zero =>
    cases asked : host.done m.world with
    | true => exact ⟨0, m, Nat.le_refl 0, .stay m, nofun, asked⟩
    | false =>
      rw [run_zero_of_unasked (busy_of_cancelled cancelled) asked] at cancelled
      cases cancelled
  | succ fuel ih =>
    cases asked : host.done m.world with
    | true => exact ⟨0, m, Nat.zero_le _, .stay m, nofun, asked⟩
    | false =>
      have busy := busy_of_cancelled cancelled
      rw [run_of_unasked busy asked] at cancelled
      cases one : step host m with
      | error error =>
        rw [one] at cancelled
        rcases stopped_outcome error.1 error.2 with ⟨_, failed⟩ | fatal
        · cases failed.symm.trans cancelled
        · cases fatal.symm.trans cancelled
      | ok next =>
        rw [one] at cancelled
        obtain ⟨n, last, le, steps, unasked, asks⟩ := ih cancelled
        exact ⟨n + 1, last, Nat.succ_le_succ le, .dispatch busy one steps, .cons asked one unasked,
          asks⟩

theorem asks_of_cancelled {fuel : Nat}
    (cancelled : (Machine.run host fuel m).outcome = .cancelled) :
    ∃ n last, n ≤ fuel ∧ AsksAfter host m n last := by
  obtain ⟨n, last, le, steps, unasked, asked⟩ := chain_of_cancelled cancelled
  refine ⟨n, last, le, ?_⟩
  cases n with
  | zero =>
    cases steps
    exact .before asked
  | succ k =>
    obtain ⟨between, front, one⟩ := steps.split_last
    rcases step_world one with same | returns
    · -- Nothing has happened to the world, so the program had asked before.
      have before := unasked k (Nat.lt_succ_self k) between front
      rw [← same, asked] at before
      cases before
    · exact .during (steps_patient.mpr front) unasked returns asked

end Asking

end Machine

/-- An evaluation that is asked to end does so at once and leaves a beginning of
what it would have done. Let the embedding program ask after `n` dispatches,
either before the evaluation starts or during a native call that returns. Then
the evaluation takes these `n` dispatches and is cancelled, which is no value,
with the heap of the evaluation that nobody ends after `n` dispatches; and the
next evaluation, by whatever program and of whatever expression, starts from that
heap with stacks of its own. An evaluation is cancelled in no other way. -/
theorem cancelled_at_once {σ τ : Type} (host : Host σ) (other : Host τ) (h : Heap) (world : σ)
    (target : Option Ref) (e : Expr) :
    let start := Machine.start (h.target target).1 world (h.target target).2 e
    let evaluated := fun fuel => evaluate host fuel h world target (some e)
    let uncancelled := fun fuel => evaluate host.patient fuel h world target (some e)
    (∀ n last, Machine.AsksAfter host start n last →
      Takes evaluated n ⟨.cancelled, last.heap, last.world⟩ ∧
      last.heap = (uncancelled n).heap ∧
      ∀ fuel, n ≤ fuel → ∀ fuel' world' target' e',
        let left := (uncancelled n).heap.target target'
        evaluate other fuel' (evaluated fuel).heap world' target' (some e') =
          (Machine.run other fuel' ⟨left.1, world', #[Canon.nullValue],
            [⟨left.2, e', 0, 1, none⟩]⟩).reported e') ∧
    ∀ fuel, (evaluated fuel).outcome = .cancelled →
      ∃ n last, n ≤ fuel ∧ Machine.AsksAfter host start n last := by
  intro start evaluated uncancelled
  constructor
  · intro n last asks
    have takes : Takes evaluated n ⟨.cancelled, last.heap, last.world⟩ := by
      have run := (asks.takes (Nat.succ_pos 0)).reported e
      rwa [Result.reported_of_not_failed (by simp)] at run
    have same : last.heap = (uncancelled n).heap := by
      have patient : ∀ w, host.patient.done w = false := fun _ => rfl
      have steps := Machine.steps_patient.mpr asks.steps
      have run := Machine.run_of_steps patient steps 0
      rw [Nat.add_zero] at run
      simp only [uncancelled, heap_evaluate]
      exact ((congrArg Result.heap run).trans (Machine.heap_run_zero host.patient last)).symm
    refine ⟨takes, same, ?_⟩
    intro fuel le fuel' world' target' e' left
    rw [takes.enough fuel le]
    simp only [left, ← same]
    rfl
  · intro fuel cancelled
    apply Machine.asks_of_cancelled
    exact Result.reported_cancelled_iff.mp cancelled

/-- A program with a function that asks for the end of the evaluation. -/
def Host.stopping : Host Bool where
  natives := ("stop", .host "stop") :: shippedRoutines
  call := fun _ _ h _ => ⟨.ok none, h, true⟩
  done := id

/-- It binds `x` and then asks for its end. -/
def Expr.stopping : Expr := .sequence [.assign "x" (.name "true"), .native "stop" none]

/-- The call is the eighth dispatch and the last thing to do. The evaluation is
cancelled after it, with `x` bound, and would have come to a value two dispatches
later. -/
theorem cancelled_at_once_stopping :
    let start := Machine.start (Heap.initial.target none).1 false (Heap.initial.target none).2
      Expr.stopping
    let evaluated := fun fuel => evaluate Host.stopping fuel Heap.initial false none (some .stopping)
    let uncancelled := fun fuel =>
      evaluate Host.stopping.patient fuel Heap.initial false none (some .stopping)
    (∃ last, Machine.AsksAfter Host.stopping start 8 last ∧
      Takes evaluated 8 ⟨.cancelled, last.heap, last.world⟩ ∧
      last.heap = (uncancelled 8).heap ∧
      last.heap.get? (Heap.initial.target none).2 "x" = some Canon.trueValue) ∧
    (uncancelled 10).outcome.isValue = true := by
  intro start evaluated uncancelled
  have early : (evaluated 7).outcome matches .unfinished := by decide +kernel
  have late : (evaluated 8).outcome matches .cancelled := by decide +kernel
  have bound : (evaluated 8).heap.get? (Heap.initial.target none).2 "x" = some Canon.trueValue := by
    decide +kernel
  have value : (uncancelled 10).outcome.isValue = true := by decide +kernel
  have cancelled : (evaluated 8).outcome = .cancelled := by
    revert late
    generalize (evaluated 8).outcome = outcome
    cases outcome <;> simp
  obtain ⟨ends, asks⟩ :=
    cancelled_at_once Host.stopping Host.plain Heap.initial false none .stopping
  obtain ⟨n, last, le, asks⟩ := asks 8 cancelled
  obtain ⟨takes, same, -⟩ := ends n last asks
  have all : n = 8 := by
    rcases Nat.lt_or_ge 7 n with more | less
    · omega
    · rw [show evaluated 7 = _ from takes.enough 7 less] at early
      cases early
  subst all
  rw [show evaluated 8 = _ from takes.enough 8 (Nat.le_refl 8)] at bound
  exact ⟨⟨last, asks, takes, same, bound⟩, value⟩

end BoxScript
