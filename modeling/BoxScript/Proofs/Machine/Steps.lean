import BoxScript.Machine.Run

/-!
# Dispatch after dispatch

A run is a chain of dispatches. `Steps` counts them and asks that each is made
while more than `depth` frames are left, so a chain that starts above some
frames stays above them until its last state. Since a dispatch is a function of
the state, two chains from one state agree as far as both go; what is proved of
one chain therefore holds of the run itself.
-/

set_option autoImplicit false

namespace BoxScript

namespace Machine

variable {σ : Type} {host : Host σ}

/-- `n` dispatches, each made while more than `depth` frames are left. -/
inductive Steps (host : Host σ) (depth : Nat) : Nat → Machine σ → Machine σ → Prop where
  | stay (m : Machine σ) : Steps host depth 0 m m
  | dispatch {n : Nat} {m next last : Machine σ} (deep : depth < m.frames.length)
      (one : step host m = .ok next) (rest : Steps host depth n next last) :
      Steps host depth (n + 1) m last

/-- The dispatches from a state lead to one that fails, with more than `depth`
frames left all the way. -/
def Stops (host : Host σ) (depth : Nat) (m : Machine σ) (error : Halted σ × Expr) : Prop :=
  ∃ n last, Steps host depth n m last ∧ depth < last.frames.length ∧ step host last = .error error

namespace Steps

variable {depth n k : Nat} {m a b : Machine σ}

theorem single (deep : depth < m.frames.length) (one : step host m = .ok a) :
    Steps host depth 1 m a :=
  .dispatch deep one (.stay a)

theorem trans (first : Steps host depth n m a) (second : Steps host depth k a b) :
    Steps host depth (n + k) m b := by
  induction first with
  | stay => simpa using second
  | @dispatch n _ _ _ deep one _ ih =>
    rw [Nat.add_right_comm]
    exact .dispatch deep one (ih second)

/-- What stays above many frames stays above fewer. -/
theorem shallower {less : Nat} (le : less ≤ depth) (steps : Steps host depth n m a) :
    Steps host less n m a := by
  induction steps with
  | stay => exact .stay _
  | dispatch deep one _ ih => exact .dispatch (Nat.lt_of_le_of_lt le deep) one ih

/-- The first dispatches of a chain. -/
theorem take (steps : Steps host depth n m a) (le : k ≤ n) :
    ∃ between, Steps host depth k m between := by
  induction steps generalizing k with
  | stay m => exact ⟨m, by simpa [Nat.le_zero.mp le] using .stay m⟩
  | @dispatch n m next _ deep one _ ih =>
    cases k with
    | zero => exact ⟨m, .stay m⟩
    | succ k =>
      obtain ⟨between, steps⟩ := ih (Nat.le_of_succ_le_succ le)
      exact ⟨between, .dispatch deep one steps⟩

/-- The shorter of two chains from one state is the beginning of the longer. -/
theorem connect (short : Steps host depth n m a) (long : Steps host depth k m b) (le : n ≤ k) :
    Steps host depth (k - n) a b := by
  induction short generalizing k with
  | stay => simpa using long
  | @dispatch n m next _ deep one _ ih =>
    cases long with
    | stay => simp at le
    | @dispatch k _ next' _ _ one' rest =>
      have same : next = next' := Except.ok.inj (one.symm.trans one')
      subst same
      simpa [Nat.succ_sub_succ] using ih rest (Nat.le_of_succ_le_succ le)

/-- A chain that has come down to `depth` frames does not go on. -/
theorem of_shallow (steps : Steps host depth n a b) (shallow : a.frames.length ≤ depth) :
    n = 0 ∧ a = b := by
  cases steps with
  | stay => exact ⟨rfl, rfl⟩
  | dispatch deep _ _ => exact absurd deep (Nat.not_lt.mpr shallow)

/-- Nor does one that has met a failing dispatch. -/
theorem of_error {error : Halted σ × Expr} (steps : Steps host depth n a b)
    (failing : step host a = .error error) : n = 0 ∧ a = b := by
  cases steps with
  | stay => exact ⟨rfl, rfl⟩
  | dispatch _ one _ => rw [failing] at one; cases one

/-- Of two chains from one state, one that ends with `depth` frames is the longer. -/
theorem le_of_shallow (steps : Steps host depth n m a) (shallow : a.frames.length ≤ depth)
    (other : Steps host depth k m b) : k ≤ n := by
  apply Nat.le_of_not_lt
  intro longer
  have rest := connect steps other (by omega)
  have := (of_shallow rest shallow).1
  omega

/-- A run comes down to `depth` frames in one state only. -/
theorem unique (first : Steps host depth n m a) (second : Steps host depth k m b)
    (shallow : a.frames.length ≤ depth) (shallow' : b.frames.length ≤ depth) : a = b := by
  have le := le_of_shallow second shallow' first
  exact (of_shallow (connect first second le) shallow).2

end Steps

namespace Stops

variable {depth : Nat} {m a : Machine σ} {error error' : Halted σ × Expr}

theorem after {n : Nat} (steps : Steps host depth n m a) (stops : Stops host depth a error) :
    Stops host depth m error := by
  obtain ⟨k, last, rest, deep, failing⟩ := stops
  exact ⟨n + k, last, steps.trans rest, deep, failing⟩

theorem shallower {less : Nat} (le : less ≤ depth) (stops : Stops host depth m error) :
    Stops host less m error := by
  obtain ⟨n, last, steps, deep, failing⟩ := stops
  exact ⟨n, last, steps.shallower le, Nat.lt_of_le_of_lt le deep, failing⟩

/-- A run that fails never comes down to `depth` frames. -/
theorem not_shallow {n : Nat} (stops : Stops host depth m error) (steps : Steps host depth n m a) :
    depth < a.frames.length := by
  obtain ⟨k, last, rest, deep, failing⟩ := stops
  apply Nat.lt_of_not_le
  intro shallow
  have le := steps.le_of_shallow shallow rest
  have same := (Steps.of_error (Steps.connect rest steps le) failing).2
  exact absurd (same ▸ deep) (Nat.not_lt.mpr shallow)

theorem unique (first : Stops host depth m error) (second : Stops host depth m error') :
    error = error' := by
  obtain ⟨n, a, steps, _, failing⟩ := first
  obtain ⟨k, b, steps', _, failing'⟩ := second
  rcases Nat.le_total n k with le | le
  · have same := (Steps.of_error (steps.connect steps' le) failing).2
    rw [same, failing'] at failing
    exact (Except.error.inj failing).symm
  · have same := (Steps.of_error (steps'.connect steps le) failing').2
    rw [same, failing] at failing'
    exact Except.error.inj failing'

/-- A run that fails is over after finitely many dispatches. -/
theorem bounded (stops : Stops host depth m error) :
    ∃ bound, ∀ n a, Steps host depth n m a → n ≤ bound := by
  obtain ⟨k, last, rest, _, failing⟩ := stops
  refine ⟨k, fun n a steps => Nat.le_of_not_lt ?_⟩
  intro longer
  have := (Steps.of_error (rest.connect steps (by omega)) failing).1
  omega

end Stops

/-! ## Chains and runs -/

theorem run_done (fuel : Nat) (m : Machine σ) (none : m.frames = []) :
    run host fuel m = ⟨m.answer, m.heap, m.world⟩ := by
  cases fuel <;> rw [run, if_pos (by simp [none])]

theorem heap_run_zero (host : Host σ) (m : Machine σ) : (run host 0 m).heap = m.heap := by
  unfold run
  split
  · rfl
  · split <;> rfl

/-- A state with frames in which nobody asks for the end is dispatched. -/
theorem run_of_unasked {m : Machine σ} (busy : 0 < m.frames.length)
    (unasked : host.done m.world = false) (fuel : Nat) :
    run host (fuel + 1) m =
      match step host m with
      | .error (halted, e) => stopped halted e
      | .ok next => run host fuel next := by
  have left : ¬ m.frames.isEmpty := by
    rw [List.isEmpty_iff_length_eq_zero]
    omega
  rw [run, if_neg left, unasked]
  rfl

/-- Nobody asks for the end before any of the first `n` dispatches. -/
def Unasked (host : Host σ) (m : Machine σ) (n : Nat) : Prop :=
  ∀ k < n, ∀ between, Steps host 0 k m between → host.done between.world = false

theorem Unasked.next {n : Nat} {m next : Machine σ} (unasked : Unasked host m (n + 1))
    (deep : 0 < m.frames.length) (one : step host m = .ok next) : Unasked host next n :=
  fun k less between steps =>
    unasked (k + 1) (Nat.succ_lt_succ less) between (.dispatch deep one steps)

/-- A run that nobody ends on the way goes where its dispatches lead. -/
theorem run_of_chain {n : Nat} {m a : Machine σ} (steps : Steps host 0 n m a)
    (unasked : Unasked host m n) (fuel : Nat) : run host (n + fuel) m = run host fuel a := by
  induction steps with
  | stay => rw [Nat.zero_add]
  | @dispatch n m next _ deep one _ ih =>
    rw [Nat.succ_add, run_of_unasked deep (unasked 0 (Nat.succ_pos n) m (.stay m)), one]
    exact ih (unasked.next deep one)

theorem run_of_steps (patient : ∀ w, host.done w = false) {n : Nat} {m a : Machine σ}
    (steps : Steps host 0 n m a) (fuel : Nat) : run host (n + fuel) m = run host fuel a :=
  run_of_chain steps (fun _ _ between _ => patient between.world) fuel

theorem run_of_stops (patient : ∀ w, host.done w = false) {m : Machine σ} {halted : Halted σ}
    {e : Expr} (stops : Stops host 0 m (halted, e)) :
    ∃ fuel, run host fuel m = stopped halted e := by
  obtain ⟨n, last, steps, deep, failing⟩ := stops
  exact ⟨n + 1, by rw [run_of_steps patient steps, run_of_unasked deep (patient _), failing]⟩

/-- How a run ends: no frame is left, a dispatch fails, the embedding program has
asked for the end, or the allowance is used up. -/
theorem run_cases (fuel : Nat) (m : Machine σ) :
    (∃ n last, Steps host 0 n m last ∧ last.frames = [] ∧
      run host fuel m = ⟨last.answer, last.heap, last.world⟩) ∨
    (∃ halted e, Stops host 0 m (halted, e) ∧ run host fuel m = stopped halted e) ∨
    (∃ n last, Steps host 0 n m last ∧ host.done last.world ∧
      run host fuel m = ⟨.cancelled, last.heap, last.world⟩) ∨
    (∃ last, Steps host 0 fuel m last ∧ 0 < last.frames.length ∧
      run host fuel m = ⟨.unfinished, last.heap, last.world⟩) := by
  induction fuel generalizing m with
  | zero =>
    by_cases none : m.frames = []
    · exact .inl ⟨0, m, .stay m, none, run_done 0 m none⟩
    · rw [run, if_neg (by simpa using none)]
      split
      · next asked => exact .inr (.inr (.inl ⟨0, m, .stay m, asked, rfl⟩))
      · exact .inr (.inr (.inr ⟨m, .stay m, List.length_pos_iff.mpr none, rfl⟩))
  | succ fuel ih =>
    by_cases none : m.frames = []
    · exact .inl ⟨0, m, .stay m, none, run_done _ m none⟩
    · have deep : 0 < m.frames.length := List.length_pos_iff.mpr none
      rw [run, if_neg (by simpa using none)]
      split
      · next asked => exact .inr (.inr (.inl ⟨0, m, .stay m, asked, rfl⟩))
      · cases one : step host m with
        | error error => exact .inr (.inl ⟨error.1, error.2, ⟨0, m, .stay m, deep, one⟩, rfl⟩)
        | ok next =>
          rcases ih next with ⟨n, last, steps, empty, ends⟩ | ⟨halted, e, stops, ends⟩ |
            ⟨n, last, steps, asked, ends⟩ | ⟨last, steps, left, ends⟩
          · exact .inl ⟨n + 1, last, .dispatch deep one steps, empty, ends⟩
          · exact .inr (.inl ⟨halted, e, stops.after (.single deep one), ends⟩)
          · exact .inr (.inr (.inl ⟨n + 1, last, .dispatch deep one steps, asked, ends⟩))
          · exact .inr (.inr (.inr ⟨last, .dispatch deep one steps, left, ends⟩))

end Machine

/-- Reporting a failure leaves the heap alone. -/
theorem heap_evaluate {σ : Type} (host : Host σ) (fuel : Nat) (h : Heap) (world : σ)
    (target : Option Ref) (e : Expr) :
    (evaluate host fuel h world target (some e)).heap =
      (Machine.run host fuel (.start (h.target target).1 world (h.target target).2 e)).heap := by
  simp only [evaluate, Result.reported]
  split
  · split <;> rfl
  · rfl

end BoxScript
