import BoxScript.Proofs.Machine.Simulation

/-!
# The machine agrees with the recursion

From any state, pushing a frame for an expression and dispatching until the
frames below are on top again leaves the recursion's value, and fails where the
recursion fails; if the recursion does not end, neither does the machine. Both
directions hold, since the dispatches from a state cannot lead to two ends.

An evaluation is a run from a single frame. What it reports is what the
recursion comes to, with one proviso: a failure is reported with the text of
the whole program, and a program with a hole in it has none, so there the
report, and not the run, ends for good.
-/

set_option autoImplicit false

namespace BoxScript

/-- The embedding program, but never asking for an evaluation to end. -/
def Host.patient {σ : Type} (host : Host σ) : Host σ := { host with done := fun _ => false }

namespace Machine

variable {σ : Type}

open Recursive

/-- Adds a frame for an expression that may lie above its floor. -/
abbrev pushAbove (m : Machine σ) (floor : Nat) (target : Ref) (e : Expr) : Machine σ :=
  { m with frames := ⟨target, e, 0, floor, none⟩ :: m.frames }

section Frames

variable {host : Host σ} {m : Machine σ} {floor : Nat} {target : Ref} {e : Expr}
  (fits : Fits e floor m.values.size)

include fits

theorem pushAbove_follows (host : Host σ) (target : Ref) (n : Nat) :
    Follows host m.frames.length n (m.pushAbove floor target e)
      (eval host n target e ⟨m.heap, m.world⟩) fun v s => s.machine (m.values.push v) m.frames :=
  simulated host n target e ⟨m.heap, m.world⟩ m.values m.frames floor fits

theorem steps_of_value {v : Ref} {s : Store σ}
    (ends : Ends host target e ⟨m.heap, m.world⟩ (.ok (v, s))) :
    ∃ n, Steps host m.frames.length n (m.pushAbove floor target e)
      (s.machine (m.values.push v) m.frames) := by
  obtain ⟨n, result⟩ := ends
  have follows := pushAbove_follows fits host target n
  rw [result] at follows
  exact follows

theorem stops_of_error {error : Halted σ × Expr}
    (ends : Ends host target e ⟨m.heap, m.world⟩ (.error error)) :
    Stops host m.frames.length (m.pushAbove floor target e) error := by
  obtain ⟨n, result⟩ := ends
  have follows := pushAbove_follows fits host target n
  rw [result] at follows
  exact follows

theorem steps_of_none {n : Nat} (short : eval host n target e ⟨m.heap, m.world⟩ = none) :
    ∃ last, Steps host m.frames.length n (m.pushAbove floor target e) last := by
  have follows := pushAbove_follows fits host target n
  rw [short] at follows
  exact follows

/-- A run that comes back to the frames it started above was the recursion's. -/
theorem value_of_steps {n : Nat} {last : Machine σ}
    (steps : Steps host m.frames.length n (m.pushAbove floor target e) last)
    (back : last.frames.length ≤ m.frames.length) :
    ∃ v s, Ends host target e ⟨m.heap, m.world⟩ (.ok (v, s)) ∧
      last = s.machine (m.values.push v) m.frames := by
  cases result : eval host (n + 1) target e ⟨m.heap, m.world⟩ with
  | none =>
    obtain ⟨beyond, more⟩ := steps_of_none fits result
    have := steps.le_of_shallow back more
    omega
  | some result' =>
    cases result' with
    | error error =>
      have deep := (stops_of_error fits ⟨n + 1, result⟩).not_shallow steps
      exact absurd deep (Nat.not_lt.mpr back)
    | ok value =>
      obtain ⟨k, returns⟩ := steps_of_value fits ⟨n + 1, result⟩
      exact ⟨value.1, value.2, ⟨n + 1, result⟩, steps.unique returns back (Nat.le_refl _)⟩

/-- A run that fails before it comes back was the recursion's. -/
theorem error_of_stops {error : Halted σ × Expr}
    (stops : Stops host m.frames.length (m.pushAbove floor target e) error) :
    Ends host target e ⟨m.heap, m.world⟩ (.error error) := by
  obtain ⟨bound, bounded⟩ := stops.bounded
  cases result : eval host (bound + 1) target e ⟨m.heap, m.world⟩ with
  | none =>
    obtain ⟨beyond, more⟩ := steps_of_none fits result
    have := bounded _ _ more
    omega
  | some result' =>
    cases result' with
    | error error' =>
      have same := stops.unique (stops_of_error fits ⟨bound + 1, result⟩)
      exact ⟨bound + 1, same ▸ result⟩
    | ok value =>
      obtain ⟨k, returns⟩ := steps_of_value fits ⟨bound + 1, result⟩
      exact absurd (stops.not_shallow returns) (Nat.lt_irrefl _)

omit fits

theorem ends_value_iff {v : Ref} {s : Store σ} :
    Ends host target e ⟨m.heap, m.world⟩ (.ok (v, s)) ↔
      ∃ n, Steps host m.frames.length n (m.push target e)
        (s.machine (m.values.push v) m.frames) := by
  refine ⟨steps_of_value (.inl rfl), ?_⟩
  rintro ⟨n, steps⟩
  obtain ⟨v', s', ends, same⟩ := value_of_steps (.inl rfl) steps (Nat.le_refl _)
  obtain ⟨heap, world, pushed, -⟩ := Machine.mk.inj same
  have value : v = v' := Array.push_inj_right.mp pushed
  have store : s = s' := by
    cases s
    cases s'
    simp_all
  rw [value, store]
  exact ends

theorem ends_error_iff {error : Halted σ × Expr} :
    Ends host target e ⟨m.heap, m.world⟩ (.error error) ↔
      Stops host m.frames.length (m.push target e) error :=
  ⟨stops_of_error (.inl rfl), error_of_stops (.inl rfl)⟩

/-- The recursion does not end exactly if the machine goes on for ever. -/
theorem never_ends_iff :
    (∀ n, eval host n target e ⟨m.heap, m.world⟩ = none) ↔
      ∀ n, ∃ last, Steps host m.frames.length n (m.push target e) last := by
  refine ⟨fun never n => steps_of_none (.inl rfl) (never n), ?_⟩
  intro forever n
  cases result : eval host n target e ⟨m.heap, m.world⟩ with
  | none => rfl
  | some result' =>
    cases result' with
    | error error =>
      obtain ⟨bound, bounded⟩ := (stops_of_error (.inl rfl) ⟨n, result⟩).bounded
      obtain ⟨last, steps⟩ := forever (bound + 1)
      have := bounded _ _ steps
      omega
    | ok value =>
      obtain ⟨k, returns⟩ := steps_of_value (.inl rfl) ⟨n, result⟩
      obtain ⟨last, steps⟩ := forever (k + 1)
      have := returns.le_of_shallow (Nat.le_refl _) steps
      omega

end Frames

/-! ## Runs and evaluations -/

section Runs

variable {host : Host σ} (patient : ∀ w, host.done w = false) {h : Heap} {world : σ} {target : Ref}
  {e : Expr}

include patient

/-- What a run from one frame comes to is what the recursion comes to. -/
theorem run_cases_start (fuel : Nat) :
    (∃ v s, Ends host target e ⟨h, world⟩ (.ok (v, s)) ∧
      run host fuel (.start h world target e) = ⟨.value v, s.heap, s.world⟩) ∨
    (∃ halted place, Ends host target e ⟨h, world⟩ (.error (halted, place)) ∧
      run host fuel (.start h world target e) = stopped halted place) ∨
    (run host fuel (.start h world target e)).outcome = .unfinished := by
  let empty : Machine σ := ⟨h, world, #[Canon.nullValue], []⟩
  rcases run_cases fuel (empty.push target e) with ⟨n, last, steps, none, ends⟩ |
    ⟨halted, place, stops, ends⟩ | ⟨_, last, _, asked, _⟩ | ⟨last, _, _, ends⟩
  · obtain ⟨v, s, value, same⟩ := value_of_steps (m := empty) (.inl rfl) steps (by simp [none])
    refine .inl ⟨v, s, value, ends.trans ?_⟩
    simp [same, answer]
  · exact .inr (.inl ⟨halted, place, error_of_stops (m := empty) (.inl rfl) stops, ends⟩)
  · rw [patient] at asked
    cases asked
  · exact .inr (.inr (congrArg Result.outcome ends))

theorem run_of_value {v : Ref} {s : Store σ} (ends : Ends host target e ⟨h, world⟩ (.ok (v, s))) :
    ∃ fuel, run host fuel (.start h world target e) = ⟨.value v, s.heap, s.world⟩ := by
  obtain ⟨n, steps⟩ := steps_of_value (m := ⟨h, world, #[Canon.nullValue], []⟩) (.inl rfl) ends
  refine ⟨n + 0, (run_of_steps patient steps 0).trans ?_⟩
  rw [run_done 0 _ rfl]
  simp [answer]

theorem run_of_error {halted : Halted σ} {place : Expr}
    (ends : Ends host target e ⟨h, world⟩ (.error (halted, place))) :
    ∃ fuel, run host fuel (.start h world target e) = stopped halted place :=
  run_of_stops patient (stops_of_error (m := ⟨h, world, #[Canon.nullValue], []⟩) (.inl rfl) ends)

/-- The recursion does not end exactly if no allowance of dispatches is enough. -/
theorem never_ends_iff_unfinished :
    (∀ n, eval host n target e ⟨h, world⟩ = none) ↔
      ∀ fuel, (run host fuel (.start h world target e)).outcome = .unfinished := by
  constructor
  · intro never fuel
    rcases run_cases_start patient fuel with ⟨v, s, ⟨n, ends⟩, _⟩ | ⟨halted, place, ⟨n, ends⟩, _⟩ |
      unfinished
    · rw [never n] at ends
      cases ends
    · rw [never n] at ends
      cases ends
    · exact unfinished
  · intro unfinished n
    cases result : eval host n target e ⟨h, world⟩ with
    | none => rfl
    | some result' =>
      cases result' with
      | error error =>
        obtain ⟨fuel, ends⟩ := run_of_error patient ⟨n, result⟩
        have := unfinished fuel
        rw [ends, stopped] at this
        split at this <;> cases this
      | ok value =>
        obtain ⟨fuel, ends⟩ := run_of_value patient ⟨n, result⟩
        have := unfinished fuel
        rw [ends] at this
        cases this

theorem run_value_iff {v : Ref} {h' : Heap} {world' : σ} :
    (∃ fuel, run host fuel (.start h world target e) = ⟨.value v, h', world'⟩) ↔
      Ends host target e ⟨h, world⟩ (.ok (v, ⟨h', world'⟩)) := by
  refine ⟨?_, run_of_value patient⟩
  rintro ⟨fuel, ends⟩
  rcases run_cases_start patient fuel with ⟨v', s, value, same⟩ | ⟨halted, place, _, same⟩ |
    unfinished
  · rw [ends] at same
    cases same
    exact value
  · rw [ends, stopped] at same
    split at same <;> cases same
  · rw [ends] at unfinished
    cases unfinished

theorem run_failed_iff {place : Expr} {cause : Cause} {h' : Heap} {world' : σ} :
    (∃ fuel, run host fuel (.start h world target e) = ⟨.failed ⟨place, cause⟩, h', world'⟩) ↔
      Ends host target e ⟨h, world⟩ (.error (⟨.cause cause, h', world'⟩, place)) := by
  refine ⟨?_, run_of_error patient⟩
  rintro ⟨fuel, ends⟩
  rcases run_cases_start patient fuel with ⟨v, s, _, same⟩ | ⟨⟨failure, _, _⟩, place', error, same⟩ |
    unfinished
  · rw [ends] at same
    cases same
  · rw [ends] at same
    cases failure <;> cases same
    exact error
  · rw [ends] at unfinished
    cases unfinished

theorem run_fatal_iff {h' : Heap} {world' : σ} :
    (∃ fuel, run host fuel (.start h world target e) = ⟨.fatal, h', world'⟩) ↔
      ∃ place, Ends host target e ⟨h, world⟩ (.error (⟨.fatal, h', world'⟩, place)) := by
  refine ⟨?_, fun ⟨place, error⟩ => run_of_error patient error⟩
  rintro ⟨fuel, ends⟩
  rcases run_cases_start patient fuel with ⟨v, s, _, same⟩ | ⟨⟨failure, _, _⟩, place, error, same⟩ |
    unfinished
  · rw [ends] at same
    cases same
  · rw [ends] at same
    cases failure <;> cases same
    exact ⟨place, error⟩
  · rw [ends] at unfinished
    cases unfinished

end Runs

end Machine

namespace Result

variable {σ : Type} {r : Result σ} {e : Expr} {h : Heap} {world : σ}

theorem reported_value_iff {v : Ref} :
    r.reported e = ⟨.value v, h, world⟩ ↔ r = ⟨.value v, h, world⟩ := by
  obtain ⟨outcome, heap, world'⟩ := r
  cases outcome <;> simp only [reported]
  split <;> simp

theorem reported_failed_iff {error : EvalError} :
    r.reported e = ⟨.failed error, h, world⟩ ↔
      e.complete = true ∧ r = ⟨.failed error, h, world⟩ := by
  obtain ⟨outcome, heap, world'⟩ := r
  cases outcome <;> simp only [reported]
  case failed => split <;> simp_all
  all_goals simp

theorem reported_fatal_iff :
    r.reported e = ⟨.fatal, h, world⟩ ↔ r = ⟨.fatal, h, world⟩ ∨
      e.complete = false ∧ ∃ error, r = ⟨.failed error, h, world⟩ := by
  obtain ⟨outcome, heap, world'⟩ := r
  cases outcome <;> simp only [reported]
  case failed => split <;> simp_all
  all_goals simp

/-- Reporting concerns failures only, of which it may make an end for good. -/
theorem reported_outcome_iff {outcome : Outcome} (plain : ∀ error, outcome ≠ .failed error)
    (alive : outcome ≠ .fatal) : (r.reported e).outcome = outcome ↔ r.outcome = outcome := by
  unfold reported
  split
  · next error failed =>
    rw [failed]
    split
    · rw [failed]
    · exact iff_of_false alive.symm (plain error).symm
  · exact Iff.rfl

theorem reported_unfinished_iff :
    (r.reported e).outcome = .unfinished ↔ r.outcome = .unfinished :=
  reported_outcome_iff nofun nofun

theorem reported_cancelled_iff :
    (r.reported e).outcome = .cancelled ↔ r.outcome = .cancelled :=
  reported_outcome_iff nofun nofun

end Result

/-- Evaluation is the recursion. The first five clauses are about whole
evaluations that nobody ends early: a value, a failure of the run, the failure
as it is reported, an end for good, and no end at all. The last three are about
a frame in the middle of any machine. -/
theorem evaluate_agrees {σ : Type} (host : Host σ) (h : Heap) (world : σ) (target : Option Ref)
    (e : Expr) :
    let h₀ := (h.target target).1
    let target₀ := (h.target target).2
    let ends := Recursive.Ends host.patient target₀ e ⟨h₀, world⟩
    let evaluated := fun fuel => evaluate host.patient fuel h world target (some e)
    let ran := fun fuel => Machine.run host.patient fuel (.start h₀ world target₀ e)
    (∀ v h' world', (∃ fuel, evaluated fuel = ⟨.value v, h', world'⟩) ↔
      ends (.ok (v, ⟨h', world'⟩))) ∧
    (∀ place cause h' world', (∃ fuel, ran fuel = ⟨.failed ⟨place, cause⟩, h', world'⟩) ↔
      ends (.error (⟨.cause cause, h', world'⟩, place))) ∧
    (∀ place cause h' world', (∃ fuel, evaluated fuel = ⟨.failed ⟨place, cause⟩, h', world'⟩) ↔
      e.complete = true ∧ ends (.error (⟨.cause cause, h', world'⟩, place))) ∧
    (∀ h' world', (∃ fuel, evaluated fuel = ⟨.fatal, h', world'⟩) ↔
      (∃ place, ends (.error (⟨.fatal, h', world'⟩, place))) ∨
      e.complete = false ∧ ∃ place cause, ends (.error (⟨.cause cause, h', world'⟩, place))) ∧
    ((∀ fuel, (evaluated fuel).outcome = .unfinished) ↔
      ∀ n, Recursive.eval host.patient n target₀ e ⟨h₀, world⟩ = none) ∧
    ∀ (m : Machine σ) (t : Ref),
      (∀ v s, Recursive.Ends host t e ⟨m.heap, m.world⟩ (.ok (v, s)) ↔
        ∃ n, Machine.Steps host m.frames.length n (m.push t e)
          ⟨s.heap, s.world, m.values.push v, m.frames⟩) ∧
      (∀ error, Recursive.Ends host t e ⟨m.heap, m.world⟩ (.error error) ↔
        Machine.Stops host m.frames.length (m.push t e) error) ∧
      ((∀ n, Recursive.eval host n t e ⟨m.heap, m.world⟩ = none) ↔
        ∀ n, ∃ last, Machine.Steps host m.frames.length n (m.push t e) last) := by
  intro h₀ target₀ ends evaluated ran
  have patient : ∀ w, host.patient.done w = false := fun _ => rfl
  have reports : ∀ fuel, evaluated fuel = (ran fuel).reported e := fun _ => rfl
  refine ⟨?_, ?_, ?_, ?_, ?_, fun m t => ⟨?_, ?_, ?_⟩⟩
  · intro v h' world'
    simp only [reports, Result.reported_value_iff]
    exact Machine.run_value_iff patient
  · intro place cause h' world'
    exact Machine.run_failed_iff patient
  · intro place cause h' world'
    simp only [reports, Result.reported_failed_iff, exists_and_left]
    exact and_congr_right fun _ => Machine.run_failed_iff patient
  · intro h' world'
    simp only [reports, Result.reported_fatal_iff, exists_or, exists_and_left]
    refine or_congr (Machine.run_fatal_iff patient) (and_congr_right fun _ => ?_)
    constructor
    · rintro ⟨fuel, ⟨place, cause⟩, failed⟩
      exact ⟨place, cause, (Machine.run_failed_iff patient).mp ⟨fuel, failed⟩⟩
    · rintro ⟨place, cause, error⟩
      obtain ⟨fuel, failed⟩ := (Machine.run_failed_iff patient).mpr error
      exact ⟨fuel, ⟨place, cause⟩, failed⟩
  · simp only [reports, Result.reported_unfinished_iff]
    exact (Machine.never_ends_iff_unfinished patient).symm
  · intro v s
    exact Machine.ends_value_iff
  · intro error
    exact Machine.ends_error_iff
  · exact Machine.never_ends_iff

end BoxScript
