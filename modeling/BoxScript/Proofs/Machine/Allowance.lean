import BoxScript.Proofs.Machine.Succession

/-!
# How many dispatches an evaluation takes

An evaluation is given an allowance of dispatches. It takes exactly `n` of them
if every allowance of `n` or more gives the same result and every smaller one is
used up. The dispatch that fails counts, and looking whether the embedding
program has asked for the end does not.

A run goes where its dispatches lead as long as nobody asks for the end before
one of them, so the chain of dispatches up to its last state decides how many it
takes.
-/

set_option autoImplicit false

namespace BoxScript

/-- Whether an evaluation has come to a value. -/
def Outcome.isValue : Outcome → Bool
  | .value _ => true
  | _ => false

/-- What an evaluation comes to with each allowance: it takes `n` dispatches and
comes to `r`. -/
structure Takes {σ : Type} (allowed : Nat → Result σ) (n : Nat) (r : Result σ) : Prop where
  enough : ∀ fuel, n ≤ fuel → allowed fuel = r
  short : ∀ fuel < n, (allowed fuel).outcome = .unfinished

namespace Result

variable {σ : Type} {r : Result σ}

/-- Only failures are reported. -/
theorem reported_of_not_failed (plain : ∀ error, r.outcome ≠ .failed error) (e : Expr) :
    r.reported e = r := by
  unfold reported
  split
  · next error failed => exact absurd failed (plain error)
  · rfl

/-- A failure is still one when it has been reported. -/
theorem reported_fails (fails : (∃ error, r.outcome = .failed error) ∨ r.outcome = .fatal)
    (e : Expr) :
    (∃ error, (r.reported e).outcome = .failed error) ∨ (r.reported e).outcome = .fatal := by
  unfold reported
  split
  · split
    · exact fails
    · exact .inr rfl
  · exact fails

end Result

/-- Reporting a failure takes no dispatch. -/
theorem Takes.reported {σ : Type} {allowed : Nat → Result σ} {n : Nat} {r : Result σ}
    (takes : Takes allowed n r) (e : Expr) :
    Takes (fun fuel => (allowed fuel).reported e) n (r.reported e) where
  enough fuel le := by rw [takes.enough fuel le]
  short fuel less := Result.reported_unfinished_iff.mpr (takes.short fuel less)

namespace Machine

variable {σ : Type} {host : Host σ} {n : Nat} {m last : Machine σ}

theorem run_zero_of_unasked (busy : 0 < m.frames.length) (unasked : host.done m.world = false) :
    (run host 0 m).outcome = .unfinished := by
  have left : ¬ m.frames.isEmpty := by
    rw [List.isEmpty_iff_length_eq_zero]
    omega
  rw [run, if_neg left, unasked]
  rfl

section Chains

variable (steps : Steps host 0 n m last)

include steps

/-- An allowance that ends within the chain is used up. -/
theorem run_within_chain (unasked : Unasked host m n) {fuel : Nat} (less : fuel < n) :
    (run host fuel m).outcome = .unfinished := by
  induction steps generalizing fuel with
  | stay => exact absurd less (Nat.not_lt_zero fuel)
  | @dispatch n m next _ deep one _ ih =>
    have now := unasked 0 (Nat.succ_pos n) m (.stay m)
    cases fuel with
    | zero => exact run_zero_of_unasked deep now
    | succ fuel =>
      rw [run_of_unasked deep now, one]
      exact ih (unasked.next deep one) (Nat.lt_of_succ_lt_succ less)

/-- A chain to a state that goes no further. -/
theorem takes_of_chain (unasked : Unasked host m n) {r : Result σ}
    (ends : ∀ fuel, run host fuel last = r) : Takes (fun fuel => run host fuel m) n r where
  enough fuel le := by
    obtain ⟨more, rfl⟩ := Nat.exists_eq_add_of_le le
    rw [run_of_chain steps unasked, ends]
  short _ less := run_within_chain steps unasked less

/-- A chain to a state whose dispatch fails. -/
theorem takes_of_failing (unasked : Unasked host m (n + 1)) {halted : Halted σ} {e : Expr}
    (deep : 0 < last.frames.length) (failing : step host last = .error (halted, e)) :
    Takes (fun fuel => run host fuel m) (n + 1) (stopped halted e) := by
  have before : Unasked host m n := fun k less => unasked k (Nat.lt_succ_of_lt less)
  have now := unasked n (Nat.lt_succ_self n) last steps
  refine ⟨fun fuel le => ?_, fun fuel less => ?_⟩
  · obtain ⟨more, rfl⟩ := Nat.exists_eq_add_of_le le
    rw [Nat.add_assoc, Nat.add_comm 1 more, run_of_chain steps before, run_of_unasked deep now,
      failing]
  · rcases Nat.lt_succ_iff_lt_or_eq.mp less with less | rfl
    · exact run_within_chain steps before less
    · rw [← Nat.add_zero fuel, run_of_chain steps before]
      exact run_zero_of_unasked deep now

end Chains

end Machine

end BoxScript
