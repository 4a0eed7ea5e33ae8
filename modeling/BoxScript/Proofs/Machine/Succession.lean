import BoxScript.Proofs.Machine.Agreement

/-!
# Expressions one after another

What the recursion comes to does not depend on how deeply it may nest, once
that is deep enough. So two lists of expressions can be evaluated in one go or
one after the other: the second starts with the heap and the world that the
first has left, and nothing else of the first matters to it.
-/

set_option autoImplicit false

namespace BoxScript

namespace Recursive

variable {σ : Type} {host : Host σ} {target : Ref} {e : Expr} {s : Store σ}
  {result result' : Except (Halted σ × Expr) (Ref × Store σ)}

/-! ## The recursion comes to one end -/

/-- A machine without frames. -/
abbrev idle (s : Store σ) : Machine σ := s.machine #[] []

theorem Ends.unique (first : Ends host target e s result) (second : Ends host target e s result') :
    result = result' := by
  have fits : Machine.Fits e (idle s).values.size (idle s).values.size := .inl rfl
  cases result with
  | ok value =>
    obtain ⟨v, heap, world⟩ := value
    obtain ⟨n, returns⟩ := Machine.steps_of_value (m := idle s) fits first
    cases result' with
    | ok value' =>
      obtain ⟨v', heap', world'⟩ := value'
      obtain ⟨k, returns'⟩ := Machine.steps_of_value (m := idle s) fits second
      have same := returns.unique returns' (Nat.le_refl _) (Nat.le_refl _)
      obtain ⟨rfl, rfl, pushed, -⟩ := Machine.mk.inj same
      rw [Array.push_inj_right.mp pushed]
    | error error =>
      have stops := Machine.stops_of_error (m := idle s) fits second
      exact absurd (stops.not_shallow returns) (Nat.lt_irrefl _)
  | error error =>
    have stops := Machine.stops_of_error (m := idle s) fits first
    cases result' with
    | ok value =>
      obtain ⟨k, returns⟩ := Machine.steps_of_value (m := idle s) fits second
      exact absurd (stops.not_shallow returns) (Nat.lt_irrefl _)
    | error error' => rw [stops.unique (Machine.stops_of_error (m := idle s) fits second)]

/-- A machine that evaluates what the recursion ends on makes only so many
dispatches. -/
theorem Ends.bounded (ends : Ends host target e s result) :
    ∃ bound, ∀ n last, Machine.Steps host 0 n ((idle s).push target e) last → n ≤ bound := by
  have fits : Machine.Fits e (idle s).values.size (idle s).values.size := .inl rfl
  cases result with
  | ok value =>
    obtain ⟨k, returns⟩ := Machine.steps_of_value (m := idle s) fits ends
    exact ⟨k, fun n last steps => returns.le_of_shallow (Nat.le_refl _) steps⟩
  | error error => exact (Machine.stops_of_error (m := idle s) fits ends).bounded

theorem Ends.eventually (ends : Ends host target e s result) :
    ∃ bound, ∀ n, bound < n → eval host n target e s = some result := by
  obtain ⟨bound, bounded⟩ := ends.bounded
  refine ⟨bound, fun n more => ?_⟩
  cases found : eval host n target e s with
  | none =>
    -- A recursion that needs to nest deeper stands for more dispatches than there are.
    obtain ⟨last, steps⟩ := Machine.steps_of_none (m := idle s) (.inl rfl) found
    exact absurd (bounded n last steps) (Nat.not_le.mpr more)
  | some result' => rw [ends.unique ⟨n, found⟩]

/-! ## Lists of expressions -/

theorem last_append (eval : Expr → Store σ → Trial σ Ref) (v : Ref) (es fs : List Expr)
    (s : Store σ) :
    last eval v (es ++ fs) s = (last eval v es s).andThen fun v s => last eval v fs s := by
  induction es generalizing v s with
  | nil => rfl
  | cons e es ih =>
    simp only [List.cons_append, last]
    cases eval e s with
    | none => rfl
    | some result =>
      cases result with
      | error error => rfl
      | ok value => exact ih value.1 value.2

/-- Only an empty list has the value of what comes before it. -/
theorem last_congr {es : List Expr} (some' : es ≠ []) (eval : Expr → Store σ → Trial σ Ref)
    (v w : Ref) (s : Store σ) : last eval v es s = last eval w es s := by
  cases es with
  | nil => exact absurd rfl some'
  | cons e es => rfl

theorem last_eventually {n : Nat} {v : Ref} {es : List Expr}
    (found : last (eval host n target) v es s = some result) :
    ∃ bound, ∀ k, bound < k → last (eval host k target) v es s = some result := by
  induction es generalizing v s with
  | nil => exact ⟨0, fun k _ => found⟩
  | cons e es ih =>
    simp only [last] at found ⊢
    cases first : eval host n target e s with
    | none =>
      rw [first] at found
      cases found
    | some result' =>
      obtain ⟨bound, settled⟩ := Ends.eventually ⟨n, first⟩
      rw [first] at found
      cases result' with
      | error error =>
        refine ⟨bound, fun k more => ?_⟩
        rw [settled k more]
        exact found
      | ok value =>
        obtain ⟨bound', settled'⟩ := ih found
        refine ⟨max bound bound', fun k more => ?_⟩
        rw [settled k (by omega)]
        exact settled' k (by omega)

/-- The expressions of a program, evaluated from left to right. -/
theorem ends_ofList {es : List Expr} (folded : Expr.ofList es = some e) :
    Ends host target e s result ↔
      ∃ n, last (eval host n target) Canon.nullValue es s = some result := by
  match es with
  | [] => cases folded
  | [f] =>
    cases folded
    have only (n : Nat) : last (eval host n target) Canon.nullValue [e] s = eval host n target e s := by
      simp only [last]
      cases eval host n target e s with
      | none => rfl
      | some result => cases result <;> rfl
    simp only [only]
    rfl
  | f :: g :: es =>
    cases folded
    constructor
    · rintro ⟨n, found⟩
      cases n with
      | zero => cases found
      | succ n => exact ⟨n, found⟩
    · rintro ⟨n, found⟩
      exact ⟨n + 1, found⟩

/-- A program in two parts: the second starts where the first has ended with a
value, and a failure of the first is one of the whole. -/
theorem ends_append {es fs : List Expr} {first second : Expr}
    (foldedFirst : Expr.ofList es = some first) (foldedSecond : Expr.ofList fs = some second)
    (folded : Expr.ofList (es ++ fs) = some e) :
    Ends host target e s result ↔
      (∃ v s', Ends host target first s (.ok (v, s')) ∧ Ends host target second s' result) ∨
        ∃ error, Ends host target first s (.error error) ∧ result = .error error := by
  have some' : fs ≠ [] := by
    rintro rfl
    cases foldedSecond
  simp only [ends_ofList folded, ends_ofList foldedFirst, ends_ofList foldedSecond, last_append]
  constructor
  · rintro ⟨n, found⟩
    cases front : last (eval host n target) Canon.nullValue es s with
    | none =>
      rw [front] at found
      cases found
    | some result' =>
      rw [front] at found
      cases result' with
      | error error =>
        cases found
        exact .inr ⟨error, ⟨n, front⟩, rfl⟩
      | ok value =>
        refine .inl ⟨value.1, value.2, ⟨n, front⟩, n, ?_⟩
        rw [last_congr some' _ Canon.nullValue value.1]
        exact found
  · rintro (⟨v, s', ⟨n, front⟩, ⟨k, back⟩⟩ | ⟨error, ⟨n, front⟩, rfl⟩)
    · -- The two parts may need different depths; from the greater one on both are settled.
      obtain ⟨bound, settled⟩ := last_eventually front
      obtain ⟨bound', settled'⟩ := last_eventually back
      refine ⟨max bound bound' + 1, ?_⟩
      rw [settled _ (by omega)]
      exact (last_congr some' _ v Canon.nullValue s').trans (settled' _ (by omega))
    · refine ⟨n, ?_⟩
      rw [front]
      rfl

end Recursive

/-! ## Evaluations -/

/-- What is reported when the recursion ends. -/
def Result.ofRecursion {σ : Type} : Except (Halted σ × Expr) (Ref × Store σ) → Result σ
  | .ok (v, s) => ⟨.value v, s.heap, s.world⟩
  | .error (halted, place) => Machine.stopped halted place

theorem Machine.stopped_outcome {σ : Type} (halted : Halted σ) (place : Expr) :
    (∃ error, (stopped halted place).outcome = .failed error) ∨
      (stopped halted place).outcome = .fatal := by
  rw [stopped]
  split
  · exact .inl ⟨_, rfl⟩
  · exact .inr rfl

/-- An evaluation against a target comes to this end, which is not that its
allowance was used up. -/
def Evaluates {σ : Type} (host : Host σ) (target : Ref) (program : Option Expr) (s : Store σ)
    (r : Result σ) : Prop :=
  ∃ fuel, evaluate host fuel s.heap s.world (some target) program = r ∧ r.outcome ≠ .unfinished

theorem evaluates_iff {σ : Type} {host : Host σ} (patient : ∀ w, host.done w = false) {target : Ref}
    {e : Expr} (reportable : ∀ r : Result σ, r.reported e = r) {s : Store σ} {r : Result σ} :
    Evaluates host target (some e) s r ↔
      ∃ result, Recursive.Ends host target e s result ∧ r = .ofRecursion result := by
  have runs (fuel : Nat) : evaluate host fuel s.heap s.world (some target) (some e) =
      Machine.run host fuel (.start s.heap s.world target e) := reportable _
  simp only [Evaluates, runs]
  constructor
  · rintro ⟨fuel, rfl, finished⟩
    rcases Machine.run_cases_start patient fuel with ⟨v, s', ends, same⟩ |
      ⟨halted, place, ends, same⟩ | unfinished
    · exact ⟨_, ends, same⟩
    · exact ⟨_, ends, same⟩
    · exact absurd unfinished finished
  · rintro ⟨result, ends, rfl⟩
    cases result with
    | ok value =>
      obtain ⟨fuel, same⟩ := Machine.run_of_value patient ends
      exact ⟨fuel, same, by simp [Result.ofRecursion]⟩
    | error error =>
      obtain ⟨fuel, same⟩ := Machine.run_of_error patient ends
      refine ⟨fuel, same, ?_⟩
      rcases Machine.stopped_outcome error.1 error.2 with ⟨_, failed⟩ | fatal
      · simp [Result.ofRecursion, failed]
      · simp [Result.ofRecursion, fatal]

end BoxScript
