import BoxScript.Proofs.Safety.Failures
import BoxScript.Proofs.Source.Reading

/-!
# Sessions

A session evaluates sources one after another on one heap, which starts as that
of a new interpreter. Every state of every evaluation is safe, evaluations
yield boxes that were made or fail for ordinary causes, and the heaps in
between are sound.
-/

set_option autoImplicit false

namespace BoxScript

open Source (Parsed)

/-! ## Parsed programs have a text -/

theorem Expr.completeAll_of_forall {es : List Expr} (all : ∀ e ∈ es, e.complete = true) :
    Expr.completeAll es = true := by
  induction es with
  | nil => rfl
  | cons e es ih =>
    rw [Expr.completeAll, all e (by simp), ih fun e member => all e (by simp [member])]
    rfl

theorem Expr.completeBody_ofList {es : List Expr} (all : ∀ e ∈ es, e.complete = true) :
    Expr.completeBody (Expr.ofList es) = true := by
  match es with
  | [] => rfl
  | [e] => exact all e (by simp)
  | _ :: _ :: _ => exact Expr.completeAll_of_forall all

theorem Source.Parsed.complete {e : Expr} (parsed : Parsed e) : e.complete = true := by
  induction parsed with
  | name => rfl
  | member _ _ ih => exact ih
  | assign _ _ ih => exact ih
  | assignMember _ _ _ ihTarget ihValue =>
    rw [Expr.complete, ihTarget, ihValue]
    rfl
  | call _ _ ihTarget ihItems =>
    rw [Expr.complete, ihTarget, Expr.complete, Expr.completeAll_of_forall ihItems]
    rfl
  | box folded _ ih =>
    rw [Expr.complete, folded]
    exact Expr.completeBody_ofList ih
  | method _ folded _ ih =>
    rw [Expr.complete, folded]
    exact Expr.completeBody_ofList ih
  | text => rfl
  | integer => rfl
  | real => rfl
  | list _ ih => exact Expr.completeAll_of_forall ih

/-- The failure of a program that has a text is reported as it is. -/
theorem Result.reported_of_complete {σ : Type} {e : Expr} (complete : e.complete = true)
    (r : Result σ) : r.reported e = r := by
  rw [Result.reported, complete]
  split <;> rfl

/-! ## Evaluations -/

/-- An evaluation ends with a box that was made, fails for an ordinary cause, or
is given up. -/
def Outcome.Safe (h : Heap) : Outcome → Prop
  | .value v => v < h.size
  | .failed error => error.cause.kind ∈ ordinaryKinds
  | .cancelled => True
  | .unfinished => True
  | .fatal => False

structure Result.Safe {σ : Type} (r : Result σ) : Prop where
  heap : r.heap.Sound
  canon : Canon.globals < r.heap.size
  outcome : r.outcome.Safe r.heap

section Runs

variable {σ : Type} {host : Host σ} (shipped : host.natives = shippedRoutines) {h : Heap}
  (sound : h.Sound) (canon : Canon.globals < h.size) {target : Ref} (inside : target < h.size)
  {e : Expr} (runnable : e.Runnable h) (world : σ)

include shipped sound canon inside runnable

/-- A dispatch that stops a run stops it for an ordinary cause. -/
theorem Machine.stops_ordinary {halted : Halted σ} {place : Expr}
    (stops : Stops host 0 (start h world target e) (halted, place)) : halted.failure.Ordinary := by
  let empty : Machine σ := ⟨h, world, #[Canon.nullValue], []⟩
  obtain ⟨n, ends⟩ := error_of_stops (m := empty) (.inl rfl) stops
  have orderly := Recursive.eval_orderly (s := ⟨h, world⟩) shipped n ⟨sound, canon⟩ inside runnable
  rw [ends] at orderly
  exact orderly

theorem Machine.run_safe (fuel : Nat) : (run host fuel (start h world target e)).Safe := by
  have safe : (start h world target e).Safe := start_safe sound canon inside (.runnable runnable)
  rcases run_cases fuel (start h world target e) with ⟨n, last, steps, none, ends⟩ |
    ⟨halted, place, stops, ends⟩ | ⟨n, last, steps, asked, ends⟩ | ⟨last, steps, left, ends⟩
  · let empty : Machine σ := ⟨h, world, #[Canon.nullValue], []⟩
    obtain ⟨v, s, -, rfl⟩ := value_of_steps (m := empty) (.inl rfl) steps (by simp [none])
    have reached := (steps_safe shipped steps safe).1
    rw [ends]
    refine ⟨reached.heap, reached.canon, ?_⟩
    have newest : answer (s.machine (empty.values.push v) empty.frames) = .value v := by
      simp [answer]
    rw [newest]
    exact reached.values v (by simp)
  · have ordinary := stops_ordinary shipped sound canon inside runnable world stops
    obtain ⟨n, last, steps, -, failing⟩ := stops
    have reached := (steps_safe shipped steps safe).1
    have stopped := step_secured shipped reached
    rw [failing] at stopped
    obtain ⟨failure, heap, world'⟩ := halted
    rw [ends]
    cases failure with
    | fatal => exact ordinary.elim
    | cause cause => exact ⟨stopped.1, stopped.2.inside reached.canon, ordinary⟩
  · have reached := (steps_safe shipped steps safe).1
    rw [ends]
    exact ⟨reached.heap, reached.canon, trivial⟩
  · have reached := (steps_safe shipped steps safe).1
    rw [ends]
    exact ⟨reached.heap, reached.canon, trivial⟩

end Runs

theorem Heap.target_sound {h : Heap} (sound : h.Sound) {target : Option Ref}
    (inside : ∀ r ∈ target, r < h.size) :
    (h.target target).1.Sound ∧ h.Extends (h.target target).1 ∧
      (h.target target).2 < (h.target target).1.size := by
  cases target with
  | some r => exact ⟨sound, .refl h, inside r rfl⟩
  | none =>
    have new := Heap.made_newBox sound
    exact ⟨new.sound, new.later, new.inside⟩

/-- What a source is evaluated as. -/
theorem Source.program_runnable {source : Bytes} {program : Option Expr}
    (parsed : parseProgram source = .ok program) (h : Heap) :
    ∀ e ∈ program, e.Runnable h ∧ e.complete = true := by
  rw [parseProgram] at parsed
  split at parsed
  · next es reads =>
    cases parsed
    have all := parsed_of_parse reads
    intro e folded
    have complete := Expr.completeBody_ofList fun e member => (all e member).complete
    rw [folded] at complete
    exact ⟨.of_ofList all folded, complete⟩
  · cases parsed

theorem evaluate_safe {σ : Type} {host : Host σ} (shipped : host.natives = shippedRoutines)
    {h : Heap} (sound : h.Sound) (canon : Canon.globals < h.size) {source : Bytes}
    {program : Option Expr} (parsed : Source.parseProgram source = .ok program)
    {target : Option Ref} (inside : ∀ r ∈ target, r < h.size) (fuel : Nat) (world : σ) :
    (evaluate host fuel h world target program).Safe := by
  obtain ⟨sound', later, inside'⟩ := Heap.target_sound sound inside
  have canon' := later.inside canon
  rw [evaluate]
  cases program with
  | none => exact ⟨sound', canon', Nat.lt_trans (by decide) canon'⟩
  | some e =>
    obtain ⟨runnable, complete⟩ := Source.program_runnable parsed (h.target target).1 e rfl
    change Result.Safe (Result.reported e _)
    rw [Result.reported_of_complete complete]
    exact Machine.run_safe shipped sound' canon' inside' runnable world fuel

/-- The heaps between the evaluations of sources on one interpreter. Each
evaluation has a target that was made, or none, may be given up after any number
of dispatches, and starts in any world. -/
inductive Session {σ : Type} (host : Host σ) : Heap → Prop where
  | new : Session host Heap.initial
  | next {h : Heap} (session : Session host h) {source : Bytes} {program : Option Expr}
      (parsed : Source.parseProgram source = .ok program) {target : Option Ref}
      (inside : ∀ r ∈ target, r < h.size) (fuel : Nat) (world : σ) :
      Session host (evaluate host fuel h world target program).heap

theorem Session.sound {σ : Type} {host : Host σ} (shipped : host.natives = shippedRoutines)
    {h : Heap} (session : Session host h) : h.Sound ∧ Canon.globals < h.size := by
  induction session with
  | new => exact Heap.sound_initial
  | next _ parsed inside fuel world ih =>
    have safe := evaluate_safe shipped ih.1 ih.2 parsed inside fuel world
    exact ⟨safe.heap, safe.canon⟩

/-- Parsed programs never go wrong. Between evaluations the heap is sound; in an
evaluation every state is safe and a dispatch that stops it has an ordinary
cause; and what is reported is a box that was made, an ordinary failure, or that
the evaluation was given up. -/
theorem session_safe {σ : Type} {host : Host σ} (shipped : host.natives = shippedRoutines)
    {h : Heap} (session : Session host h) {source : Bytes} {program : Option Expr}
    (parsed : Source.parseProgram source = .ok program) {target : Option Ref}
    (inside : ∀ r ∈ target, r < h.size) (world : σ) :
    h.Sound ∧
    (∀ e ∈ program, ∀ n m,
      Machine.Steps host 0 n (.start (h.target target).1 world (h.target target).2 e) m →
        m.Safe ∧ ∀ halted place, m.step host = .error (halted, place) →
          halted.failure.Ordinary) ∧
    ∀ fuel, (evaluate host fuel h world target program).Safe := by
  obtain ⟨sound, canon⟩ := session.sound shipped
  obtain ⟨sound', later, inside'⟩ := Heap.target_sound sound inside
  refine ⟨sound, ?_, fun fuel => evaluate_safe shipped sound canon parsed inside fuel world⟩
  intro e isProgram n m steps
  have runnable := (Source.program_runnable parsed (h.target target).1 e isProgram).1
  have start : (Machine.start (h.target target).1 world (h.target target).2 e).Safe :=
    Machine.start_safe sound' (later.inside canon) inside' (.runnable runnable)
  refine ⟨(Machine.steps_safe shipped steps start).1, ?_⟩
  intro halted place failing
  have deep : 0 < m.frames.length := by
    obtain ⟨heap, world, values, frames⟩ := m
    cases frames with
    | nil => cases failing
    | cons => exact Nat.succ_pos _
  exact Machine.stops_ordinary shipped sound' (later.inside canon) inside' runnable world
    ⟨n, m, steps, deep, failing⟩

/-- One source defines a method, and the next one calls it. -/
theorem session_safe_call :
    (evaluate Host.plain 100
      (evaluate Host.plain 100 Heap.initial () (some Canon.globals)
        (some (.assign "f" (.method ["x"] (some (.name "x")))))).heap
      () (some Canon.globals) (some (.call (.name "f") (.list [.integer 2])))).Safe := by
  -- The bytes of `f=(x){x}` and of `f(2)`.
  have defines : Source.parseProgram [0x66, 0x3D, 0x28, 0x78, 0x29, 0x7B, 0x78, 0x7D] =
      .ok (some (.assign "f" (.method ["x"] (some (.name "x"))))) := rfl
  have calls : Source.parseProgram [0x66, 0x28, 0x32, 0x29] =
      .ok (some (.call (.name "f") (.list [.integer 2]))) := rfl
  have inside : ∀ {h : Heap}, Canon.globals < h.size → ∀ r ∈ some Canon.globals, r < h.size := by
    rintro h canon r ⟨⟩
    exact canon
  have session : Session Host.plain _ := .next .new defines (inside Heap.sound_initial.2) 100 ()
  exact (session_safe rfl session calls (inside (session.sound rfl).2) ()).2.2 100

end BoxScript
