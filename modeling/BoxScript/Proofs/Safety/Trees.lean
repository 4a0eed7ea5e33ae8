import BoxScript.Machine.Trace
import BoxScript.Proofs.Machine.Cancellation
import BoxScript.Proofs.Safety.Endurance
import BoxScript.Proofs.Safety.Session

/-!
# Holes and foreign kinds in trees

A hole or an expression of a foreign kind fails when it is dispatched, like any
other expression without a value. Only telling of it can go wrong: a failure is
reported with the text of the whole program, and a traced dispatch is noted with
the text of its expression, and what has a hole in it has no text.

So if all promises to evaluation are kept, an evaluation ends for good exactly
if it fails and the program has a hole, and a traced one at the first dispatch
of an expression with a hole. Where no expression is missing, neither happens,
and tracing changes nothing.
-/

set_option autoImplicit false

namespace BoxScript

/-! ## Complete trees -/

namespace Expr

mutual

theorem complete_of_no_hole : ∀ e : Expr, ¬ Occurs .hole e → e.complete = true
  | .hole, absent => absurd .here absent
  | .sequence es, absent =>
    completeAll_of_no_hole es fun e member inside => absent (.inside member inside)
  | .list items, absent =>
    completeAll_of_no_hole items fun e member inside => absent (.inside member inside)
  | .box body, absent => completeBody_of_no_hole body fun e member inside =>
    absent (.inside (Option.mem_toList.mpr member) inside)
  | .method _ body, absent => completeBody_of_no_hole body fun e member inside =>
    absent (.inside (Option.mem_toList.mpr member) inside)
  | .member target _, absent => complete_of_no_hole target fun inside =>
    absent (.inside (List.mem_singleton_self target) inside)
  | .assign _ value, absent => complete_of_no_hole value fun inside =>
    absent (.inside (List.mem_singleton_self value) inside)
  | .assignMember target x value, absent => by
    have first := complete_of_no_hole target fun inside =>
      absent (.inside (by simp [parts]) inside)
    have second := complete_of_no_hole value fun inside =>
      absent (.inside (by simp [parts]) inside)
    rw [complete, first, second]
    rfl
  | .call target argument, absent => by
    have first := complete_of_no_hole target fun inside =>
      absent (.inside (by simp [parts]) inside)
    have second := complete_of_no_hole argument fun inside =>
      absent (.inside (by simp [parts]) inside)
    rw [complete, first, second]
    rfl
  | .name _, _ | .text _, _ | .integer _, _ | .real _, _ | .native _ _, _ | .held _, _
  | .foreign _ _, _ => rfl

theorem completeAll_of_no_hole : ∀ es : List Expr, (∀ e ∈ es, ¬ Occurs .hole e) →
    completeAll es = true
  | [], _ => rfl
  | e :: es, absent => by
    rw [completeAll, complete_of_no_hole e (absent e (by simp)),
      completeAll_of_no_hole es fun f member => absent f (by simp [member])]
    rfl

theorem completeBody_of_no_hole : ∀ body : Option Expr, (∀ e ∈ body, ¬ Occurs .hole e) →
    completeBody body = true
  | none, _ => rfl
  | some e, absent => complete_of_no_hole e (absent e rfl)

end

/-- Where no expression is missing, every tree has a text. -/
theorem Sturdy.complete {p : Promise} {h : Heap} {e : Expr} (whole : p.whole = true)
    (sturdy : e.Sturdy p h) : e.complete = true := by
  refine complete_of_no_hole e fun hole => ?_
  have missing : p.whole = false := sturdy .hole hole
  rw [whole] at missing
  cases missing

/-- The name of the kind of an expression that cannot be evaluated. -/
def unknown? : Expr → Option String
  | .hole => some "<nil>"
  | .foreign kind _ => some kind
  | _ => none

end Expr

namespace Machine

variable {σ : Type} {p : Promise} {host : Host σ}

/-! ## Dispatches -/

/-- The frames that a run dispatches, each with the state in which it is its turn. -/
def Dispatches (host : Host σ) (fuel : Nat) (m last : Machine σ) (f : Frame) : Prop :=
  ∃ n < fuel, Steps host 0 n m last ∧ Unasked host m (n + 1) ∧ last.frames.head? = some f

section Dispatches

variable {fuel : Nat} {m next last : Machine σ} {f : Frame}

theorem Dispatches.cases (dispatches : Dispatches host (fuel + 1) m last f) :
    m.frames.head? = some f ∨
      ∃ next, step host m = .ok next ∧ Dispatches host fuel next last f := by
  obtain ⟨n, less, steps, unasked, newest⟩ := dispatches
  cases steps with
  | stay => exact .inl newest
  | @dispatch n _ next _ deep one rest =>
    exact .inr ⟨next, one, n, Nat.lt_of_succ_lt_succ less, rest, unasked.next deep one, newest⟩

/-- A run that dispatches a frame is not over yet. -/
theorem Dispatches.busy (dispatches : Dispatches host fuel m last f) :
    0 < fuel ∧ m.frames ≠ [] ∧ host.done m.world = false := by
  obtain ⟨n, less, steps, unasked, newest⟩ := dispatches
  refine ⟨Nat.zero_lt_of_lt less, ?_, unasked 0 (Nat.succ_pos n) m (.stay m)⟩
  intro none
  obtain ⟨-, rfl⟩ := steps.of_shallow (Nat.le_of_eq (by rw [none]; rfl))
  rw [none] at newest
  cases newest

theorem Dispatches.sturdy (friendly : host.Sturdy p) (sturdy : m.Sturdy p)
    (dispatches : Dispatches host fuel m last f) : f.Sturdy p last.heap := by
  obtain ⟨n, -, steps, -, newest⟩ := dispatches
  exact (sturdy.steps friendly steps).frames f (List.mem_of_head? newest)

theorem dispatches_now (newest : m.frames.head? = some f) (unasked : host.done m.world = false) :
    Dispatches host (fuel + 1) m m f := by
  refine ⟨0, Nat.succ_pos fuel, .stay m, fun k less between steps => ?_, newest⟩
  obtain rfl : k = 0 := by omega
  cases steps
  exact unasked

theorem Dispatches.later (deep : 0 < m.frames.length) (unasked : host.done m.world = false)
    (one : step host m = .ok next) (dispatches : Dispatches host fuel next last f) :
    Dispatches host (fuel + 1) m last f := by
  obtain ⟨n, less, steps, rest, newest⟩ := dispatches
  exact ⟨n + 1, Nat.succ_lt_succ less, .dispatch deep one steps, .cons unasked one rest, newest⟩

/-- A hole and an expression of a foreign kind fail when it is their turn. -/
theorem step_unknown (newest : m.frames.head? = some f) {kind : String}
    (unknown : f.expr.unknown? = some kind) :
    step host m = .error (⟨.cause (.unknownNode kind), m.heap, m.world⟩, f.expr) := by
  obtain ⟨heap, world, values, frames⟩ := m
  cases frames with
  | nil => cases newest
  | cons g frames =>
    cases newest
    obtain ⟨target, e, n, floor, method⟩ := f
    cases e with
    | foreign kind shown =>
      cases unknown
      rfl
    | hole =>
      cases unknown
      rfl
    | _ => cases unknown

theorem run_unknown (dispatches : Dispatches host fuel m last f) {kind : String}
    (unknown : f.expr.unknown? = some kind) :
    run host fuel m = ⟨.failed ⟨f.expr, .unknownNode kind⟩, last.heap, last.world⟩ := by
  obtain ⟨n, less, steps, unasked, newest⟩ := dispatches
  have deep : 0 < last.frames.length := by
    obtain ⟨frames, same⟩ := List.head?_eq_some_iff.mp newest
    rw [same]
    exact Nat.succ_pos _
  exact (takes_of_failing steps unasked deep (step_unknown newest unknown)).enough fuel less

end Dispatches

/-! ## Tracing -/

section Tracing

variable {m : Machine σ} {f : Frame} {frames : List Frame} (notes : List TraceRow) (fuel : Nat)

/-- A run that is over is not traced any further. -/
theorem runTraced_over (ended : m.frames = [] ∨ host.done m.world = true) :
    (runTraced host notes fuel m).2 = run host fuel m := by
  rw [runTraced.eq_def, run.eq_def]
  split
  · rfl
  · next left =>
    rcases ended with none | asked
    · exact absurd (List.isEmpty_iff.mpr none) left
    · rw [if_pos asked, if_pos asked]

variable (newest : m.frames = f :: frames) (unasked : host.done m.world = false)

include newest unasked

theorem runTraced_incomplete (incomplete : f.expr.complete = false) :
    (runTraced host notes (fuel + 1) m).2.outcome = .fatal := by
  rw [runTraced, if_neg (by simp [newest]), if_neg (by simp [unasked])]
  simp only [row?, newest, incomplete]
  rfl

theorem runTraced_complete (complete : f.expr.complete = true) :
    ∃ row, runTraced host notes (fuel + 1) m =
      match step host m with
      | .error (halted, e) => ((row :: notes).reverse, stopped halted e)
      | .ok next => runTraced host (row :: notes) fuel next := by
  have noted : ∃ row, m.row? = some row := by
    simp only [row?, newest, complete]
    exact ⟨_, rfl⟩
  obtain ⟨row, noted⟩ := noted
  refine ⟨row, ?_⟩
  rw [runTraced, if_neg (by simp [newest]), if_neg (by simp [unasked])]
  cases step host m with
  | error error => simp only [noted]
  | ok next => simp only [noted]

end Tracing

/-- A traced run dispatches an expression without a text, and ends there for good,
or it comes to the same as any run. -/
theorem runTraced_cases (host : Host σ) (notes : List TraceRow) (fuel : Nat) (m : Machine σ) :
    (runTraced host notes fuel m).2.outcome = .fatal ∧
      (∃ last f, Dispatches host fuel m last f ∧ f.expr.complete = false) ∨
    (runTraced host notes fuel m).2 = run host fuel m ∧
      ∀ last f, Dispatches host fuel m last f → f.expr.complete = true := by
  induction fuel generalizing notes m with
  | zero =>
    refine .inr ⟨?_, fun last f dispatches => absurd dispatches.busy.1 (Nat.lt_irrefl 0)⟩
    rw [runTraced, run]
    split
    · rfl
    · split <;> rfl
  | succ fuel ih =>
    by_cases ended : m.frames = [] ∨ host.done m.world = true
    · refine .inr ⟨runTraced_over notes _ ended, fun last f dispatches => ?_⟩
      rcases ended with none | asked
      · exact absurd none dispatches.busy.2.1
      · rw [dispatches.busy.2.2] at asked
        cases asked
    · rw [not_or, Bool.not_eq_true] at ended
      obtain ⟨f, frames, newest⟩ := List.exists_cons_of_ne_nil ended.1
      have deep : 0 < m.frames.length := List.length_pos_iff.mpr ended.1
      have first : m.frames.head? = some f := by rw [newest]; rfl
      cases complete : f.expr.complete with
      | false =>
        exact .inl ⟨runTraced_incomplete notes fuel newest ended.2 complete,
          m, f, dispatches_now first ended.2, complete⟩
      | true =>
        obtain ⟨row, traced⟩ := runTraced_complete notes fuel newest ended.2 complete
        rw [traced, run_of_unasked deep ended.2]
        cases one : step host m with
        | error error =>
          refine .inr ⟨rfl, fun last g dispatches => ?_⟩
          rcases dispatches.cases with now | ⟨next, going, -⟩
          · rw [← Option.some.inj (first.symm.trans now)]
            exact complete
          · rw [one] at going
            cases going
        | ok next =>
          rcases ih (row :: notes) next with ⟨fatal, last, g, dispatches, hole⟩ | ⟨same, all⟩
          · exact .inl ⟨fatal, last, g, dispatches.later deep ended.2 one, hole⟩
          · refine .inr ⟨same, fun last g dispatches => ?_⟩
            rcases dispatches.cases with now | ⟨next', going, dispatches⟩
            · rw [← Option.some.inj (first.symm.trans now)]
              exact complete
            · rw [one] at going
              cases going
              exact all last g dispatches

end Machine

/-! ## Interpreters without functions of their own -/

theorem Expr.Sturdy.ofList {p : Promise} {h : Heap} {es : List Expr}
    (all : ∀ e ∈ es, e.Sturdy p h) : ∀ body ∈ Expr.ofList es, body.Sturdy p h := by
  intro body folded
  match es, folded with
  | [e], rfl => exact all e (by simp)
  | _ :: _ :: _, rfl => exact .of_parts trivial all

/-- There is nothing to be promised of what is read from a source. -/
theorem Source.Parsed.sturdy {p : Promise} {h : Heap} {e : Expr} (parsed : Source.Parsed e) :
    e.Sturdy p h := by
  induction parsed with
  | name _ | text _ | integer _ | real _ => exact .of_parts trivial nofun
  | member _ _ ih | assign _ _ ih =>
    exact .of_parts trivial (by simpa [Expr.parts] using ih)
  | assignMember _ _ _ ihTarget ihValue =>
    exact .of_parts trivial (by simpa [Expr.parts] using ⟨ihTarget, ihValue⟩)
  | call _ _ ihTarget ihItems =>
    have items := Expr.Sturdy.of_parts (p := p) (h := h) (e := .list _) trivial ihItems
    exact .of_parts trivial (by simpa [Expr.parts] using ⟨ihTarget, items⟩)
  | box folded _ ih | method _ folded _ ih =>
    refine .of_parts trivial fun body part => Expr.Sturdy.ofList ih body ?_
    rw [← folded]
    exact Option.mem_toList.mp part
  | list _ ih => exact .of_parts trivial ih

/-- A sound heap keeps all promises. -/
theorem Heap.Sound.sturdy {p : Promise} {h : Heap} (sound : h.Sound) : h.Sturdy p := by
  intro r
  refine ⟨fun items isList missing => ?_, fun method own => ?_⟩
  · obtain ⟨v, isSome, -⟩ := (sound.box r).items items isList none missing
    cases isSome
  · cases (sound.box r).method method own with
    | parsed folded all =>
      exact ⟨fun e body => Expr.Sturdy.ofList (fun e member => (all e member).sturdy) e
        (folded ▸ body), nofun⟩
    | native known =>
      refine ⟨?_, fun _ => rfl⟩
      rintro e ⟨⟩
      cases known with
      | item _ payload => exact .of_parts ⟨_, payload⟩ nofun
      | entry _ payload => exact .of_parts ⟨_, payload⟩ nofun
      | shipped _ => exact .of_parts trivial nofun

theorem Host.sturdy_plain (whole : Bool) : Host.plain.Sturdy ⟨fun _ => False, whole⟩ where
  natives x routine found h := by
    have safe : routine.Safe h := Routine.safe_shipped found
    cases routine with
    | host key => exact safe
    | item list => exact safe
    | entry dictionary => exact safe
    | _ => exact trivial
  keeps key args h world known := known.elim
  answers key args h world known := known.elim

/-! ## Evaluations -/

namespace Result

variable {σ : Type} {e : Expr}

theorem reported_failed (error : EvalError) (h : Heap) (world : σ) :
    (⟨.failed error, h, world⟩ : Result σ).reported e =
      ⟨if e.complete then .failed error else .fatal, h, world⟩ := by
  cases complete : e.complete <;> simp [reported, complete]

theorem outcome_reported_fatal_iff {r : Result σ} :
    (r.reported e).outcome = .fatal ↔
      r.outcome = .fatal ∨ e.complete = false ∧ ∃ error, r.outcome = .failed error := by
  obtain ⟨outcome, heap, world⟩ := r
  cases outcome with
  | failed error =>
    rw [reported_failed]
    cases e.complete <;> simp
  | _ => simp [reported]

end Result

section Evaluations

variable {σ : Type} {p : Promise} {host : Host σ}

/-- Where all promises are kept, a hole or an expression of a foreign kind makes
an evaluation fail when it is dispatched, and the failure is reported with it.
Nothing ends an evaluation for good but the report on a program with a hole, and
nothing ends a traced one but that and the note on an expression with a hole. If
it does not end so, a traced evaluation has the result of any other, and where no
expression is missing, no evaluation ends so. -/
theorem evaluation_fatal_only_for_holes (friendly : host.Sturdy p) {h : Heap}
    (sturdy : h.Sturdy p) {e : Expr} (tree : e.Sturdy p h) (target : Option Ref) (world : σ)
    (fuel : Nat) :
    let start := Machine.start (h.target target).1 world (h.target target).2 e
    let result := evaluate host fuel h world target (some e)
    let traced := (evaluateTraced host fuel h world target (some e)).2
    (result.outcome = .fatal ↔
      e.complete = false ∧ ∃ error, (Machine.run host fuel start).outcome = .failed error) ∧
    (∀ m f kind, Machine.Dispatches host fuel start m f → f.expr.unknown? = some kind →
      result = ⟨if e.complete then .failed ⟨f.expr, .unknownNode kind⟩ else .fatal,
        m.heap, m.world⟩) ∧
    (traced.outcome = .fatal ↔ result.outcome = .fatal ∨
      ∃ m f, Machine.Dispatches host fuel start m f ∧ f.expr.complete = false) ∧
    (traced.outcome ≠ .fatal → traced = result) ∧
    (p.whole = true → e.complete = true ∧ result.outcome ≠ .fatal ∧ traced = result) := by
  intro start result traced
  have isResult : result = (Machine.run host fuel start).reported e := rfl
  have isTraced : traced = (Machine.runTraced host [] fuel start).2.reported e := rfl
  have kept : start.Sturdy p :=
    Machine.sturdy_start (sturdy.target target) (tree.mono (h.extends_target target).serves) _ _
  have spared := Machine.run_spared friendly kept fuel
  have fatal : result.outcome = .fatal ↔
      e.complete = false ∧ ∃ error, (Machine.run host fuel start).outcome = .failed error := by
    rw [isResult, Result.outcome_reported_fatal_iff, or_iff_right spared]
  have cases : traced.outcome = .fatal ∧
        (∃ m f, Machine.Dispatches host fuel start m f ∧ f.expr.complete = false) ∨
      traced = result ∧ ∀ m f, Machine.Dispatches host fuel start m f → f.expr.complete = true := by
    rcases Machine.runTraced_cases host [] fuel start with ⟨ends, hole⟩ | ⟨same, all⟩
    · exact .inl ⟨Result.outcome_reported_fatal_iff.mpr (.inl ends), hole⟩
    · exact .inr ⟨congrArg (Result.reported e) same, all⟩
  refine ⟨fatal, ?_, ?_, ?_, ?_⟩
  · intro m f kind dispatches unknown
    rw [isResult, Machine.run_unknown dispatches unknown, Result.reported_failed]
  · rcases cases with ⟨ends, hole⟩ | ⟨same, all⟩
    · exact iff_of_true ends (.inr hole)
    · rw [same, iff_self_or]
      rintro ⟨m, f, dispatches, hole⟩
      rw [all m f dispatches] at hole
      cases hole
  · intro goesOn
    rcases cases with ⟨ends, -⟩ | ⟨same, -⟩
    · exact absurd ends goesOn
    · exact same
  · intro whole
    have complete := tree.complete whole
    refine ⟨complete, ?_, ?_⟩
    · rw [ne_eq, fatal, complete]
      nofun
    · rcases cases with ⟨-, m, f, dispatches, hole⟩ | ⟨same, -⟩
      · rw [(dispatches.sturdy friendly kept).expr.complete whole] at hole
        cases hole
      · exact same

end Evaluations

/-- An assignment before an expression of a foreign kind. -/
theorem evaluation_fatal_only_for_holes_foreign :
    let e : Expr := .sequence [.assign "x" (.integer 1), .foreign "main.odd" "odd"]
    let result := evaluate Host.plain 9 Heap.initial () (some Canon.globals) (some e)
    e.complete = true ∧ result.outcome ≠ .fatal ∧
      (evaluateTraced Host.plain 9 Heap.initial () (some Canon.globals) (some e)).2 = result := by
  intro e result
  let p : Promise := ⟨fun _ => False, true⟩
  have one : (Expr.integer 1).Sturdy p Heap.initial := .of_parts trivial nofun
  have odd : (Expr.foreign "main.odd" "odd").Sturdy p Heap.initial := .of_parts trivial nofun
  have assigns : (Expr.assign "x" (.integer 1)).Sturdy p Heap.initial :=
    .of_parts trivial (by simpa [Expr.parts] using one)
  have tree : e.Sturdy p Heap.initial :=
    .of_parts trivial (by simpa [e, Expr.parts] using ⟨assigns, odd⟩)
  exact (evaluation_fatal_only_for_holes (Host.sturdy_plain true) Heap.sound_initial.1.sturdy tree
    (some Canon.globals) () 9).2.2.2.2 rfl

/-- A sequence with a hole ends its evaluation for good. A method with such a body
can be made, but not under trace. -/
theorem hole_ends_evaluation :
    (evaluate Host.plain 9 Heap.initial () (some Canon.globals) (some (.sequence [.hole]))).outcome
      = .fatal ∧
    (∃ r, (evaluate Host.plain 9 Heap.initial () (some Canon.globals)
      (some (.method [] (some (.sequence [.hole]))))).outcome = .value r) ∧
    (evaluateTraced Host.plain 9 Heap.initial () (some Canon.globals)
      (some (.method [] (some (.sequence [.hole]))))).2.outcome = .fatal :=
  ⟨rfl, ⟨_, rfl⟩, rfl⟩

end BoxScript
