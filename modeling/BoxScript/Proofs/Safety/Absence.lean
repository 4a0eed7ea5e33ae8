import BoxScript.Proofs.Heap.Nulls
import BoxScript.Proofs.Safety.Session

/-!
# Absent variables and null values

Binding a variable to a null value removes it, so no assignment leaves its own
variable with one. What the variable holds can become null later: an assignment
of `components` that list a null value makes its box null, and every box that
includes it, while the variables that hold them stay. These are the only
assignments that do so. In a session without them no variable of any box ever
holds a null value.
-/

set_option autoImplicit false

namespace BoxScript

/-! ## Tame runs -/

namespace Machine

variable {σ : Type} {host : Host σ}

/-- Whether the next dispatch leaves variables that hold no null value so. -/
def tame (m : Machine σ) : Bool :=
  match m.frames with
  | [] => true
  | f :: _ =>
    match m.binding? f with
    | none => true
    | some (r, x, v) => Canon.isSealed r || m.heap.harmless r x v

/-- Whether all dispatches of a run do. -/
def runTame (host : Host σ) (fuel : Nat) (m : Machine σ) : Bool :=
  if m.frames.isEmpty then true
  else if host.done m.world then true
  else match fuel with
    | 0 => true
    | fuel + 1 =>
      m.tame && match step host m with
        | .error _ => true
        | .ok m => runTame host fuel m

section Steps

variable {m : Machine σ} (safe : m.Safe) {f : Frame} {frames : List Frame}
  (newest : m.frames = f :: frames)

include safe newest

/-- A program that adds no routines to the language has no functions of its own
to call. -/
theorem Safe.no_hostCall (shipped : host.natives = shippedRoutines) {h : Heap} :
    ¬ HostCall host m f h := by
  rintro ⟨x, routine, key, -, kind, found, -⟩
  have evaluable := (safe.frames f (by simp [newest])).expr
  rw [kind] at evaluable
  cases evaluable with
  | runnable runnable =>
    cases runnable with
    | parsed parsed => cases parsed
    | native known =>
      obtain ⟨r, routine_, proper⟩ := known.routine
      rw [shipped, routine_] at found
      cases found
      exact proper

theorem Change.unspoiled (unspoiled : m.heap.Unspoiled) (tame : m.tame = true) {h : Heap}
    (change : Change m f h) : h.Unspoiled := by
  have sound := safe.heap
  cases change with
  | none => exact unspoiled
  | bind binds free =>
    rw [Machine.tame, newest] at tame
    simp only [binds, free, Bool.false_or] at tame
    exact unspoiled.assign free tame
  | bare method => exact unspoiled.bare sound method
  | list _ => exact unspoiled.newList sound _
  | value _ _ _ => exact unspoiled.newWith sound _ _
  | enter heldCallee heldBook getter params =>
    have scope := Heap.made_scope sound (safe.values _ heldCallee) (safe.values _ heldBook)
    exact (unspoiled.scope sound _ _).bindings scope.sound getter 0 params

end Steps

theorem heapAfter_unspoiled (shipped : host.natives = shippedRoutines) {m : Machine σ}
    (safe : m.Safe) (unspoiled : m.heap.Unspoiled) (tame : m.tame = true) :
    (heapAfter host m).Unspoiled := by
  cases newest : m.frames with
  | nil => rwa [heapAfter_nil host newest]
  | cons f frames =>
    rcases heapAfter_change host newest with change | call
    · exact change.unspoiled safe newest unspoiled tame
    · exact (safe.no_hostCall newest shipped call).elim

theorem run_unspoiled (shipped : host.natives = shippedRoutines) (fuel : Nat) {m : Machine σ}
    (safe : m.Safe) (unspoiled : m.heap.Unspoiled) (tame : runTame host fuel m = true) :
    (run host fuel m).heap.Unspoiled := by
  induction fuel generalizing m with
  | zero =>
    rw [run]
    split
    · exact unspoiled
    · split
      · exact unspoiled
      · exact unspoiled
  | succ fuel ih =>
    rw [runTame] at tame
    rw [run]
    split
    · exact unspoiled
    · next busy =>
      rw [if_neg busy] at tame
      split
      · exact unspoiled
      · next patient =>
        rw [if_neg patient, Bool.and_eq_true] at tame
        obtain ⟨now, later⟩ := tame
        -- The dispatch is tame, and so is what follows it if it does not stop.
        have after := heapAfter_unspoiled shipped safe unspoiled now
        have secured := step_secured shipped safe
        rw [heapAfter] at after
        cases next : step host m with
        | ok m' =>
          rw [next] at after secured later
          exact ih secured.1 after later
        | error error =>
          rw [next] at after
          simpa only [heap_stopped] using after

end Machine

/-! ## Tame sessions -/

theorem Heap.unspoiled_initial : Heap.initial.Unspoiled := by
  have size : Heap.initial.size = 31 := by decide +kernel
  refine ⟨Heap.sound_initial.2, rfl, fun r p member => ?_⟩
  have inside : r < 31 := by
    rw [← size]
    refine Nat.lt_of_not_le fun outside => ?_
    rw [Heap.box_of_le outside] at member
    cases member
  have all : ∀ r < 31, ∀ p ∈ (Heap.initial.box r).vars, Heap.initial.isNull p.2 = false := by
    decide +kernel
  exact all r inside p member

/-- The evaluation of a source in a session starts from a safe machine. -/
theorem Session.start_safe {σ : Type} {host : Host σ} (shipped : host.natives = shippedRoutines)
    {h : Heap} (session : Session host h) {source : Bytes} {program : Option Expr}
    (parsed : Source.parseProgram source = .ok program) {target : Option Ref}
    (inside : ∀ r ∈ target, r < h.size) (world : σ) {e : Expr} (isProgram : e ∈ program) :
    (Machine.start (h.target target).1 world (h.target target).2 e).Safe := by
  obtain ⟨sound, canon⟩ := session.sound shipped
  obtain ⟨sound', later, inside'⟩ := Heap.target_sound sound inside
  have runnable := (Source.program_runnable parsed (h.target target).1 e isProgram).1
  exact Machine.start_safe sound' (later.inside canon) inside' (.runnable runnable)

section Relations

variable {σ : Type} {host : Host σ} (shipped : host.natives = shippedRoutines)
  {R : Heap → Heap → Prop} (refl : ∀ h, R h h) (trans : ∀ {a b c}, R a b → R b c → R a c)
  (change : ∀ {m : Machine σ} {f h}, m.Safe → Machine.Change m f h → R m.heap h)

include shipped refl change

theorem Machine.Safe.heapAfter_related {m : Machine σ} (safe : m.Safe) :
    R m.heap (heapAfter host m) := by
  cases newest : m.frames with
  | nil =>
    rw [heapAfter_nil host newest]
    exact refl _
  | cons f frames =>
    rcases heapAfter_change host newest with changed | call
    · exact change safe changed
    · exact (safe.no_hostCall newest shipped call).elim

include trans

/-- What every change of a safe machine's heap does, and the making of a target,
is done by a session. -/
theorem Session.related (target : ∀ h : Heap, Canon.globals < h.size → R h (h.push {})) {h : Heap}
    (session : Session host h) : R Heap.initial h := by
  induction session with
  | new => exact refl _
  | @next h earlier source program parsed target' inside fuel world ih =>
    have start : R Heap.initial (h.target target').1 := by
      cases target' with
      | some r => exact ih
      | none => exact trans ih (target h (earlier.sound shipped).2)
    cases program with
    | none => exact start
    | some e =>
      have again : ∀ m m' : Machine σ, m.Safe → m.step host = .ok m' → m'.Safe := by
        intro m m' safe next
        have secured := Machine.step_secured shipped safe
        rw [next] at secured
        exact secured.1
      rw [heap_evaluate]
      exact trans start (Machine.run_related refl trans
        (fun m safe => safe.heapAfter_related shipped refl change) again fuel
        (earlier.start_safe shipped parsed inside world rfl))

end Relations

/-- The heaps between evaluations of which none gives null components to a box
that a variable holds, or that such a box includes. -/
inductive TameSession {σ : Type} (host : Host σ) : Heap → Prop where
  | new : TameSession host Heap.initial
  | next {h : Heap} (session : TameSession host h) {source : Bytes} {program : Option Expr}
      (parsed : Source.parseProgram source = .ok program) {target : Option Ref}
      (inside : ∀ r ∈ target, r < h.size) (fuel : Nat) (world : σ)
      (tame : ∀ e ∈ program,
        Machine.runTame host fuel (.start (h.target target).1 world (h.target target).2 e) = true) :
      TameSession host (evaluate host fuel h world target program).heap

namespace TameSession

variable {σ : Type} {host : Host σ} {h : Heap}

theorem session (tame : TameSession host h) : Session host h := by
  induction tame with
  | new => exact .new
  | next _ parsed inside fuel world _ ih => exact .next ih parsed inside fuel world

theorem unspoiled (shipped : host.natives = shippedRoutines) (tame : TameSession host h) :
    h.Unspoiled := by
  induction tame with
  | new => exact Heap.unspoiled_initial
  | @next h earlier source program parsed target inside fuel world tame ih =>
    have start : (h.target target).1.Unspoiled := by
      cases target with
      | some r => exact ih
      | none => exact ih.bare (earlier.session.sound shipped).1 none
    cases program with
    | none => exact start
    | some e =>
      rw [heap_evaluate]
      exact Machine.run_unspoiled shipped fuel
        (earlier.session.start_safe shipped parsed inside world rfl) start (tame e rfl)

end TameSession

/-- In a session that gives no null components to boxes that variables hold,
absent and null are the same thing: no variable of any box holds a null value.
Such a session may still make null boxes. -/
theorem not_isNull_of_bound {σ : Type} {host : Host σ} (shipped : host.natives = shippedRoutines)
    {h : Heap} (session : TameSession host h) {r v : Ref} {x : String}
    (bound : h.get? r x = some v) : h.isNull v = false := by
  obtain ⟨front, back, vars, -⟩ := List.lookup_eq_some_iff.mp bound
  exact (session.unspoiled shipped).vars r (x, v) (by rw [vars]; simp)

/-- The program `a={components=(null)};b={c=1}`, which makes a null box and binds
another one. -/
def Expr.nullUnbound : Expr := .sequence
  [.assign "a" (.box (some (.assign "components" (.list [.name "null"])))),
    .assign "b" (.box (some (.assign "c" (.integer 1))))]

/-- The null box is not bound to `a`, and the box that is bound to `b` is not
null. -/
theorem not_isNull_of_bound_box :
    ∃ h v, TameSession Host.plain h ∧ h.get? Canon.globals "a" = none ∧
      h.get? Canon.globals "b" = some v ∧ h.isNull v = false := by
  have parsed : Source.parseProgram
      [0x61, 0x3D, 0x7B, 0x63, 0x6F, 0x6D, 0x70, 0x6F, 0x6E, 0x65, 0x6E, 0x74, 0x73, 0x3D, 0x28,
        0x6E, 0x75, 0x6C, 0x6C, 0x29, 0x7D, 0x3B, 0x62, 0x3D, 0x7B, 0x63, 0x3D, 0x31, 0x7D] =
      .ok (some .nullUnbound) := rfl
  have inside : ∀ r ∈ some Canon.globals, r < Heap.initial.size := by decide +kernel
  have tame : ∀ e ∈ some Expr.nullUnbound, Machine.runTame Host.plain 100
      (.start (Heap.initial.target (some Canon.globals)).1 ()
        (Heap.initial.target (some Canon.globals)).2 e) = true := by decide +kernel
  have session : TameSession Host.plain _ := .next .new parsed inside 100 () tame
  have bound : (evaluate Host.plain 100 Heap.initial () (some Canon.globals)
      (some .nullUnbound)).heap.get? Canon.globals "b" = some 34 := by decide +kernel
  exact ⟨_, _, session, by decide +kernel, bound, not_isNull_of_bound rfl session bound⟩

/-- The program `a={};a.components=(null)`, which gives null components to a box
that it has bound. -/
def Expr.nullBound : Expr := .sequence
  [.assign "a" (.box none), .assignMember (.name "a") "components" (.list [.name "null"])]

/-- After it the variable `a` holds a null value. -/
theorem exists_bound_null :
    ∃ h v, Session Host.plain h ∧ h.get? Canon.globals "a" = some v ∧ h.isNull v = true := by
  have parsed : Source.parseProgram
      [0x61, 0x3D, 0x7B, 0x7D, 0x3B, 0x61, 0x2E, 0x63, 0x6F, 0x6D, 0x70, 0x6F, 0x6E, 0x65, 0x6E,
        0x74, 0x73, 0x3D, 0x28, 0x6E, 0x75, 0x6C, 0x6C, 0x29] = .ok (some .nullBound) := rfl
  have inside : ∀ r ∈ some Canon.globals, r < Heap.initial.size := by decide +kernel
  have bound : (evaluate Host.plain 100 Heap.initial () (some Canon.globals)
      (some .nullBound)).heap.get? Canon.globals "a" = some 31 := by decide +kernel
  exact ⟨_, _, .next .new parsed inside 100 (), bound, by decide +kernel⟩

end BoxScript
