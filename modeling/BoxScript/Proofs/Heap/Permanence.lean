import BoxScript.Proofs.Machine.Effects

/-!
# What evaluation never changes

A box keeps its payload and its method for good; only its variables change. The
boxes that are sealed keep their variables too. Programs and targets are
arbitrary here, the sealed boxes among them, and an evaluation may end in any
way. All that is asked of the embedding program is that its own functions
change no box; they may make new ones.
-/

set_option autoImplicit false

namespace BoxScript

/-- The functions of the embedding program change no box. -/
def Host.Mild {σ : Type} (host : Host σ) : Prop :=
  ∀ key args (h : Heap) world, h.Keeps (host.call key args h world).heap

namespace Heap

/-- A later state of a heap, in which the sealed boxes have the variables that
they had. -/
structure Respects (h h' : Heap) : Prop extends h.Extends h' where
  vars : ∀ r, Canon.isSealed r = true → (h'.box r).vars = (h.box r).vars

variable {h h' h'' : Heap}

theorem Respects.refl (h : Heap) : h.Respects h := ⟨.refl h, fun _ _ => rfl⟩

theorem Respects.trans (first : h.Respects h') (second : h'.Respects h'') : h.Respects h'' :=
  ⟨first.toExtends.trans second.toExtends, fun r isSealed =>
    (second.vars r isSealed).trans (first.vars r isSealed)⟩

/-- The sealed boxes are among those that every heap starts with. -/
theorem lt_globals_of_isSealed {r : Ref} (isSealed : Canon.isSealed r = true) :
    r < Canon.globals := by
  simp only [Canon.isSealed, Bool.or_eq_true, beq_iff_eq] at isSealed
  rcases isSealed with ((rfl | rfl) | rfl) | rfl <;> decide

theorem Keeps.respects (keeps : h.Keeps h') (canon : Canon.globals < h.size) : h.Respects h' := by
  refine ⟨keeps.later, fun r isSealed => ?_⟩
  rw [keeps.same r (Nat.lt_trans (lt_globals_of_isSealed isSealed) canon)]

theorem respects_assign (h : Heap) {r : Ref} (free : Canon.isSealed r = false) (x : String)
    (v : Ref) : h.Respects (h.assign r x v) := by
  refine ⟨h.extends_assign r x v, fun q isSealed => ?_⟩
  have other : q ≠ r := by
    rintro rfl
    rw [free] at isSealed
    cases isSealed
  rw [box_assign_of_ne other]

end Heap

/-! ## Dispatches and runs -/

namespace Machine

variable {σ : Type} {host : Host σ}

/-- Every change respects the heap: it binds a variable of a box that is not
sealed, or only makes boxes. -/
theorem Change.respects {m : Machine σ} {f : Frame} {h : Heap}
    (canon : Canon.globals < m.heap.size) (change : Change m f h) : m.heap.Respects h := by
  cases change with
  | none => exact .refl _
  | bind _ free => exact m.heap.respects_assign free _ _
  | bare method => exact (Heap.keeps_push _ _).respects canon
  | list _ => exact (Heap.keeps_newList _ _).respects canon
  | value _ _ _ => exact (Heap.keeps_newWith _ _ _).respects canon
  | enter _ _ getter params =>
    exact ((Heap.keeps_scope _ _ _).trans (Heap.keeps_bindings _ getter 0 params)).respects canon

theorem heapAfter_respects (mild : host.Mild) (m : Machine σ)
    (canon : Canon.globals < m.heap.size) : m.heap.Respects (heapAfter host m) := by
  cases newest : m.frames with
  | nil =>
    rw [heapAfter_nil host newest]
    exact .refl _
  | cons f frames =>
    rcases heapAfter_change host newest with change | ⟨x, routine, key, args, -, -, left⟩
    · exact change.respects canon
    · rw [left]
      exact (mild key args m.heap m.world).respects canon

/-- Two points of one run, of which one may be its end. -/
theorem run_respects (mild : host.Mild) {k n : Nat} (le : k ≤ n) {m : Machine σ}
    (canon : Canon.globals < m.heap.size) :
    m.heap.Respects (run host k m).heap ∧ (run host k m).heap.Respects (run host n m).heap := by
  have again : ∀ m m' : Machine σ, Canon.globals < m.heap.size → step host m = .ok m' →
      Canon.globals < m'.heap.size := by
    intro m m' canon next
    have after := heapAfter_respects mild m canon
    rw [heapAfter, next] at after
    exact after.inside canon
  exact ⟨run_related .refl .trans (heapAfter_respects mild) again k canon,
    run_related_of_le .refl .trans (heapAfter_respects mild) again le canon⟩

end Machine

/-! ## Evaluations one after another -/

/-- An evaluation of a program, with what it starts from and how many dispatches
it may take. -/
structure Evaluation (σ : Type) where
  program : Option Expr
  target : Option Ref
  world : σ
  fuel : Nat

/-- The heap after evaluations on one interpreter. -/
def Heap.after {σ : Type} (host : Host σ) (h : Heap) : List (Evaluation σ) → Heap
  | [] => h
  | e :: es => Heap.after host (evaluate host e.fuel h e.world e.target e.program).heap es

theorem Heap.after_append {σ : Type} (host : Host σ) (h : Heap) (es fs : List (Evaluation σ)) :
    h.after host (es ++ fs) = (h.after host es).after host fs := by
  induction es generalizing h with
  | nil => rfl
  | cons e es ih => exact ih _

section Evaluations

variable {σ : Type} {host : Host σ} (mild : host.Mild) {h : Heap} (canon : Canon.globals < h.size)

include mild canon

theorem evaluate_respects {k n : Nat} (le : k ≤ n) (world : σ) (target : Option Ref)
    (program : Option Expr) :
    h.Respects (evaluate host k h world target program).heap ∧
      (evaluate host k h world target program).heap.Respects
        (evaluate host n h world target program).heap := by
  have made : h.Respects (h.target target).1 := by
    cases target with
    | some r => exact .refl h
    | none => exact (h.keeps_push {}).respects canon
  cases program with
  | none => exact ⟨made, .refl _⟩
  | some e =>
    obtain ⟨start, rest⟩ := Machine.run_respects
      (m := Machine.start (h.target target).1 world (h.target target).2 e) mild le
      (made.inside canon)
    rw [heap_evaluate, heap_evaluate]
    exact ⟨made.trans start, rest⟩

theorem Heap.after_respects (es : List (Evaluation σ)) : h.Respects (h.after host es) := by
  induction es generalizing h with
  | nil => exact .refl h
  | cons e es ih =>
    obtain ⟨first, -⟩ :=
      evaluate_respects mild canon (Nat.le_refl e.fuel) e.world e.target e.program
    exact first.trans (ih (first.inside canon))

end Evaluations

/-- Only variables change, and not those of the sealed boxes. Take any two
points of any sequence of evaluations, the earlier one after `k` dispatches of
the evaluation `now`: every box that is there at the earlier point has the same
payload and method at the later one, and so has every box that was there before
the evaluation. The sealed boxes have the variables of a new interpreter. -/
theorem only_variables_change {σ : Type} {host : Host σ} (mild : host.Mild)
    (before after : List (Evaluation σ)) (now : Evaluation σ) {k n : Nat} (le : k ≤ n) :
    let start := Heap.initial.after host before
    let earlier := Heap.initial.after host (before ++ [{ now with fuel := k }])
    let later := Heap.initial.after host (before ++ { now with fuel := n } :: after)
    start.Extends earlier ∧ earlier.Extends later ∧
      ∀ r ∈ [Canon.nullValue, Canon.trueValue, Canon.falseValue, Canon.listTag],
        (earlier.box r).vars = (Heap.initial.box r).vars ∧
          (later.box r).vars = (Heap.initial.box r).vars := by
  intro start earlier later
  have canon := Heap.sound_initial.2
  have past : Heap.initial.Respects start := Heap.after_respects mild canon before
  obtain ⟨first, second⟩ :=
    evaluate_respects mild (past.inside canon) le now.world now.target now.program
  have isEarlier : earlier = (evaluate host k start now.world now.target now.program).heap :=
    Heap.after_append host Heap.initial before _
  have isLater : later =
      (evaluate host n start now.world now.target now.program).heap.after host after :=
    Heap.after_append host Heap.initial before _
  rw [← isEarlier] at first second
  have middle := second.inside (first.inside (past.inside canon))
  have rest : earlier.Respects later := by
    rw [isLater]
    exact second.trans (Heap.after_respects mild middle after)
  have whole := past.trans first
  refine ⟨first.toExtends, rest.toExtends, fun r member => ?_⟩
  have isSealed : Canon.isSealed r = true := by
    simp only [List.mem_cons, List.not_mem_nil, or_false] at member
    rcases member with rfl | rfl | rfl | rfl <;> rfl
  exact ⟨whole.vars r isSealed, (whole.trans rest).vars r isSealed⟩

/-- An assignment to `true` as the target, given up or carried out, leaves it as
it was. -/
theorem only_variables_change_true :
    ((Heap.initial.after Host.plain
        [⟨some (.assign "x" (.integer 1)), some Canon.trueValue, (), 50⟩]).box
      Canon.trueValue).vars = (Heap.initial.box Canon.trueValue).vars := by
  have mild : Host.plain.Mild := fun _ _ h _ => .refl h
  have changes := only_variables_change mild [] []
    ⟨some (.assign "x" (.integer 1)), some Canon.trueValue, (), 0⟩ (by decide : 2 ≤ 50)
  exact (changes.2.2 Canon.trueValue (by decide)).2

end BoxScript
