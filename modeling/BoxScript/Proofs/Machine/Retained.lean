import BoxScript.Proofs.Machine.Simulation

/-!
# Frames that wait

A dispatch concerns the newest frame only: the frames below it are there
afterwards, as they were. So a chain of dispatches that stays above some frames
retains them, and a chain that comes down to them can be cut where it does.
-/

set_option autoImplicit false

namespace BoxScript.Machine

variable {σ : Type} {host : Host σ}

/-- What a dispatch leads to still has these frames at the bottom. -/
def Retains (below : List Frame) : Next σ → Prop
  | .ok m => below <:+ m.frames
  | .error _ => True

section Dispatches

variable {m : Machine σ} {newest f : Frame} {below : List Frame}

theorem Retains.push (target : Ref) (e : Expr) (retained : below <:+ m.frames) :
    Retains below (.ok (m.push target e)) :=
  retained.trans (List.suffix_cons _ _)

theorem Retains.withValue {next : Ref → Machine σ → Next σ}
    (retains : ∀ v values, Retains below (next v ⟨m.heap, m.world, values, m.frames⟩)) :
    Retains below (m.withValue next) := by
  rw [Machine.withValue]
  split
  · trivial
  · exact retains _ _

theorem Retains.store {r v : Ref} {x : String} (retained : below <:+ m.frames) :
    Retains below (m.store r x v) := by
  rw [Machine.store]
  split
  · trivial
  · exact retained

theorem Retains.bindParameters {scope book : Ref} {params : List String}
    (retained : below <:+ m.frames) : Retains below (m.bindParameters scope book params) := by
  rw [bindParameters.eq_def]
  split
  · exact retained
  · split
    · trivial
    · rw [pushBindings_eq]
      exact retained.trans (List.suffix_append _ _)

variable (top : m.frames = newest :: below)

include top

theorem retained_below : below <:+ m.frames := top ▸ List.suffix_cons _ _

theorem Retains.pop : Retains below (.ok m.pop) := by
  simp [Retains, Machine.pop, top]

theorem sequence_retains (es : List Expr) : Retains below (m.sequence f es) := by
  rw [sequence.eq_def]
  split
  · split
    · exact retained_below top
    · exact .pop top
  · split
    · exact .push _ _ (retained_below top)
    · exact .pop top

theorem name_retains (x : String) : Retains below (m.name f x) := by
  rw [name]
  split
  · split
    · exact retained_below top
    · trivial
  · exact .pop top

theorem member_retains (t : Expr) (x : String) : Retains below (m.member f t x) := by
  rw [member]
  split
  · exact .push _ _ (retained_below top)
  · refine .withValue fun v values => ?_
    split
    · exact retained_below top
    · trivial
  · exact .pop top

theorem assign_retains (x : String) (value : Expr) : Retains below (m.assign f x value) := by
  rw [assign]
  split
  · exact .push _ _ (retained_below top)
  · exact .withValue fun v values => .store (retained_below top)
  · exact .pop top

theorem assignMember_retains (t : Expr) (x : String) (value : Expr) :
    Retains below (m.assignMember f t x value) := by
  rw [assignMember]
  split
  · exact .push _ _ (retained_below top)
  · exact .push _ _ (retained_below top)
  · exact .withValue fun v values => .withValue fun r values => .store (retained_below top)
  · exact .pop top

theorem enter_retains (callee book : Ref) : Retains below (m.enter callee book) := by
  rw [enter]
  cases check : checkArguments (m.heap.scope callee book).1 (m.heap.method? callee) book with
  | error cause =>
    rw [openScope_error check]
    trivial
  | ok =>
    rw [openScope_ok check]
    refine .bindParameters ?_
    simp [setMethod, pushValue, top]

theorem call_retains (t argument : Expr) : Retains below (m.call f t argument) := by
  rw [call]
  split
  · exact .push _ _ (retained_below top)
  · exact .push _ _ (retained_below top)
  · refine .withValue fun book values => .withValue fun callee values => ?_
    exact enter_retains (m := ⟨m.heap, m.world, values, m.frames⟩) top callee book
  · refine .withValue fun scope values => ?_
    rw [runBody]
    split
    · exact retained_below top
    · exact .push _ _ (retained_below top)
  · exact .pop top

theorem box_retains (body : Option Expr) : Retains below (m.box f body) := by
  rw [box]
  split
  · cases body with
    | none => exact retained_below top
    | some e => exact .push _ _ (retained_below top)
  · exact retained_below top
  · exact .pop top

theorem method_retains (params : List String) (body : Option Expr) :
    Retains below (m.method f params body) := by
  rw [method]
  split
  · exact retained_below top
  · exact retained_below top
  · exact .pop top

theorem leaf_retains (value : Heap → Heap × Ref) : Retains below (m.leaf f value) := by
  rw [leaf]
  split
  · exact retained_below top
  · exact .pop top

theorem list_retains (items : List Expr) : Retains below (m.list f items) := by
  rw [list]
  split
  · exact .push _ _ (retained_below top)
  · split
    · exact retained_below top
    · exact .pop top

theorem native_retains (x : String) (routine : Option Routine) :
    Retains below (native host m f x routine) := by
  rw [native]
  split
  · split
    · trivial
    · next r _ =>
      cases reply : r.run host (m.heap.arguments f.target) m.heap m.world with
      | mk result heap world =>
        simp only [reply]
        cases result with
        | error failure => trivial
        | ok value => exact retained_below top
  · exact .pop top

/-- A dispatch of the newest frame, one kind of expression after the other. -/
theorem dispatch_retains : Retains below (dispatch host m f) := by
  rw [dispatch]
  split
  · exact sequence_retains top _
  · exact name_retains top _
  · exact member_retains top _ _
  · exact assign_retains top _ _
  · exact assignMember_retains top _ _ _
  · exact call_retains top _ _
  · exact box_retains top _
  · exact method_retains top _ _
  · exact leaf_retains top _
  · exact leaf_retains top _
  · exact leaf_retains top _
  · exact list_retains top _
  · exact native_retains top _ _
  · exact leaf_retains top _
  · trivial
  · trivial

end Dispatches

/-! ## Chains -/

theorem step_retains {m next : Machine σ} {below : List Frame} (one : step host m = .ok next)
    (retained : below <:+ m.frames) (deep : below.length < m.frames.length) :
    below <:+ next.frames := by
  obtain ⟨heap, world, values, frames⟩ := m
  cases frames with
  | nil => exact absurd deep (Nat.not_lt_zero _)
  | cons f frames =>
    have inside : below <:+ frames := by
      rcases List.suffix_cons_iff.mp retained with same | inside
      · rw [same] at deep
        exact absurd deep (Nat.lt_irrefl _)
      · exact inside
    have kept : Retains frames (dispatch host
        ⟨heap, world, values, { f with step := f.step + 1 } :: frames⟩ f) := dispatch_retains rfl
    rw [step] at one
    split at one
    · next found =>
      cases one
      rw [found] at kept
      exact inside.trans kept
    · cases one

namespace Steps

variable {depth n : Nat} {m a : Machine σ} {below : List Frame}

/-- A chain that stays above some frames retains them. -/
theorem retains (steps : Steps host depth n m a) (retained : below <:+ m.frames)
    (le : below.length ≤ depth) : below <:+ a.frames := by
  induction steps with
  | stay => exact retained
  | dispatch deep one _ ih => exact ih (step_retains one retained (Nat.lt_of_le_of_lt le deep))

/-- A chain stays above `depth` frames, or comes down to them and goes on. -/
theorem descend {less : Nat} (depth : Nat) (steps : Steps host less n m a) :
    Steps host depth n m a ∨ ∃ k j between, Steps host depth k m between ∧
      between.frames.length ≤ depth ∧ Steps host less j between a := by
  induction steps with
  | stay m => exact .inl (.stay m)
  | @dispatch n m next last deep one rest ih =>
    by_cases above : depth < m.frames.length
    · rcases ih with stays | ⟨k, j, between, first, shallow, second⟩
      · exact .inl (.dispatch above one stays)
      · exact .inr ⟨k + 1, j, between, .dispatch above one first, shallow, second⟩
    · exact .inr ⟨0, n + 1, m, .stay m, Nat.le_of_not_lt above, .dispatch deep one rest⟩

end Steps

/-- A run that fails above `depth` frames never came down to them. -/
theorem Stops.stays {depth less n : Nat} {m a : Machine σ} {error : Halted σ × Expr}
    (stops : Stops host depth m error) (le : less ≤ depth) (steps : Steps host less n m a) :
    Steps host depth n m a := by
  obtain ⟨k, last, rest, _, failing⟩ := stops
  have within : n ≤ k := by
    apply Nat.le_of_not_lt
    intro longer
    have := (Steps.of_error ((rest.shallower le).connect steps (Nat.le_of_lt longer)) failing).1
    omega
  obtain ⟨between, first⟩ := rest.take within
  have same := (first.shallower le).connect steps (Nat.le_refl n)
  rw [Nat.sub_self] at same
  cases same
  exact first

end BoxScript.Machine
