import BoxScript.Proofs.Safety.Promises

/-!
# Evaluation under promises

A dispatch of a tree of any shape keeps the promises that evaluation relies on.
As long as they are kept, it goes on or fails for a cause, so every run comes to
a value, fails for a cause, or is given up.

The values that a dispatch takes off are there by the discipline of the value
stack, and a book that has passed the check of its call has a getter if there is
anything to bind. All else that could go wrong is up to the routines.
-/

set_option autoImplicit false

namespace BoxScript

namespace Machine

variable {σ : Type} {p : Promise} {host : Host σ}

/-! ## A dispatch goes on or fails for a cause -/

def Spared : Next σ → Prop
  | .ok _ => True
  | .error halted => halted.failure ≠ .fatal

theorem spared_fail (m : Machine σ) (cause : Cause) : Spared (m.fail cause) := by
  rintro ⟨⟩

theorem spared_store (m : Machine σ) (r : Ref) (x : String) (v : Ref) :
    Spared (m.store r x v) := by
  rw [store]
  split
  · exact spared_fail m _
  · trivial

/-- A book that has passed the check has a getter, or there is nothing to bind. -/
theorem getter_of_check {h : Heap} {method : Option Method} {book : Ref}
    (passed : checkArguments h method book = .ok ())
    (variadic : ∀ m ∈ method, m.variadic = true → m.params = []) :
    (method.map Method.params).getD [] = [] ∨ ∃ getter, h.get? book getName = some getter := by
  have bindable : ∀ {params : List String}, checkGetter h params book = .ok () →
      params = [] ∨ ∃ getter, h.get? book getName = some getter := by
    intro params passed
    cases found : h.get? book getName with
    | some getter => exact .inr ⟨getter, rfl⟩
    | none =>
      cases params with
      | nil => exact .inl rfl
      | cons param params =>
        simp only [checkGetter, found] at passed
        cases passed
  cases method with
  | none => exact .inl rfl
  | some method =>
    rw [checkArguments] at passed
    split at passed
    · next any => exact .inl (variadic method rfl any)
    · split at passed
      · exact bindable passed
      · split at passed
        · cases passed
        · exact bindable passed

theorem enter_spared {m : Machine σ} (sturdy : m.heap.Sturdy p) (callee book : Ref) :
    Spared (m.enter callee book) := by
  rw [enter]
  cases check : checkArguments (m.heap.scope callee book).1 (m.heap.method? callee) book with
  | error cause =>
    rw [openScope_error check]
    exact spared_fail _ cause
  | ok =>
    have bindable := getter_of_check check fun method found =>
      (sturdy.method? callee method found).variadic
    rw [openScope_ok check]
    have heap : (((m.opened callee book).setMethod (m.heap.method? callee)).pushValue
        (m.heap.scope callee book).2).heap = (m.heap.scope callee book).1 := by
      obtain ⟨heap, world, values, _ | frames⟩ := m <;> rfl
    rw [bindParameters.eq_def]
    split
    · trivial
    · next params some' =>
      rw [heap]
      rcases bindable with none | ⟨getter, found⟩
      · exact absurd none some'
      · rw [found]
        trivial

section Kinds

variable {heap : Heap} {world : σ} {values : Array Ref} {f : Frame} {frames : List Frame}

theorem native_spared (friendly : host.Sturdy p) (sturdy : heap.Sturdy p) {x : String}
    {routine : Option Routine} (standing : (Expr.native x routine).Standing p heap) :
    Spared (native host (counted heap world values f frames) f x routine) := by
  rw [native]
  split
  · split
    · exact spared_fail _ _
    · next r found =>
      have ready : r.Ready p heap := by
        cases routine with
        | none => exact friendly.natives x r found heap
        | some routine =>
          cases found
          exact standing
      have spares := Routine.run_spares friendly ready sturdy (sturdy.arguments f.target) world
      simp only
      split
      · next failure _ _ reply =>
        rintro rfl
        exact spares (by rw [reply])
      · trivial
  · trivial

variable (turn : Disciplined ⟨heap, world, values, f :: frames⟩)

include turn

theorem member_spared {t : Expr} {x : String} (kind : f.expr = .member t x) :
    Spared ((counted heap world values f frames).member f t x) := by
  rw [member]
  split
  · trivial
  · next now =>
    obtain ⟨others, r, rfl, -, -, -⟩ := turn.top (by simp [own, kind, now])
    rw [withValue_push]
    simp only
    split
    · trivial
    · exact spared_fail _ _
  · trivial

theorem assign_spared {x : String} {value : Expr} (kind : f.expr = .assign x value) :
    Spared ((counted heap world values f frames).assign f x value) := by
  rw [assign]
  split
  · trivial
  · next now =>
    obtain ⟨others, v, rfl, -, -, -⟩ := turn.top (by simp [own, kind, now])
    rw [withValue_push]
    exact spared_store _ _ _ _
  · trivial

theorem assignMember_spared {t value : Expr} {x : String}
    (kind : f.expr = .assignMember t x value) :
    Spared ((counted heap world values f frames).assignMember f t x value) := by
  rw [assignMember]
  split
  · trivial
  · trivial
  · next now =>
    obtain ⟨others, r, v, rfl, -, -, -⟩ := turn.two (by simp [own, kind, now])
    rw [withValue_push, withValue_push]
    exact spared_store _ _ _ _
  · trivial

theorem call_spared (sturdy : heap.Sturdy p) {t argument : Expr}
    (kind : f.expr = .call t argument) :
    Spared ((counted heap world values f frames).call f t argument) := by
  rw [call]
  split
  · trivial
  · trivial
  · next now =>
    obtain ⟨others, callee, book, rfl, -, -, -⟩ := turn.two (by simp [own, kind, now])
    rw [withValue_push, withValue_push]
    exact enter_spared sturdy callee book
  · -- The scope is still there.
    have floor := turn.floor_le
    have some' : 0 < (values.shrink (f.floor + 1)).size := by
      rw [Array.size_shrink]
      have positive := turn.balanced.1.positive
      omega
    obtain ⟨others, scope, trimmed⟩ := Array.exists_push_of_size_pos some'
    rw [trim, trimmed, withValue_push]
    trivial
  · trivial

theorem dispatch_spared (friendly : host.Sturdy p) (sturdy : heap.Sturdy p)
    (tree : f.expr.Sturdy p heap) :
    Spared (dispatch host (counted heap world values f frames) f) := by
  rw [dispatch]
  cases kind : f.expr with
  | sequence es =>
    simp only [sequence.eq_def]
    split
    · trivial
    · split <;> trivial
  | name x =>
    simp only [name]
    split
    · split
      · trivial
      · exact spared_fail _ _
    · trivial
  | member t x => exact member_spared turn kind
  | assign x value => exact assign_spared turn kind
  | assignMember t x value => exact assignMember_spared turn kind
  | call t argument => exact call_spared turn sturdy kind
  | box body =>
    simp only [box]
    split
    · cases body <;> trivial
    · trivial
    · trivial
  | method params body =>
    simp only [method]
    split <;> trivial
  | text bytes =>
    simp only [leaf]
    split <;> trivial
  | integer n =>
    simp only [leaf]
    split <;> trivial
  | real x =>
    simp only [leaf]
    split <;> trivial
  | list items =>
    simp only [list]
    split
    · trivial
    · split <;> trivial
  | native x routine => exact native_spared friendly sturdy (by simpa [kind] using tree.here)
  | held r =>
    simp only [leaf]
    split <;> trivial
  | foreign kind shown => exact spared_fail _ _
  | hole => exact spared_fail _ _

end Kinds

end Machine

/-! ## States that keep the promises -/

structure Frame.Sturdy (p : Promise) (h : Heap) (f : Frame) : Prop where
  expr : f.expr.Sturdy p h
  method : ∀ method ∈ f.method, method.Sturdy p h

theorem Frame.Sturdy.mono {p : Promise} {h h' : Heap} {f : Frame} (serves : h.Serves p h')
    (sturdy : f.Sturdy p h) : f.Sturdy p h' :=
  ⟨sturdy.expr.mono serves, fun method found => (sturdy.method method found).mono serves⟩

namespace Machine

variable {σ : Type} {p : Promise} {host : Host σ}

structure Sturdy (p : Promise) (m : Machine σ) : Prop where
  disciplined : Disciplined m
  heap : m.heap.Sturdy p
  frames : ∀ f ∈ m.frames, f.Sturdy p m.heap

/-- What a method literal leaves behind. -/
theorem heapAfter_method (host : Host σ) {m : Machine σ} {f : Frame} {frames : List Frame}
    (newest : m.frames = f :: frames) {params : List String} {body : Option Expr}
    (kind : f.expr = .method params body) :
    heapAfter host m = m.heap ∨
      heapAfter host m = m.heap.push { method := some ⟨params, body, false⟩ } := by
  obtain ⟨heap, world, values, _⟩ := m
  cases newest
  rw [heapAfter, step]
  simp only [dispatch, kind, method]
  cases f.step with
  | zero => exact .inr rfl
  | succ n =>
    cases n with
    | zero => exact .inl rfl
    | succ n => exact .inl rfl

section Heaps

variable {m : Machine σ} {f : Frame} {frames : List Frame}

/-- Every other change of the heap keeps the promises, whatever the frame is. -/
theorem Change.sturdy {h : Heap} (change : Change m f h)
    (other : ∀ params body, f.expr ≠ .method params body) (sturdy : m.heap.Sturdy p) :
    m.heap.Serves p h ∧ h.Sturdy p := by
  cases change with
  | none => exact ⟨(Heap.Extends.refl _).serves, sturdy⟩
  | bind _ _ => exact ⟨(m.heap.extends_assign _ _ _).serves, sturdy.assign _ _ _⟩
  | bare method literal =>
    cases method with
    | none => exact ⟨(m.heap.extends_push _).serves, sturdy.push (.plain rfl nofun)⟩
    | some method => exact absurd (literal method rfl) (other _ _)
  | list _ => exact ⟨(m.heap.keeps_newList _).later.serves, sturdy.newList _⟩
  | value _ plain _ =>
    exact ⟨(m.heap.keeps_newWith _ _).later.serves, sturdy.newWith _ _ plain.1⟩
  | @enter callee book _ _ getter params =>
    have scope := m.heap.keeps_scope callee book
    have books := Heap.keeps_bindings (m.heap.scope callee book).1 getter 0 params
    exact ⟨(scope.trans books).later.serves, (sturdy.scope _ _).bindings getter 0 params⟩

/-- A dispatch keeps the promises about the heap. -/
theorem Sturdy.heapAfter (friendly : host.Sturdy p) (sturdy : m.Sturdy p)
    (newest : m.frames = f :: frames) :
    m.heap.Serves p (heapAfter host m) ∧ (heapAfter host m).Sturdy p := by
  have tree : f.expr.Sturdy p m.heap := (sturdy.frames f (by simp [newest])).expr
  by_cases literal : ∃ params body, f.expr = .method params body
  · obtain ⟨params, body, kind⟩ := literal
    rcases heapAfter_method host newest kind with same | same
    · rw [same]
      exact ⟨(Heap.Extends.refl _).serves, sturdy.heap⟩
    · have serves := (m.heap.extends_push { method := some ⟨params, body, false⟩ }).serves (p := p)
      rw [same]
      refine ⟨serves, sturdy.heap.push ⟨nofun, ?_⟩⟩
      rintro method ⟨⟩
      refine ⟨fun e isBody => (tree.part ?_).mono serves, nofun⟩
      rw [kind]
      exact Option.mem_toList.mpr isBody
  · rcases heapAfter_change host newest with change | ⟨x, routine, key, args, kind, found, left⟩
    · exact change.sturdy (fun params body kind => literal ⟨params, body, kind⟩) sturdy.heap
    · have known : p.known key := by
        cases routine with
        | none => exact friendly.natives x _ found m.heap
        | some routine =>
          cases found
          have standing := tree.here
          rw [kind] at standing
          exact standing
      rw [left]
      exact friendly.keeps key args m.heap m.world known sturdy.heap

/-- The frames after a dispatch, as long as the heap is as before. -/
theorem Turn.sturdy {heap : Heap} {values after : Array Ref} {frames' : List Frame}
    (turn : Turn heap values f frames after frames') (kept : heap.Sturdy p)
    (all : ∀ g ∈ f :: frames, g.Sturdy p heap) : ∀ g ∈ frames', g.Sturdy p heap := by
  have below : ∀ g ∈ frames, g.Sturdy p heap := fun g member => all g (by simp [member])
  have newest : f.Sturdy p heap := all f (by simp)
  have again : f.again.Sturdy p heap := ⟨newest.expr, newest.method⟩
  cases turn with
  | pop => exact below
  | stay _ _ => exact List.forall_mem_cons.mpr ⟨again, below⟩
  | wait _ _ begins =>
    refine List.forall_mem_cons.mpr ⟨⟨?_, nofun⟩, List.forall_mem_cons.mpr ⟨again, below⟩⟩
    cases begins with
    | operand member => exact newest.expr.part (Expr.parts_of_operands member)
    | box literal => exact newest.expr.part (by rw [literal]; exact List.mem_singleton_self _)
    | body _ _ found body => exact (newest.method _ found).body _ body
  | enter _ _ binds =>
    intro g member
    rcases List.mem_append.mp member with binding | member
    · obtain ⟨param, getter, book, rfl⟩ := binds g binding
      exact ⟨.binding param getter book, nofun⟩
    · rcases List.mem_cons.mp member with rfl | member
      · exact ⟨newest.expr, kept.method? _⟩
      · exact below g member

end Heaps

section Runs

variable (friendly : host.Sturdy p)

include friendly

theorem Sturdy.step {m next : Machine σ} (sturdy : m.Sturdy p) (one : step host m = .ok next) :
    next.Sturdy p := by
  cases newest : m.frames with
  | nil =>
    obtain ⟨heap, world, values, _⟩ := m
    cases newest
    cases one
    exact sturdy
  | cons f frames =>
    obtain ⟨serves, kept⟩ := sturdy.heapAfter friendly newest
    have after : Machine.heapAfter host m = next.heap := by rw [Machine.heapAfter, one]
    rw [after] at serves kept
    have turn := step_turn sturdy.disciplined newest one
    have all := turn.sturdy sturdy.heap (newest ▸ sturdy.frames)
    exact ⟨step_disciplined sturdy.disciplined one, kept,
      fun g member => (all g member).mono serves⟩

theorem Sturdy.steps {depth n : Nat} {m last : Machine σ} (sturdy : m.Sturdy p)
    (steps : Steps host depth n m last) : last.Sturdy p := by
  induction steps with
  | stay => exact sturdy
  | dispatch _ one _ ih => exact ih (sturdy.step friendly one)

/-- Every failure has a cause. -/
theorem step_spared {m : Machine σ} (sturdy : m.Sturdy p) {halted : Halted σ} {e : Expr}
    (failing : step host m = .error (halted, e)) : halted.failure ≠ .fatal := by
  obtain ⟨heap, world, values, frames⟩ := m
  cases frames with
  | nil => cases failing
  | cons f frames =>
    have spared := dispatch_spared sturdy.disciplined friendly sturdy.heap
      (sturdy.frames f (by simp)).expr
    rw [Machine.step] at failing
    split at failing
    · cases failing
    · next stops =>
      cases failing
      rwa [stops] at spared

/-- A run comes to a value or fails for a cause, unless it is given up. -/
theorem run_spared {m : Machine σ} (sturdy : m.Sturdy p) (fuel : Nat) :
    (run host fuel m).outcome ≠ .fatal := by
  rcases run_cases fuel m with ⟨n, last, steps, none, ends⟩ | ⟨halted, e, stops, ends⟩ |
    ⟨n, last, -, -, ends⟩ | ⟨last, -, -, ends⟩
  · -- The result lies on the value at the bottom.
    have size := (sturdy.steps friendly steps).disciplined.size
    rw [none, due] at size
    obtain ⟨others, v, values⟩ := @Array.exists_push_of_size_pos _ last.values (by omega)
    rw [ends, answer, values, Array.back?_push]
    rintro ⟨⟩
  · obtain ⟨n, last, steps, -, failing⟩ := stops
    have caused := step_spared friendly (sturdy.steps friendly steps) failing
    rw [ends, stopped]
    split
    · rintro ⟨⟩
    · next fatal => exact absurd fatal caused
  · rw [ends]
    rintro ⟨⟩
  · rw [ends]
    rintro ⟨⟩

end Runs

theorem sturdy_start {h : Heap} (sturdy : h.Sturdy p) {e : Expr} (tree : e.Sturdy p h)
    (world : σ) (target : Ref) : (start h world target e).Sturdy p where
  disciplined := start_disciplined h world target e
  heap := sturdy
  frames := by
    rintro f (_ | ⟨_, ⟨⟩⟩)
    exact ⟨tree, nofun⟩

end Machine

end BoxScript
