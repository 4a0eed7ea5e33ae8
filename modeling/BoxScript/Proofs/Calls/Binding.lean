import BoxScript.Proofs.Calls.Entering
import BoxScript.Proofs.Safety.Failures

/-!
# Parameters bound one after another

The frames that bind the parameters of a call are all pushed before the first of
them runs. Each calls the getter of the argument book, which was read once, with
a list that holds the position of its parameter, and binds the answer on the
scope. What the getter does meanwhile is arbitrary, but it runs above the frames
that still wait. Hence the parameters are served strictly in turn, from the last
to the first: `Served` says what it takes to have served some of them, every
state of the call lies within the service of one parameter or behind that of
all, and a getter that fails ends the call where it stands.
-/

set_option autoImplicit false

namespace BoxScript

open Recursive

/-! ## Assignments -/

section Assignments

variable {σ : Type} {host : Host σ} {target : Ref} {x : String} {value : Expr} {s s' : Store σ}
  {v : Ref} (free : Canon.isSealed target = false)

include free

theorem ends_assign_value :
    Ends host target (.assign x value) s (.ok (v, s')) ↔
      ∃ before, Ends host target value s (.ok (v, before)) ∧
        s' = ⟨before.heap.assign target x v, before.world⟩ := by
  constructor
  · rintro ⟨n, found⟩
    cases n with
    | zero => cases found
    | succ n =>
      rw [eval] at found
      cases first : eval host n target value s with
      | none =>
        rw [first] at found
        cases found
      | some result =>
        rw [first] at found
        cases result with
        | error error => cases found
        | ok result =>
          simp only [Trial.andThen, Recursive.store, free] at found
          cases found
          exact ⟨result.2, ⟨n, first⟩, rfl⟩
  · rintro ⟨before, ⟨n, found⟩, rfl⟩
    refine ⟨n + 1, ?_⟩
    simp only [eval, found, Trial.andThen, Recursive.store, free]
    rfl

theorem ends_assign_error {error : Halted σ × Expr} :
    Ends host target (.assign x value) s (.error error) ↔
      Ends host target value s (.error error) := by
  constructor
  · rintro ⟨n, found⟩
    cases n with
    | zero => cases found
    | succ n =>
      rw [eval] at found
      cases first : eval host n target value s with
      | none =>
        rw [first] at found
        cases found
      | some result =>
        rw [first] at found
        cases result with
        | error error' =>
          cases found
          exact ⟨n, first⟩
        | ok result =>
          simp only [Trial.andThen, Recursive.store, free] at found
          cases found
  · rintro ⟨n, found⟩
    exact ⟨n + 1, by simp only [eval, found, Trial.andThen]⟩

end Assignments

/-! ## Parameters that were served -/

variable {σ : Type} {host : Host σ}

/-- The getter has answered each of these books in turn, and each answer was
bound to its parameter on the scope before the next call. -/
inductive Served (host : Host σ) (scope getter : Ref) :
    List (String × Ref) → Store σ → List Ref → Store σ → Prop where
  | none (s : Store σ) : Served host scope getter [] s [] s
  | next {param : String} {book v : Ref} {rest : List (String × Ref)} {vs : List Ref}
      {s s' last : Store σ}
      (answers : Ends host scope (.call (.held getter) (.held book)) s (.ok (v, s')))
      (others : Served host scope getter rest ⟨s'.heap.assign scope param v, s'.world⟩ vs last) :
      Served host scope getter ((param, book) :: rest) s (v :: vs) last

namespace Machine

variable {m : Machine σ} {call : Frame} {scope getter : Ref} {s : Store σ}

theorem length_lt_waiting (pending : List (String × Ref)) :
    m.frames.length < (m.waiting call scope getter pending).length := by
  simp [waiting]
  omega

theorem waiting_suffix (front back : List (String × Ref)) :
    m.waiting call scope getter back <:+ m.waiting call scope getter (front ++ back) := by
  rw [waiting, waiting, List.map_append, List.append_assoc]
  exact List.suffix_append _ _

/-- The state is within the service of one of the parameters. Those before it
are served, and the frames for those behind it have not been dispatched. -/
def Serving (host : Host σ) (m : Machine σ) (call : Frame) (scope getter : Ref)
    (pending : List (String × Ref)) (s : Store σ) (x : Machine σ) : Prop :=
  ∃ front p back vs s' n, pending = front ++ p :: back ∧ Served host scope getter front s vs s' ∧
    Steps host (m.waiting call scope getter back).length n
      (m.awaiting call scope getter (p :: back) vs s') x ∧
    m.waiting call scope getter back <:+ x.frames

/-- The state is behind the service of all parameters. -/
def Bound (host : Host σ) (m : Machine σ) (call : Frame) (scope getter : Ref)
    (pending : List (String × Ref)) (s : Store σ) (x : Machine σ) : Prop :=
  ∃ vs s' n, Served host scope getter pending s vs s' ∧
    Steps host m.frames.length n (m.awaiting call scope getter [] vs s') x

/-- The value of a binding is left above those of the earlier ones. -/
theorem awaiting_push (back : List (String × Ref)) (vs : List Ref) (s s' : Store σ) (v : Ref) :
    s'.machine ((m.awaiting call scope getter back vs s).values.push v)
        (m.awaiting call scope getter back vs s).frames =
      m.awaiting call scope getter back (vs ++ [v]) s' := by
  simp [awaiting]

theorem binding_fits (p : String × Ref) (back : List (String × Ref)) (vs : List Ref) (s : Store σ) :
    Fits (.binding getter p) (m.values.push scope).size
      (m.awaiting call scope getter back vs s).values.size := .inr ⟨_, _, rfl⟩

section Turns

variable (free : Canon.isSealed scope = false)

include free

/-- The service of one parameter. -/
theorem steps_binding (param : String) {book v : Ref} (back : List (String × Ref)) (vs : List Ref)
    {s' : Store σ} (answers : Ends host scope (.call (.held getter) (.held book)) s (.ok (v, s'))) :
    ∃ n, Steps host (m.waiting call scope getter back).length n
      (m.awaiting call scope getter ((param, book) :: back) vs s)
      (m.awaiting call scope getter back (vs ++ [v]) ⟨s'.heap.assign scope param v, s'.world⟩) := by
  have binds : Ends host scope (.binding getter (param, book)) s
      (.ok (v, ⟨s'.heap.assign scope param v, s'.world⟩)) :=
    (ends_assign_value free).mpr ⟨s', answers, rfl⟩
  obtain ⟨n, steps⟩ := steps_of_value (m := m.awaiting call scope getter back vs s)
    (binding_fits (param, book) back vs s) binds
  rw [awaiting_push] at steps
  exact ⟨n, steps⟩

/-- The service of some parameters, with others behind them. -/
theorem steps_served {front : List (String × Ref)} {vs : List Ref} {s' : Store σ}
    (served : Served host scope getter front s vs s') (back : List (String × Ref)) (us : List Ref) :
    ∃ n, Steps host (m.waiting call scope getter back).length n
      (m.awaiting call scope getter (front ++ back) us s)
      (m.awaiting call scope getter back (us ++ vs) s') := by
  induction served generalizing us with
  | none s => exact ⟨0, by rw [List.append_nil]; exact .stay _⟩
  | @next param book v rest vs s s' last answers _ ih =>
    obtain ⟨k, others⟩ := ih (us ++ [v])
    rw [List.append_assoc] at others
    obtain ⟨n, first⟩ := steps_binding free param (rest ++ back) us answers
    exact ⟨n + k, (first.shallower (waiting_suffix rest back).length_le).trans others⟩

/-- A getter that fails stops the machine above the frames that wait. -/
theorem stops_binding {param : String} {book : Ref} (back : List (String × Ref)) (vs : List Ref)
    {error : Halted σ × Expr}
    (fails : Ends host scope (.call (.held getter) (.held book)) s (.error error)) :
    Stops host (m.waiting call scope getter back).length
      (m.awaiting call scope getter ((param, book) :: back) vs s) error := by
  have binds : Ends host scope (.binding getter (param, book)) s (.error error) :=
    (ends_assign_error free).mpr fails
  exact stops_of_error (m := m.awaiting call scope getter back vs s)
    (binding_fits (param, book) back vs s) binds

/-- A chain of dispatches stays above the frames that wait, or comes down to them,
and then the first parameter has been served. -/
theorem served_of_steps (pending : List (String × Ref)) {n : Nat} {x : Machine σ} (us : List Ref)
    (steps : Steps host m.frames.length n (m.awaiting call scope getter pending us s) x) :
    (∃ front p back vs s' k, pending = front ++ p :: back ∧
      Served host scope getter front s vs s' ∧
      Steps host (m.waiting call scope getter back).length k
        (m.awaiting call scope getter (p :: back) (us ++ vs) s') x) ∨
    ∃ vs s' k, Served host scope getter pending s vs s' ∧
      Steps host m.frames.length k (m.awaiting call scope getter [] (us ++ vs) s') x := by
  induction pending generalizing s us n with
  | nil => exact .inr ⟨[], s, n, .none s, by rwa [List.append_nil]⟩
  | cons p back ih =>
    obtain ⟨param, book⟩ := p
    -- Either the first binding is still under way, or its frame is gone.
    rcases steps.descend (m.waiting call scope getter back).length with
      stays | ⟨k, j, between, first, shallow, second⟩
    · exact .inl ⟨[], (param, book), back, [], s, n, rfl, .none s, by rwa [List.append_nil]⟩
    · obtain ⟨v, after, binds, rfl⟩ := value_of_steps
        (m := m.awaiting call scope getter back us s)
        (binding_fits (param, book) back us s) first shallow
      obtain ⟨s', answers, rfl⟩ := (ends_assign_value free).mp binds
      rw [awaiting_push] at second
      rcases ih (us ++ [v]) second with ⟨front, q, rest, vs, s'', i, split, served, inside⟩ |
        ⟨vs, s'', i, served, behind⟩
      · rw [List.append_assoc] at inside
        exact .inl ⟨(param, book) :: front, q, rest, v :: vs, s'', i, by rw [split]; rfl,
          .next answers served, inside⟩
      · rw [List.append_assoc] at behind
        exact .inr ⟨v :: vs, s'', i, .next answers served, behind⟩

/-- Every state of a call with parameters to bind is within the service of one
of them or behind that of all. -/
theorem serving_or_bound {pending : List (String × Ref)} {n : Nat} {x : Machine σ}
    (steps : Steps host m.frames.length n (m.awaiting call scope getter pending [] s) x) :
    Serving host m call scope getter pending s x ∨ Bound host m call scope getter pending s x := by
  rcases served_of_steps free pending [] steps with ⟨front, p, back, vs, s', k, split, served, inside⟩ |
    ⟨vs, s', k, served, behind⟩
  · have retained := inside.retains (waiting_suffix [p] back) (Nat.le_refl _)
    exact .inl ⟨front, p, back, vs, s', k, split, served, inside, retained⟩
  · exact .inr ⟨vs, s', k, served, behind⟩

end Turns

end Machine

/-! ## Lists that keep their positions -/

/-- The functions of the embedding program leave payloads and methods alone. -/
def Host.Careful (host : Host σ) : Prop :=
  ∀ key args (h : Heap) world, h.Extends (host.call key args h world).heap

section Careful

variable (careful : host.Careful)

include careful

theorem Machine.heapAfter_extends (m : Machine σ) (canon : Canon.globals < m.heap.size) :
    m.heap.Extends (heapAfter host m) := by
  cases newest : m.frames with
  | nil =>
    rw [heapAfter_nil host newest]
    exact .refl _
  | cons f frames =>
    rcases heapAfter_change host newest with change | ⟨x, routine, key, args, -, -, left⟩
    · exact (change.respects canon).toExtends
    · rw [left]
      exact careful key args m.heap m.world

theorem Machine.Steps.extends {depth n : Nat} {m a : Machine σ} (steps : Steps host depth n m a)
    (canon : Canon.globals < m.heap.size) : m.heap.Extends a.heap := by
  induction steps with
  | stay => exact .refl _
  | @dispatch n m next last _ one _ ih =>
    have first := heapAfter_extends careful m canon
    rw [heapAfter, one] at first
    exact first.trans (ih (first.inside canon))

theorem Recursive.Ends.extends {target : Ref} {e : Expr} {s s' : Store σ} {v : Ref}
    (ends : Ends host target e s (.ok (v, s'))) (canon : Canon.globals < s.heap.size) :
    s.heap.Extends s'.heap := by
  obtain ⟨n, steps⟩ := Machine.steps_of_value (m := idle s) (.inl rfl) ends
  exact steps.extends careful canon

/-- Whatever the getter does for some parameters, the lists for the others hold
their positions when their turn comes. -/
theorem Served.extends {scope getter : Ref} {pending : List (String × Ref)} {vs : List Ref}
    {s s' : Store σ} (served : Served host scope getter pending s vs s')
    (canon : Canon.globals < s.heap.size) : s.heap.Extends s'.heap := by
  induction served with
  | none s => exact .refl _
  | @next param _ v _ _ _ s' _ answers _ ih =>
    have first := (answers.extends careful canon).trans (s'.heap.extends_assign scope param v)
    exact first.trans (ih (first.inside canon))

end Careful

/-! ## Calls with any argument book -/

/-- A book with a getter passes the check of a method's arguments if it is a list
of the right length or no list. -/
theorem checkArguments_of_count {h : Heap} {method : Method} {book getter : Ref}
    (plain : method.variadic = false) (found : h.get? book getName = some getter)
    (count : ∀ items, (h.box book).items? = some items → items.length = method.params.length) :
    checkArguments h (some method) book = .ok () := by
  simp only [checkArguments, plain, Bool.false_eq_true, if_false, checkGetter_booked found]
  cases listed : (h.box book).items? with
  | none => rfl
  | some items => simp [checkLength, count items listed]

namespace Machine

variable {m : Machine σ} {target callee book scope getter : Ref} {t argument : Expr}
  {s before after : Store σ} {method : Option Method} {pending : List (String × Ref)} {vs : List Ref}

section Entered

variable (evaluated : Evaluated host m target t argument callee book s)
  (free : Canon.isSealed scope = false)
  (enters : step host (m.calling target t argument callee book s) =
    .ok (m.awaiting (m.callFrame target t argument 3 method) scope getter pending [] before))

include evaluated free enters

/-- A call that was entered gets to its body when its parameters are served. -/
theorem runsBody_of_served (served : Served host scope getter pending before vs after) :
    RunsBody host m target t argument method scope after := by
  let bound := m.awaiting (m.callFrame target t argument 3 method) scope getter [] vs after
  have start : Steps host m.frames.length 1 bound _ :=
    .single (length_lt_waiting []) (step_awaiting scope getter vs)
  have enter := Steps.single (Nat.lt_succ_self m.frames.length) enters
  obtain ⟨n, reaches⟩ := steps_calling evaluated
  obtain ⟨k, serves⟩ := steps_served free served [] []
  rw [List.append_nil] at serves
  exact runsBody_of_steps
    (((reaches.trans enter).trans (serves.shallower (Nat.le_succ _))).trans start)

/-- If the getter fails for a parameter, so does the call, and the frames that
waited for this parameter still do. -/
theorem call_fails {front back : List (String × Ref)} {param : String} {l : Ref}
    {error : Halted σ × Expr} (split : pending = front ++ (param, l) :: back)
    (served : Served host scope getter front before vs after)
    (fails : Ends host scope (.call (.held getter) (.held l)) after (.error error)) :
    Ends host target (.call t argument) ⟨m.heap, m.world⟩ (.error error) ∧
      ∀ n x, Steps host m.frames.length n (m.awaiting (m.callFrame target t argument 3 method) scope
        getter pending [] before) x →
        m.waiting (m.callFrame target t argument 3 method) scope getter back <:+ x.frames := by
  subst split
  let call := m.callFrame target t argument 3 method
  have above : m.frames.length ≤ (m.waiting call scope getter back).length :=
    Nat.le_of_lt (length_lt_waiting back)
  have longer : (m.waiting call scope getter back).length ≤
      (m.waiting call scope getter ((param, l) :: back)).length :=
    (waiting_suffix [(param, l)] back).length_le
  -- The machine stops above the frames for the parameters behind this one, so no
  -- state before has come down to them.
  have stops : Stops host (m.waiting call scope getter back).length
      (m.awaiting call scope getter (front ++ (param, l) :: back) [] before) error := by
    obtain ⟨n, serves⟩ := steps_served (m := m) free served ((param, l) :: back) []
    exact .after (serves.shallower longer) (stops_binding free back ([] ++ vs) fails)
  constructor
  · obtain ⟨n, reaches⟩ := steps_calling evaluated
    have enter := Steps.single (Nat.lt_succ_self m.frames.length) enters
    exact ends_error_iff.mpr (.after (reaches.trans enter) (stops.shallower above))
  · intro n x steps
    have behind : m.waiting call scope getter back <:+
        m.waiting call scope getter (front ++ (param, l) :: back) :=
      (waiting_suffix [(param, l)] back).trans (waiting_suffix front _)
    exact (stops.stays above steps).retains behind (Nat.le_refl _)

end Entered

end Machine

section Calls

variable {m : Machine σ} {target callee book getter : Ref} {t argument : Expr} {s : Store σ}
  {method : Method}

/-- A book with a getter serves the parameters in turn. The call is entered in
one dispatch, which reads the getter and makes for each parameter a list that
holds its position; the last parameter is the first to be served. Every later
state of the call is within the service of one parameter, with the frames for
those behind it and the call as they were, or behind that of all. Then the body
is evaluated, and the call comes to what the body comes to. If the getter fails
for a parameter, the call fails with that error, and no frame that waited for
this parameter is ever dispatched. The lists keep their positions as long as
functions of the embedding program leave payloads alone. -/
theorem parameters_served_in_turn
    (evaluated : Machine.Evaluated host m target t argument callee book s)
    (resolves : s.heap.method? callee = some method) (plain : method.variadic = false)
    (found : s.heap.get? book getName = some getter)
    (count : ∀ items, (s.heap.box book).items? = some items → items.length = method.params.length)
    (canon : Canon.globals < s.heap.size) :
    let scope := s.heap.size
    let calling := m.calling target t argument callee book s
    let call := m.callFrame target t argument 3 (some method)
    ∃ h books, s.heap.Keeps h ∧ books.length = method.params.length ∧
      (∀ i l, books[i]? = some l → h.IsPosition l i) ∧
      let pending := (method.params.zip books).reverse
      let entered := m.awaiting call scope getter pending [] ⟨h, s.world⟩
      (∃ n, Machine.Steps host m.frames.length n (m.push target (.call t argument)) calling) ∧
      Machine.step host calling = .ok entered ∧
      (∀ n x, Machine.Steps host m.frames.length n entered x →
        m.Serving host call scope getter pending ⟨h, s.world⟩ x ∨
          m.Bound host call scope getter pending ⟨h, s.world⟩ x) ∧
      (∀ vs after, Served host scope getter pending ⟨h, s.world⟩ vs after →
        (∃ n, Machine.Steps host m.frames.length n entered
          (m.awaiting call scope getter [] vs after)) ∧
        m.RunsBody host target t argument (some method) scope after) ∧
      (∀ front param l back vs after error, pending = front ++ (param, l) :: back →
        Served host scope getter front ⟨h, s.world⟩ vs after →
        Ends host scope (.call (.held getter) (.held l)) after (.error error) →
        Ends host target (.call t argument) ⟨m.heap, m.world⟩ (.error error) ∧
          ∀ n x, Machine.Steps host m.frames.length n entered x →
            m.waiting call scope getter back <:+ x.frames) ∧
      (host.Careful → ∀ front vs after, Served host scope getter front ⟨h, s.world⟩ vs after →
        ∀ i l, books[i]? = some l → after.heap.IsPosition l i) := by
  intro scope calling call
  have free : Canon.isSealed scope = false := Heap.isSealed_of_le (Nat.le_of_lt canon)
  have keeps := s.heap.keeps_scope callee book
  have inside := Heap.lt_size_of_get? found
  have check : checkArguments (s.heap.scope callee book).1 (some method) book = .ok () := by
    refine checkArguments_of_count plain ((keeps.get? inside getName).trans found) ?_
    rw [keeps.same book inside]
    exact count
  obtain ⟨h, books, later, length, positions, enters⟩ :=
    Machine.step_calling_bind resolves check found
  refine ⟨h, books, keeps.trans later, length, ?_, Machine.steps_calling evaluated, enters, ?_, ?_,
    ?_, ?_⟩
  · exact fun i l isBook => (positions i l isBook).isPosition (.refl h)
  · exact fun n x steps => Machine.serving_or_bound free steps
  · intro vs after served
    obtain ⟨n, serves⟩ := Machine.steps_served free served [] []
    rw [List.append_nil] at serves
    exact ⟨⟨n, serves.shallower (Nat.le_succ _)⟩,
      Machine.runsBody_of_served evaluated free enters served⟩
  · intro front param l back vs after error split served fails
    exact Machine.call_fails evaluated free enters split served fails
  · intro careful front vs after served i l isBook
    have canon' := (keeps.trans later).later.inside canon
    exact (positions i l isBook).isPosition (served.extends careful canon')

/-- A book that is no list, with a getter that is written as a method. -/
theorem parameters_served_in_turn_box :
    let method : Method := ⟨["x", "y"], some (.name "x"), false⟩
    let h₀ : Heap := ((Heap.initial.push { method }).push
      { method := some ⟨["i"], some (.name "i"), false⟩ }).push { vars := [(getName, 32)] }
    ∃ h books, h₀.Keeps h ∧ books.length = 2 ∧
      Machine.step Host.plain ((idle ⟨h₀, ()⟩).calling 30 (.held 31) (.held 33) 31 33 ⟨h₀, ()⟩) =
        .ok ((idle ⟨h₀, ()⟩).awaiting
          ((idle ⟨h₀, ()⟩).callFrame 30 (.held 31) (.held 33) 3 method) 34 32
          (["x", "y"].zip books).reverse [] ⟨h, ()⟩) := by
  intro method h₀
  have size : h₀.size = 34 := by decide +kernel
  have evaluated : Machine.Evaluated Host.plain (idle ⟨h₀, ()⟩) 30 (.held 31) (.held 33) 31 33
      ⟨h₀, ()⟩ := ⟨⟨h₀, ()⟩, ⟨1, rfl⟩, ⟨1, rfl⟩⟩
  have resolves : h₀.method? 31 = some method := by
    rw [Heap.method?, Heap.methodFrom]
    rfl
  have found : h₀.get? 33 getName = some 32 := by rfl
  have count : ∀ items, (h₀.box 33).items? = some items → items.length = 2 := by
    intro items isList
    cases isList
  obtain ⟨h, books, keeps, length, -, -, enters, -⟩ := parameters_served_in_turn evaluated
    resolves rfl found count (by rw [size]; decide)
  exact ⟨h, books, keeps, length, size ▸ enters⟩

end Calls

end BoxScript
