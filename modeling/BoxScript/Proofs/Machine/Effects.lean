import BoxScript.Proofs.Heap.Made

/-!
# What a dispatch does to the heap

A dispatch leaves the heap as it is, binds one variable of a box that is not
sealed, or makes boxes: an empty one or a method, a list of values, a number or
text, the scope of a call with the books for its parameters. Everything else is
done by functions of the embedding program. This holds in every state, whatever
its frames and values are, so what the changes have in common holds along every
run.
-/

set_option autoImplicit false

namespace BoxScript.Machine

variable {σ : Type} {host : Host σ}

/-- The heap that a dispatch leaves, whether it goes on or stops. -/
def Next.heap : Next σ → Heap
  | .ok m => m.heap
  | .error halted => halted.heap

/-- The variable that the dispatch of a frame binds: its box, its name and the
value. -/
def binding? (m : Machine σ) (f : Frame) : Option (Ref × String × Ref) :=
  match f.expr, f.step with
  | .assign x _, 1 => m.values.back?.map fun v => (f.target, x, v)
  | .assignMember _ x _, 2 =>
    m.values.back?.bind fun v => m.values.pop.back?.map fun r => (r, x, v)
  | _, _ => none

/-- Where the bytes of a new text come from: a literal, whose stray bytes are
replaced, or the answer of a routine of the language. -/
inductive Wording (m : Machine σ) (f : Frame) : Bytes → Prop where
  | literal {source : Bytes} (kind : f.expr = .text source) : Wording m f (Utf8.repair source)
  | answer {routine : Routine} {args : List (Option Ref)} {bytes : Bytes}
      (answers : routine.answer m.heap args = .ok (.text bytes)) : Wording m f bytes

/-- The changes that the dispatch of a frame can make. The machine is the one
that dispatches it. -/
inductive Change (m : Machine σ) (f : Frame) : Heap → Prop where
  | none : Change m f m.heap
  | bind {r : Ref} {x : String} {v : Ref} (binds : m.binding? f = some (r, x, v))
      (free : Canon.isSealed r = false) : Change m f (m.heap.assign r x v)
  /-- An empty box, or one with the method that the expression stands for. -/
  | bare (method : Option Method)
      (literal : ∀ x ∈ method, f.expr = .method x.params x.body) :
      Change m f (m.heap.push { method })
  | list {items : List Ref} (held : ∀ v ∈ items, v ∈ m.values) :
      Change m f (m.heap.newList items).1
  | value {prototype : Ref} {payload : Payload}
      (known : prototype ∈ [Canon.integer, Canon.real, Canon.text]) (plain : Heap.Plain payload)
      (wording : ∀ bytes, payload = .text bytes → Wording m f bytes) :
      Change m f (m.heap.newWith [prototype] payload).1
  /-- The scope of a call, and the books that its parameters are bound by. -/
  | enter {callee book : Ref} (heldCallee : callee ∈ m.values) (heldBook : book ∈ m.values)
      (getter : Ref) (params : List String) :
      Change m f (Recursive.bindings getter (m.heap.scope callee book).1 0 params).1

/-- The dispatch of a frame calls a function of the embedding program, which
leaves the heap. -/
def HostCall (host : Host σ) (m : Machine σ) (f : Frame) (h : Heap) : Prop :=
  ∃ x routine key args, f.expr = .native x routine ∧
    routine.or (host.natives.lookup x) = some (.host key) ∧
    h = (host.call key args m.heap m.world).heap

/-! ## The kinds of dispatches -/

section Kinds

variable {m : Machine σ} {f : Frame}

theorem mem_of_mem_pop {values : Array Ref} {v : Ref} (member : v ∈ values.pop) : v ∈ values := by
  have kept : v ∈ values.toList.dropLast := by
    rw [← Array.toList_pop]
    exact Array.mem_toList_iff.mpr member
  exact Array.mem_toList_iff.mp (List.dropLast_subset _ kept)

theorem mem_of_mem_extract {values : Array Ref} {i j : Nat} {v : Ref}
    (member : v ∈ (values.extract i j).toList) : v ∈ values := by
  rw [Array.toList_extract, List.extract_eq_take_drop] at member
  exact Array.mem_toList_iff.mp (List.mem_of_mem_drop (List.mem_of_mem_take member))

theorem change_sequence {es : List Expr} : Change m f (m.sequence f es).heap := by
  rw [Machine.sequence.eq_def]
  split
  · split
    · exact .none
    · exact .none
  · split
    · exact .none
    · exact .none

theorem change_name {x : String} : Change m f (m.name f x).heap := by
  rw [Machine.name]
  split
  · split
    · exact .none
    · exact .none
  · exact .none

theorem change_member {t : Expr} {x : String} : Change m f (m.member f t x).heap := by
  rw [Machine.member]
  split
  · exact .none
  · rw [withValue]
    split
    · exact .none
    · simp only
      split
      · exact .none
      · exact .none
  · exact .none

theorem change_box {body : Option Expr} : Change m f (m.box f body).heap := by
  rw [Machine.box]
  split
  · cases body with
    | none => exact .bare none (by simp)
    | some e => exact .bare none (by simp)
  · exact .none
  · exact .none

theorem change_method {params : List String} {body : Option Expr}
    (kind : f.expr = .method params body) : Change m f (m.method f params body).heap := by
  rw [Machine.method]
  split
  · refine .bare (some ⟨params, body, false⟩) fun x isMethod => ?_
    cases isMethod
    exact kind
  · exact .none
  · exact .none

theorem change_store {values : Array Ref} {frames : List Frame} {r v : Ref} {x : String}
    (binds : m.binding? f = some (r, x, v)) :
    Change m f (store ⟨m.heap, m.world, values, frames⟩ r x v).heap := by
  rw [store]
  split
  · exact .none
  · next free => exact .bind binds (by simpa using free)

theorem change_assign {x : String} {value : Expr} (kind : f.expr = .assign x value) :
    Change m f (m.assign f x value).heap := by
  rw [Machine.assign]
  split
  · exact .none
  · next turn =>
    rw [withValue]
    split
    · exact .none
    · next v newest => exact change_store (by simp [binding?, kind, turn, newest])
  · exact .none

theorem change_assignMember {t value : Expr} {x : String} (kind : f.expr = .assignMember t x value) :
    Change m f (m.assignMember f t x value).heap := by
  rw [Machine.assignMember]
  split
  · exact .none
  · exact .none
  · next turn =>
    rw [withValue]
    split
    · exact .none
    · next v newest =>
      simp only [withValue]
      split
      · exact .none
      · next r next => exact change_store (by simp [binding?, kind, turn, newest, next])
  · exact .none

theorem change_leaf {value : Heap → Heap × Ref} (made : Change m f (value m.heap).1) :
    Change m f (m.leaf f value).heap := by
  rw [leaf]
  split
  · exact made
  · exact .none

theorem change_list {items : List Expr} : Change m f (m.list f items).heap := by
  rw [Machine.list]
  split
  · exact .none
  · split
    · exact .list fun v member => mem_of_mem_extract member
    · exact .none

/-- Calls without parameters make no books. -/
theorem heap_bindParameters (m : Machine σ) (scope book : Ref) (params : List String) :
    ∃ getter made, (m.bindParameters scope book params).heap =
      (Recursive.bindings getter m.heap 0 made).1 := by
  rw [bindParameters.eq_def]
  split
  · exact ⟨0, [], rfl⟩
  · split
    · exact ⟨0, [], rfl⟩
    · next getter _ => exact ⟨getter, params, by rw [pushBindings_eq]; rfl⟩

theorem heap_enter (m : Machine σ) (callee book : Ref) :
    ∃ getter params, (m.enter callee book).heap =
      (Recursive.bindings getter (m.heap.scope callee book).1 0 params).1 := by
  rw [enter]
  cases check : checkArguments (m.heap.scope callee book).1 (m.heap.method? callee) book with
  | error cause => exact ⟨0, [], by rw [openScope_error check]; rfl⟩
  | ok =>
    have bound := heap_bindParameters
      (((m.opened callee book).setMethod (m.heap.method? callee)).pushValue
        (m.heap.scope callee book).2) (m.heap.scope callee book).2 book
      (((m.heap.method? callee).map Method.params).getD [])
    rw [openScope_ok check]
    obtain ⟨heap, world, values, frames⟩ := m
    cases frames with
    | nil => exact bound
    | cons => exact bound

theorem change_call {t argument : Expr} : Change m f (m.call f t argument).heap := by
  rw [call]
  split
  · exact .none
  · exact .none
  · rw [withValue]
    split
    · exact .none
    · next book newest =>
      simp only [withValue]
      split
      · exact .none
      · next callee next =>
        obtain ⟨getter, params, same⟩ :=
          heap_enter ⟨m.heap, m.world, m.values.pop.pop, m.frames⟩ callee book
        rw [same]
        exact .enter (mem_of_mem_pop (Array.mem_of_back? next)) (Array.mem_of_back? newest)
          getter params
  · rw [withValue]
    split
    · exact .none
    · next scope _ =>
      simp only [runBody]
      split
      · exact .none
      · exact .none
  · exact .none

theorem change_integer (n : Int64) : Change m f (m.heap.newInteger n).1 :=
  .value (by simp) (Heap.plain_integer n) nofun

theorem change_real (x : Float) : Change m f (m.heap.newReal x).1 :=
  .value (by simp) (Heap.plain_real x) nofun

theorem change_text {bytes : Bytes} (wording : Wording m f bytes) :
    Change m f (m.heap.newText bytes).1 := by
  refine .value (by simp) (Heap.plain_text bytes) fun bytes' same => ?_
  cases same
  exact wording

/-- What a routine of the language leaves behind. -/
theorem change_realize {routine : Routine} {args : List (Option Ref)} {answer : Native.Answer}
    (answers : routine.answer m.heap args = .ok answer) :
    Change m f (answer.realize m.heap).1 := by
  cases answer with
  | box r => exact .none
  | nothing => exact .none
  | integer n => exact change_integer n
  | real x => exact change_real x
  | text bytes => exact change_text (.answer answers)

/-- A routine of the language answers from the heap as it is, and then makes the
box of its answer. -/
theorem run_routine {routine : Routine} (shipped : ∀ key, routine ≠ .host key)
    (args : List (Option Ref)) (h : Heap) (world : σ) :
    routine.run host args h world =
      match routine.answer h args with
      | .error failure => ⟨.error failure, h, world⟩
      | .ok answer => ⟨.ok (answer.realize h).2, (answer.realize h).1, world⟩ := by
  cases routine with
  | host key => exact absurd rfl (shipped key)
  | _ => rfl

theorem heap_run (host : Host σ) (routine : Routine) (args : List (Option Ref)) (h : Heap) (world : σ) :
    (∃ key, routine = .host key) ∨ (routine.run host args h world).heap = h ∨
      ∃ answer, routine.answer h args = .ok answer ∧
        (routine.run host args h world).heap = (answer.realize h).1 := by
  by_cases hosted : ∃ key, routine = .host key
  · exact .inl hosted
  · rw [run_routine fun key same => hosted ⟨key, same⟩]
    cases routine.answer h args with
    | error failure => exact .inr (.inl rfl)
    | ok answer => exact .inr (.inr ⟨answer, rfl, rfl⟩)

theorem change_native {x : String} {routine : Option Routine}
    (kind : f.expr = .native x routine) :
    Change m f (native host m f x routine).heap ∨
      HostCall host m f (native host m f x routine).heap := by
  rw [native]
  split
  · split
    · exact .inl .none
    · next r found =>
      have left : Change m f (r.run host (m.heap.arguments f.target) m.heap m.world).heap ∨
          HostCall host m f (r.run host (m.heap.arguments f.target) m.heap m.world).heap := by
        rcases heap_run host r (m.heap.arguments f.target) m.heap m.world with
          ⟨key, rfl⟩ | same | ⟨answer, answers, made⟩
        · exact .inr ⟨x, routine, key, _, kind, found, rfl⟩
        · rw [same]
          exact .inl .none
        · rw [made]
          exact .inl (change_realize answers)
      cases reply : r.run host (m.heap.arguments f.target) m.heap m.world with
      | mk result heap world =>
        rw [reply] at left
        simp only [reply]
        cases result with
        | error failure => exact left
        | ok value => exact left
  · exact .inl .none

/-- Every dispatch changes the heap in one of these ways, or leaves it to a
function of the embedding program. -/
theorem dispatch_change (host : Host σ) (m : Machine σ) (f : Frame) :
    Change m f (dispatch host m f).heap ∨ HostCall host m f (dispatch host m f).heap := by
  rw [dispatch]
  cases kind : f.expr with
  | sequence es => exact .inl change_sequence
  | name x => exact .inl change_name
  | member t x => exact .inl change_member
  | assign x value => exact .inl (change_assign kind)
  | assignMember t x value => exact .inl (change_assignMember kind)
  | call t argument => exact .inl change_call
  | box body => exact .inl change_box
  | method params body => exact .inl (change_method kind)
  | text bytes => exact .inl (change_leaf (change_text (.literal kind)))
  | integer n => exact .inl (change_leaf (change_integer n))
  | real x => exact .inl (change_leaf (change_real x))
  | list items => exact .inl change_list
  | native x routine => exact change_native kind
  | held r => exact .inl (change_leaf .none)
  | foreign kind shown => exact .inl .none
  | hole => exact .inl .none

end Kinds

/-! ## Runs -/

/-- The heap after one dispatch of the newest frame. -/
def heapAfter (host : Host σ) (m : Machine σ) : Heap :=
  match step host m with
  | .ok next => next.heap
  | .error (halted, _) => halted.heap

/-- Without frames nothing is dispatched. -/
theorem heapAfter_nil (host : Host σ) {m : Machine σ} (none : m.frames = []) :
    heapAfter host m = m.heap := by
  obtain ⟨heap, world, values, _⟩ := m
  cases none
  rfl

/-- A change does not look at the frames below, nor at how often the newest one
has been dispatched. -/
theorem Change.of_frames {heap h : Heap} {world : σ} {values : Array Ref} {f : Frame}
    {frames : List Frame} (frames' : List Frame)
    (change : Change ⟨heap, world, values, frames⟩ f h) :
    Change ⟨heap, world, values, frames'⟩ f h := by
  cases change with
  | none => exact .none
  | bind binds free => exact .bind binds free
  | bare method literal => exact .bare method literal
  | list held => exact .list held
  | value known plain wording =>
    refine .value known plain fun bytes text => ?_
    cases wording bytes text with
    | literal kind => exact .literal kind
    | answer answers => exact .answer answers
  | enter heldCallee heldBook getter params =>
    exact Change.enter (m := ⟨heap, world, values, frames'⟩) heldCallee heldBook getter params

/-- What is true of the method and the payload of every box stays true if it is
true of method literals and of new values. -/
theorem Change.throughout {P : Option Method → Payload → Prop} (usual : Heap.Usual P)
    {m : Machine σ} {f : Frame} {h : Heap} (change : Change m f h)
    (literal : ∀ method : Method, f.expr = .method method.params method.body →
      P (some method) .none)
    (value : ∀ payload, Heap.Plain payload →
      (∀ bytes, payload = .text bytes → Wording m f bytes) → P .none payload)
    (all : m.heap.Throughout P) : h.Throughout P := by
  cases change with
  | none => exact all
  | bind _ _ => exact all.assign usual _ _ _
  | bare method isLiteral =>
    apply all.push usual
    cases method with
    | none => exact usual.empty
    | some method => exact literal method (isLiteral method rfl)
  | list _ => exact all.newList usual _
  | value _ plain wording => exact all.newWith usual _ (value _ plain wording)
  | enter _ _ getter params => exact (all.scope usual _ _).bindings usual getter 0 params

/-- One dispatch of the newest frame. -/
theorem heapAfter_change (host : Host σ) {m : Machine σ} {f : Frame} {frames : List Frame}
    (newest : m.frames = f :: frames) :
    Change m f (heapAfter host m) ∨ HostCall host m f (heapAfter host m) := by
  obtain ⟨heap, world, values, _⟩ := m
  cases newest
  have same : heapAfter host ⟨heap, world, values, f :: frames⟩ =
      (dispatch host ⟨heap, world, values, { f with step := f.step + 1 } :: frames⟩ f).heap := by
    rw [heapAfter, step]
    cases dispatch host ⟨heap, world, values, { f with step := f.step + 1 } :: frames⟩ f with
    | ok next => rfl
    | error halted => rfl
  rw [same]
  exact (dispatch_change host _ f).imp_left (.of_frames _)

theorem heap_stopped (halted : Halted σ) (e : Expr) : (stopped halted e).heap = halted.heap := by
  rw [stopped]
  split
  · rfl
  · rfl

section Relations

variable {R : Heap → Heap → Prop} {I : Machine σ → Prop} (refl : ∀ h, R h h)
  (trans : ∀ {a b c}, R a b → R b c → R a c) (one : ∀ m, I m → R m.heap (heapAfter host m))
  (again : ∀ m m', I m → step host m = .ok m' → I m')

include refl trans one again

/-- What relates the heaps before and after every dispatch relates those before
and after a run. `I` is an invariant of the states that are met. -/
theorem run_related (fuel : Nat) {m : Machine σ} (start : I m) :
    R m.heap (run host fuel m).heap := by
  induction fuel generalizing m with
  | zero =>
    rw [run]
    split
    · exact refl _
    · split
      · exact refl _
      · exact refl _
  | succ fuel ih =>
    have first := one m start
    rw [heapAfter] at first
    rw [run]
    split
    · exact refl _
    · split
      · exact refl _
      · cases next : step host m with
        | ok m' =>
          rw [next] at first
          exact trans first (ih (again m m' start next))
        | error error =>
          rw [next] at first
          simpa only [heap_stopped] using first

/-- It relates any two points of one run. -/
theorem run_related_of_le {k n : Nat} (le : k ≤ n) {m : Machine σ} (start : I m) :
    R (run host k m).heap (run host n m).heap := by
  induction k generalizing n m with
  | zero =>
    rw [heap_run_zero]
    exact run_related refl trans one again n start
  | succ k ih =>
    obtain ⟨n, rfl⟩ : ∃ j, n = j + 1 := ⟨n - 1, by omega⟩
    rw [run, run]
    split
    · exact refl _
    · split
      · exact refl _
      · cases next : step host m with
        | ok m' => exact ih (Nat.le_of_succ_le_succ le) (again m m' start next)
        | error error => exact refl _

end Relations

end BoxScript.Machine
