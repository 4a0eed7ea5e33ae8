import BoxScript.Proofs.Machine.Succession
import BoxScript.Proofs.Machine.Retained
import BoxScript.Proofs.Heap.Nulls

/-!
# Entering a call

Once its target and its argument book are evaluated, a call makes its scope and
checks the arguments in one dispatch. If the check fails, so does the call, and
no box but the new ones has changed. Otherwise the scope is the newest value,
and the frames that bind the parameters are pushed above the call, each with a
list that holds the position of its parameter. When none of them is left, the
next dispatch of the call starts the body, and what the body comes to is what
the call comes to.
-/

set_option autoImplicit false

namespace BoxScript

open Recursive

/-! ## Scopes and positions -/

namespace Heap

variable {h : Heap}

theorem isSealed_of_le {r : Ref} (young : Canon.globals ≤ r) : Canon.isSealed r = false := by
  rw [← Bool.not_eq_true]
  intro isSealed
  exact Nat.not_lt.mpr young (lt_globals_of_isSealed isSealed)

theorem get?_assign_self {r v : Ref} {x : String} (inside : r < h.size) :
    (h.assign r x v).get? r x = if h.isNull v then none else some v := by
  rw [assign]
  split
  · rw [get?, unbind, box_updateVars_self inside]
    exact Vars.lookup_erase_self
  · rw [get?, bind, box_updateVars_self inside]
    exact Vars.lookup_set_self

theorem lt_size_of_get? {r v : Ref} {x : String} (found : h.get? r x = some v) : r < h.size := by
  apply Nat.lt_of_not_le
  intro outside
  rw [get?, box_of_le outside] at found
  cases found

/-- What a name is bound to on the scope of a call that binds no parameter of
that name: `components` to a list, `arguments` to a book that is not null. -/
def scopeVar (h : Heap) (components book : Ref) (x : String) : Option Ref :=
  if x = componentsName then some components
  else if x = argumentsName ∧ h.isNull book = false then some book
  else none

section Scopes

variable {callee book : Ref}

theorem box_scope_components :
    (h.scope callee book).1.box (h.size + 1) = listBox (h.size + 1) [callee] := by
  rw [box_scope_of_ne h callee book (Nat.succ_ne_self _), box_newWith_components]

theorem get?_scope_arguments : (h.scope callee book).1.get? h.size argumentsName =
    if (h.newWith [callee] .none).1.isNull book then none else some book := by
  refine get?_assign_self ?_
  rw [size_newWith]
  exact Nat.lt_add_of_pos_right (by decide)

theorem get?_scope (closed : h.Closed) (inside : book < h.size) (x : String) :
    (h.scope callee book).1.get? h.size x = h.scopeVar (h.size + 1) book x := by
  rw [scopeVar]
  by_cases isArguments : x = argumentsName
  · subst isArguments
    have other : argumentsName ≠ componentsName := by decide
    rw [get?_scope_arguments, closed.isNull_of_keeps (keeps_newWith h callee .none) inside,
      if_neg other]
    cases h.isNull book <;> simp
  · have made : (h.newWith [callee] .none).1.get? h.size x =
        if x = componentsName then some (h.size + 1) else none := by
      rw [get?, box_newWith, Box.get?, List.lookup_cons]
      by_cases isComponents : x = componentsName
      · simp [isComponents]
      · simp [isComponents, beq_false_of_ne isComponents]
    refine (get?_assign_of_ne _ _ _ isArguments).trans (made.trans ?_)
    simp [isArguments]

end Scopes

/-- A list that holds a position, made after the box `first`. -/
structure HoldsPosition (h : Heap) (first list i : Nat) : Prop where
  younger : first < list
  made : list < h.size
  held : ∃ k : Nat, first < k ∧ k < h.size ∧ h.box list = listBox list [k] ∧
    (h.box k).payload = .integer (Int64.ofNat i)

/-- A list of one integer, a position. -/
def IsPosition (h : Heap) (list i : Nat) : Prop :=
  ∃ k, (h.box list).payload = .list [some k] ∧ (h.box k).payload = .integer (Int64.ofNat i)

theorem HoldsPosition.isPosition {h' : Heap} {first list i : Nat}
    (holds : h.HoldsPosition first list i) (later : h.Extends h') : h'.IsPosition list i := by
  obtain ⟨k, -, made, isList, isPosition⟩ := holds.held
  refine ⟨k, ?_, ?_⟩
  · rw [later.payload _ holds.made, isList]
    rfl
  · rw [later.payload k made, isPosition]

/-- A later heap in which no box but one may have changed. -/
structure KeepsBut (h h' : Heap) (r : Nat) : Prop where
  size : h.size ≤ h'.size
  same : ∀ q < h.size, q ≠ r → h'.box q = h.box q

theorem Keeps.but {h' : Heap} (keeps : h.Keeps h') (r : Nat) : h.KeepsBut h' r :=
  ⟨keeps.size, fun q inside _ => keeps.same q inside⟩

theorem keepsBut_assign (h : Heap) (r : Nat) (x : String) (v : Ref) :
    h.KeepsBut (h.assign r x v) r :=
  ⟨Nat.le_of_eq (size_assign ..).symm, fun _ _ other => box_assign_of_ne other _ _⟩

theorem KeepsBut.trans {h' h'' : Heap} {r : Nat} (first : h.KeepsBut h' r)
    (second : h'.KeepsBut h'' r) : h.KeepsBut h'' r where
  size := Nat.le_trans first.size second.size
  same q inside other := by
    rw [second.same q (Nat.lt_of_lt_of_le inside first.size) other, first.same q inside other]

theorem Keeps.trans_but {h' h'' : Heap} {r : Nat} (first : h.Keeps h') (second : h'.KeepsBut h'' r)
    (outside : h.size ≤ r) : h.Keeps h'' where
  size := Nat.le_trans first.size second.size
  same q inside := by
    rw [second.same q (Nat.lt_of_lt_of_le inside first.size)
      (Nat.ne_of_lt (Nat.lt_of_lt_of_le inside outside)), first.same q inside]

theorem HoldsPosition.keep {h' : Heap} {first list i : Nat} (holds : h.HoldsPosition first list i)
    (keeps : h.KeepsBut h' first) : h'.HoldsPosition first list i := by
  obtain ⟨k, younger, made, isList, isPosition⟩ := holds.held
  refine ⟨holds.younger, Nat.lt_of_lt_of_le holds.made keeps.size, k, younger,
    Nat.lt_of_lt_of_le made keeps.size, ?_, ?_⟩
  · rw [keeps.same _ holds.made (Nat.ne_of_gt holds.younger), isList]
  · rw [keeps.same k made (Nat.ne_of_gt younger), isPosition]

end Heap

/-- The expression that binds a parameter to what the getter answers for a book. -/
def Expr.binding (getter : Ref) (p : String × Ref) : Expr :=
  .assign p.1 (.call (.held getter) (.held p.2))

/-- The assignments of a call have books of their own, which hold the positions
of the parameters. -/
theorem bindings_books (getter : Ref) (first : Nat) (params : List String) (h : Heap) (i : Nat)
    (older : first < h.size) :
    ∃ books : List Ref, books.length = params.length ∧
      (bindings getter h i params).2 = (params.zip books).map (Expr.binding getter) ∧
      ∀ j l, books[j]? = some l → (bindings getter h i params).1.HoldsPosition first l (i + j) := by
  induction params generalizing h i with
  | nil => exact ⟨[], rfl, rfl, by simp⟩
  | cons param params ih =>
    let h₁ := (h.newInteger (Int64.ofNat i)).1
    let h₂ := (h₁.newList [h.size]).1
    have size₁ : h₁.size = h.size + 3 := Heap.size_newWith h _ _
    have size₂ : h₂.size = h₁.size + 2 := Heap.size_newList _ _
    have here : h₂.HoldsPosition first h₁.size i := by
      refine ⟨by omega, by omega, h.size, older, by omega, Heap.box_newList _ _, ?_⟩
      rw [(Heap.keeps_newList h₁ [h.size]).same _ (by omega)]
      exact congrArg Box.payload (Heap.box_newWith h _ _)
    obtain ⟨books, length, assignments, holds⟩ := ih h₂ (i + 1) (by omega)
    have keeps := Heap.keeps_bindings h₂ getter (i + 1) params
    refine ⟨h₁.size :: books, by simp [length], ?_, fun j l found => ?_⟩
    · rw [List.zip_cons_cons, List.map_cons, ← assignments]
      rfl
    · cases j with
      | zero =>
        cases found
        exact here.keep (keeps.but first)
      | succ j =>
        rw [Nat.add_comm j 1, ← Nat.add_assoc]
        exact holds j l found

/-! ## The states of a call -/

namespace Machine

variable {σ : Type} {host : Host σ}

/-- The target and the argument book of a call have been evaluated. -/
def Evaluated (host : Host σ) (m : Machine σ) (target : Ref) (t argument : Expr) (callee book : Ref)
    (s : Store σ) : Prop :=
  ∃ s', Ends host target t ⟨m.heap, m.world⟩ (.ok (callee, s')) ∧
    Ends host target argument s' (.ok (book, s))

/-- The frame of a call at one of its turns. -/
abbrev callFrame (m : Machine σ) (target : Ref) (t argument : Expr) (turn : Nat)
    (method : Option Method) : Frame :=
  ⟨target, .call t argument, turn, m.values.size, method⟩

/-- A call that is about to be entered, above the frames and values of a machine. -/
def calling (m : Machine σ) (target : Ref) (t argument : Expr) (callee book : Ref) (s : Store σ) :
    Machine σ :=
  s.machine ((m.values.push callee).push book)
    (m.callFrame target t argument 2 none :: m.frames)

/-- The frame that binds a parameter. -/
def bindingFrame (scope getter : Ref) (floor : Nat) (p : String × Ref) : Frame :=
  ⟨scope, .binding getter p, 0, floor, none⟩

/-- The frames of a call that was entered: those for the parameters that are still
to be bound, the next one first, and the call itself. -/
def waiting (m : Machine σ) (call : Frame) (scope getter : Ref) (pending : List (String × Ref)) :
    List Frame :=
  pending.map (bindingFrame scope getter (m.values.push scope).size) ++ call :: m.frames

/-- A call that was entered. The values above the scope are those of earlier
bindings. -/
def awaiting (m : Machine σ) (call : Frame) (scope getter : Ref) (pending : List (String × Ref))
    (bound : List Ref) (s : Store σ) : Machine σ :=
  s.machine (m.values.push scope ++ bound.toArray) (m.waiting call scope getter pending)

variable {m : Machine σ} {target callee book : Ref} {t argument : Expr} {s : Store σ}

theorem awaiting_nil (call : Frame) (scope getter : Ref) :
    m.awaiting call scope getter [] [] s = s.machine (m.values.push scope) (call :: m.frames) := by
  simp [awaiting, waiting]

theorem steps_calling (evaluated : Evaluated host m target t argument callee book s) :
    ∃ n, Steps host m.frames.length n (m.push target (.call t argument))
      (m.calling target t argument callee book s) := by
  obtain ⟨s', callees, books⟩ := evaluated
  let first : Machine σ := { m with
    frames := m.callFrame target t argument 1 none :: m.frames }
  let second : Machine σ := s'.machine (m.values.push callee)
    (m.callFrame target t argument 2 none :: m.frames)
  obtain ⟨n, targetRuns⟩ := steps_of_value (m := first) (.inl rfl) callees
  obtain ⟨k, argumentRuns⟩ := steps_of_value (m := second) (.inl rfl) books
  have starts : Steps host m.frames.length 1 (m.push target (.call t argument))
      (first.push target t) := .single (Nat.lt_succ_self _) rfl
  have goesOn : Steps host m.frames.length 1 (s'.machine (first.values.push callee) first.frames)
      (second.push target argument) := .single (Nat.lt_succ_self _) rfl
  exact ⟨_, (starts.trans (targetRuns.shallower (Nat.le_succ _))).trans
    (goesOn.trans (argumentRuns.shallower (Nat.le_succ _)))⟩

section Entering

variable {method : Option Method}

theorem dispatch_calling (frame : Frame) (kind : frame.expr = .call t argument)
    (turn : frame.step = 2) (values : Array Ref) (frames : List Frame) :
    dispatch host (s.machine ((values.push callee).push book) frames) frame =
      (s.machine values frames).openScope (s.heap.method? callee) callee book := by
  simp only [dispatch, kind, call, turn, withValue, Array.back?_push, Array.pop_push]
  rfl

/-- A call whose arguments do not pass the check fails. -/
theorem step_calling_error {cause : Cause} (check : checkArguments (s.heap.scope callee book).1
      (s.heap.method? callee) book = .error cause) :
    step host (m.calling target t argument callee book s) =
      .error (⟨.cause cause, (s.heap.scope callee book).1, s.world⟩, .call t argument) := by
  refine step_error (m.callFrame target t argument 2 none) ?_
  rw [dispatch_calling _ rfl rfl]
  exact openScope_error (m := s.machine m.values _) check

/-- The dispatch that would enter a call fails for a cause, and so does the call.
This dispatch has changed no box. -/
def Refused (host : Host σ) (m : Machine σ) (target : Ref) (t argument : Expr) (callee book : Ref)
    (s : Store σ) (cause : Cause) : Prop :=
  ∃ h, s.heap.Keeps h ∧
    (∃ n, Steps host m.frames.length n (m.push target (.call t argument))
      (m.calling target t argument callee book s)) ∧
    step host (m.calling target t argument callee book s) =
      .error (⟨.cause cause, h, s.world⟩, .call t argument) ∧
    Ends host target (.call t argument) ⟨m.heap, m.world⟩
      (.error (⟨.cause cause, h, s.world⟩, .call t argument))

theorem refused (evaluated : Evaluated host m target t argument callee book s) {cause : Cause}
    (check : checkArguments (s.heap.scope callee book).1 (s.heap.method? callee) book =
      .error cause) : Refused host m target t argument callee book s cause := by
  obtain ⟨n, reaches⟩ := steps_calling evaluated
  have failing : step host (m.calling target t argument callee book s) = _ :=
    step_calling_error check
  exact ⟨_, s.heap.keeps_scope callee book, ⟨n, reaches⟩, failing,
    ends_error_iff.mpr ⟨n, _, reaches, Nat.lt_succ_self _, failing⟩⟩

theorem step_calling_ok {next : Machine σ} (resolves : s.heap.method? callee = method)
    (check : checkArguments (s.heap.scope callee book).1 method book = .ok ())
    (binds : bindParameters (σ := σ) ⟨(s.heap.scope callee book).1, s.world,
      m.values.push s.heap.size, m.callFrame target t argument 3 method :: m.frames⟩
      s.heap.size book ((method.map Method.params).getD []) = .ok next) :
    step host (m.calling target t argument callee book s) = .ok next := by
  refine step_ok (m.callFrame target t argument 2 none) ?_
  rw [dispatch_calling _ rfl rfl, resolves]
  exact (openScope_ok (m := s.machine m.values _) check).trans binds

/-- A call without parameters is entered. -/
theorem step_calling_bare (resolves : s.heap.method? callee = method)
    (check : checkArguments (s.heap.scope callee book).1 method book = .ok ())
    (bare : (method.map Method.params).getD [] = []) (getter : Ref) :
    step host (m.calling target t argument callee book s) =
      .ok (m.awaiting (m.callFrame target t argument 3 method) s.heap.size getter [] []
        ⟨(s.heap.scope callee book).1, s.world⟩) := by
  refine step_calling_ok resolves check ?_
  rw [bare, awaiting_nil]
  rfl

/-- A call with parameters is entered: each gets a list with its position and a
frame that calls the getter with it, the last parameter on top. -/
theorem step_calling_bind {method : Method} {getter : Ref}
    (resolves : s.heap.method? callee = some method)
    (check : checkArguments (s.heap.scope callee book).1 (some method) book = .ok ())
    (found : s.heap.get? book getName = some getter) :
    ∃ h books, (s.heap.scope callee book).1.Keeps h ∧ books.length = method.params.length ∧
      (∀ i l, books[i]? = some l → h.HoldsPosition s.heap.size l i) ∧
      step host (m.calling target t argument callee book s) =
        .ok (m.awaiting (m.callFrame target t argument 3 (some method)) s.heap.size getter
          (method.params.zip books).reverse [] ⟨h, s.world⟩) := by
  let h := (s.heap.scope callee book).1
  have fresh : s.heap.size < h.size := by
    rw [s.heap.size_scope]
    exact Nat.lt_add_of_pos_right (by decide)
  have found' : h.get? book getName = some getter := by
    rw [(s.heap.keeps_scope callee book).get? (Heap.lt_size_of_get? found), found]
  obtain ⟨books, length, assignments, holds⟩ :=
    bindings_books getter s.heap.size method.params h 0 fresh
  refine ⟨(bindings getter h 0 method.params).1, books, h.keeps_bindings getter 0 _, length,
    fun i l isBook => by simpa using holds i l isBook, step_calling_ok resolves check ?_⟩
  cases params : method.params with
  | nil => simp [params, bindParameters, bindings, awaiting, waiting, h]
  | cons param rest =>
    rw [params] at assignments
    simp only [Option.map_some, Option.getD_some, params, bindParameters]
    simp only [show (s.heap.scope callee book).1.get? book getName = some getter from found']
    rw [pushBindings_eq, assignments, ← List.map_reverse, ← List.map_reverse, List.map_map, awaiting,
      waiting, Array.append_empty]
    rfl

/-- When all parameters are bound, the body is evaluated against the scope, where
the call was. -/
theorem step_awaiting (scope getter : Ref) (bound : List Ref) :
    step host (m.awaiting (m.callFrame target t argument 3 method) scope getter []
        bound s) =
      .ok ((s.machine m.values (m.callFrame target t argument 4 method ::
        m.frames)).runBody method scope) := by
  simp [awaiting, waiting, step, dispatch, call, trim, withValue]

end Entering

/-! ## What a call comes to -/

/-- The body of a call's method starts on a scope with this store, and the call
comes to what the body comes to. Without a body, the call comes to null. -/
def RunsBody (host : Host σ) (m : Machine σ) (target : Ref) (t argument : Expr)
    (method : Option Method) (scope : Ref) (s : Store σ) : Prop :=
  match method.bind Method.body with
  | some body =>
    (∃ n, Steps host m.frames.length n (m.push target (.call t argument))
      (.push (s.machine m.values (m.callFrame target t argument 4 method :: m.frames)) scope body)) ∧
    ∀ result, Ends host target (.call t argument) ⟨m.heap, m.world⟩ result ↔
      Ends host scope body s result
  | none => Ends host target (.call t argument) ⟨m.heap, m.world⟩ (.ok (Canon.nullValue, s))

/-- An expression whose dispatches come down to those of another, with only a
frame in between that passes the value on, comes to what that one comes to. -/
theorem ends_iff_of_steps {n : Nat} {h : Heap} {world : σ} {f : Frame} {target' : Ref} {e e' : Expr}
    (reaches : Steps host m.frames.length n (m.push target e)
      (push ⟨h, world, m.values, f :: m.frames⟩ target' e'))
    (passes : ∀ (s : Store σ) v, step host (s.machine (m.values.push v) (f :: m.frames)) =
      .ok (s.machine (m.values.push v) m.frames))
    (result : Except (Halted σ × Expr) (Ref × Store σ)) :
    Ends host target e ⟨m.heap, m.world⟩ result ↔ Ends host target' e' ⟨h, world⟩ result := by
  let inner : Machine σ := ⟨h, world, m.values, f :: m.frames⟩
  have deep : m.frames.length < inner.frames.length := Nat.lt_succ_self _
  have forth (result : Except (Halted σ × Expr) (Ref × Store σ))
      (ends : Ends host target' e' ⟨h, world⟩ result) :
      Ends host target e ⟨m.heap, m.world⟩ result := by
    cases result with
    | ok value =>
      obtain ⟨k, returns⟩ := steps_of_value (m := inner) (.inl rfl) ends
      exact ends_value_iff.mpr ⟨_, (reaches.trans (returns.shallower (Nat.le_of_lt deep))).trans
        (.single deep (passes value.2 value.1))⟩
    | error error =>
      have stops := stops_of_error (m := inner) (.inl rfl) ends
      exact ends_error_iff.mpr (.after reaches (stops.shallower (Nat.le_of_lt deep)))
  refine ⟨fun ends => ?_, forth result⟩
  by_cases settled : ∃ result', Ends host target' e' ⟨h, world⟩ result'
  · obtain ⟨result', ends'⟩ := settled
    rwa [ends.unique (forth result' ends')]
  · -- If the inner expression never ends, neither does the outer one.
    have never : ∀ k, eval host k target' e' ⟨h, world⟩ = none := by
      intro k
      apply Option.eq_none_iff_forall_ne_some.mpr
      exact fun result' found => settled ⟨result', k, found⟩
    have forever : ∀ k, eval host k target e ⟨m.heap, m.world⟩ = none := by
      refine never_ends_iff.mpr fun k => ?_
      obtain ⟨last, more⟩ := never_ends_iff (m := inner) |>.mp never k
      exact (reaches.trans (more.shallower (Nat.le_of_lt deep))).take (Nat.le_add_left k n)
    obtain ⟨k, found⟩ := ends
    rw [forever k] at found
    cases found

theorem runsBody_of_steps {method : Option Method} {scope : Ref} {n : Nat}
    (reaches : Steps host m.frames.length n (m.push target (.call t argument))
      ((s.machine m.values (m.callFrame target t argument 4 method :: m.frames)).runBody method
        scope)) : RunsBody host m target t argument method scope s := by
  rw [RunsBody]
  rw [runBody] at reaches
  split at reaches
  · next noBody =>
    rw [noBody]
    exact ends_value_iff.mpr ⟨_, reaches.trans (.single (Nat.lt_succ_self _) rfl)⟩
  · next body hasBody =>
    rw [hasBody]
    exact ⟨⟨n, reaches⟩, ends_iff_of_steps reaches fun _ _ => rfl⟩

end Machine

end BoxScript
