import BoxScript.Proofs.Machine.Balance
import BoxScript.Proofs.Expr.Occurrence

/-!
# What a dispatch makes of the two stacks

A dispatch concerns the newest frame and the values above its floor. The frame
pops, goes on, or waits for an expression to be evaluated: an operand against its
own target, the body of a box against the box, or the body of a method against
the scope, which a call has kept at its floor since it was entered. A call that
is entered waits for the assignments that bind its parameters on the scope.

The step lemma says this for every state that obeys the discipline of the value
stack, so what is to hold of all frames of a run need only be shown for these
few moves.
-/

set_option autoImplicit false

namespace BoxScript

namespace Frame

/-- A frame that is dispatched once more. -/
abbrev again (f : Frame) : Frame := { f with step := f.step + 1 }

/-- Whether a frame is that of a call with a scope whose body has not begun. -/
def entered (f : Frame) : Bool :=
  match f.expr, f.step with
  | .call _ _, 3 => true
  | _, _ => false

theorem entered_of_kind {f : Frame} (kind : ∀ t argument, f.expr ≠ .call t argument) :
    f.entered = false := by
  obtain ⟨target, e, step, floor, method⟩ := f
  cases e with
  | call t argument => exact absurd rfl (kind t argument)
  | _ => rfl

/-- A frame that binds a parameter on a scope to what a getter answers. -/
def Binds (scope : Ref) (floor : Nat) (f : Frame) : Prop :=
  ∃ param getter book,
    f = ⟨scope, .assign param (.call (.held getter) (.held book)), 0, floor, none⟩

end Frame

namespace Machine

/-- The values below a floor are there as they were. -/
structure Untouched (floor : Nat) (values kept : Array Ref) : Prop where
  size : floor ≤ kept.size
  same : ∀ i < floor, kept[i]? = values[i]?

/-- The expression that a frame waits for, and the target that it gets. -/
inductive Begins (heap : Heap) (values : Array Ref) (f : Frame) : Ref → Expr → Prop where
  | operand {e : Expr} (member : e ∈ f.expr.operands) : Begins heap values f f.target e
  | box {e : Expr} (literal : f.expr = .box (some e)) : Begins heap values f heap.size e
  | body {method : Method} {scope : Ref} {e : Expr} (entered : f.entered = true)
      (kept : values[f.floor]? = some scope) (found : f.method = some method)
      (body : method.body = some e) : Begins heap values f scope e

/-- The values and the frames after a dispatch of the newest frame. -/
inductive Turn (heap : Heap) (values : Array Ref) (f : Frame) (frames : List Frame) :
    Array Ref → List Frame → Prop where
  | pop : Turn heap values f frames values frames
  | stay {kept : Array Ref} (untouched : Untouched f.floor values kept)
      (outside : f.again.entered = false) : Turn heap values f frames kept (f.again :: frames)
  | wait {kept : Array Ref} {target : Ref} {e : Expr} (untouched : Untouched f.floor values kept)
      (outside : f.again.entered = false) (begins : Begins heap values f target e) :
      Turn heap values f frames kept (⟨target, e, 0, kept.size, none⟩ :: f.again :: frames)
  /-- The scope of a call is the first value above its floor. -/
  | enter {kept : Array Ref} {callee : Ref} {binding : List Frame}
      (untouched : Untouched f.floor values kept) (scope : kept[f.floor]? = some heap.size)
      (binds : ∀ g ∈ binding, g.Binds heap.size (f.floor + 1)) :
      Turn heap values f frames kept
        (binding ++ { f.again with method := heap.method? callee } :: frames)

variable {σ : Type} {host : Host σ}

/-- What a dispatch leads to is a turn of the newest frame. -/
def Turns (heap : Heap) (values : Array Ref) (f : Frame) (frames : List Frame) : Next σ → Prop
  | .ok m => Turn heap values f frames m.values m.frames
  | .error _ => True

/-! ## Values below a floor -/

namespace Untouched

variable {floor n : Nat} {values kept : Array Ref} {v : Ref}

theorem refl (inside : floor ≤ values.size) : Untouched floor values values :=
  ⟨inside, fun _ _ => rfl⟩

theorem push (v : Ref) (untouched : Untouched floor values kept) :
    Untouched floor values (kept.push v) := by
  refine ⟨?_, fun i below => ?_⟩
  · rw [Array.size_push]
    exact Nat.le_succ_of_le untouched.size
  · rw [Array.getElem?_push_lt (Nat.lt_of_lt_of_le below untouched.size),
      ← Array.getElem?_eq_getElem, untouched.same i below]

theorem lower {below : Nat} (le : below ≤ floor) (untouched : Untouched floor values kept) :
    Untouched below values kept :=
  ⟨Nat.le_trans le untouched.size, fun i inside =>
    untouched.same i (Nat.lt_of_lt_of_le inside le)⟩

/-- The newest value is taken off. -/
theorem taken (untouched : Untouched floor values (kept.push v)) (inside : floor ≤ kept.size) :
    Untouched floor values kept := by
  refine ⟨inside, fun i below => ?_⟩
  have old : i < kept.size := Nat.lt_of_lt_of_le below inside
  rw [← untouched.same i below, Array.getElem?_push_lt old, Array.getElem?_eq_getElem old]

theorem shrink (within : floor ≤ n) (inside : floor ≤ values.size) :
    Untouched floor values (values.shrink n) := by
  have size : floor ≤ (values.shrink n).size := by
    rw [Array.size_shrink]
    exact Nat.le_min.mpr ⟨within, inside⟩
  refine ⟨size, fun i below => ?_⟩
  rw [Array.getElem?_eq_getElem (Nat.lt_of_lt_of_le below size), Array.getElem_shrink,
    ← Array.getElem?_eq_getElem]

end Untouched

/-! ## The kinds of dispatches -/

section Kinds

variable {heap heap' : Heap} {world world' : σ} {values kept : Array Ref} {f : Frame}
  {frames : List Frame}

theorem Turns.pop : Turns heap values f frames (.ok (counted heap world values f frames).pop) :=
  Turn.pop

theorem Turns.part {e : Expr} (untouched : Untouched f.floor values kept)
    (outside : f.again.entered = false) (member : e ∈ f.expr.operands) :
    Turns heap values f frames (.ok ((counted heap' world' kept f frames).push f.target e)) :=
  .wait untouched outside (.operand member)

theorem Turns.store {r v : Ref} {x : String} (untouched : Untouched f.floor values kept)
    (outside : f.again.entered = false) :
    Turns heap values f frames ((counted heap' world' kept f frames).store r x v) := by
  rw [Machine.store]
  split
  · trivial
  · exact Turn.stay (untouched.push v) outside

variable (turn : Disciplined ⟨heap, world, values, f :: frames⟩)

include turn

theorem Disciplined.untouched : Untouched f.floor values values :=
  .refl (Nat.le_of_add_right_le turn.floor_le)

theorem sequence_turns {es : List Expr} (kind : f.expr = .sequence es) :
    Turns heap values f frames ((counted heap world values f frames).sequence f es) := by
  have outside : f.again.entered = false := Frame.entered_of_kind (by simp [kind])
  rw [sequence.eq_def]
  split
  · split
    · exact Turn.stay (turn.untouched.push _) outside
    · exact Turns.pop
  · split
    · next e part =>
      have member : e ∈ f.expr.operands := by
        rw [kind]
        exact List.mem_of_getElem? part
      exact .part (.shrink (Nat.le_refl _) turn.untouched.size) outside member
    · exact Turns.pop

theorem name_turns {x : String} (kind : f.expr = .name x) :
    Turns heap values f frames ((counted heap world values f frames).name f x) := by
  have outside : f.again.entered = false := Frame.entered_of_kind (by simp [kind])
  rw [name]
  split
  · split
    · exact Turn.stay (turn.untouched.push _) outside
    · trivial
  · exact Turns.pop

theorem member_turns {t : Expr} {x : String} (kind : f.expr = .member t x) :
    Turns heap values f frames ((counted heap world values f frames).member f t x) := by
  have outside : f.again.entered = false := Frame.entered_of_kind (by simp [kind])
  rw [member]
  split
  · exact .part turn.untouched outside (by simp [kind, Expr.operands, Expr.parts])
  · next now =>
    have owns : own f = 1 := by simp [own, kind, now]
    obtain ⟨others, r, rfl, -, -, above⟩ := turn.top (by omega)
    rw [withValue_push]
    simp only
    split
    · exact Turn.stay ((turn.untouched.taken (by omega)).push _) outside
    · trivial
  · exact Turns.pop

theorem assign_turns {x : String} {value : Expr} (kind : f.expr = .assign x value) :
    Turns heap values f frames ((counted heap world values f frames).assign f x value) := by
  have outside : f.again.entered = false := Frame.entered_of_kind (by simp [kind])
  rw [assign]
  split
  · exact .part turn.untouched outside (by simp [kind, Expr.operands, Expr.parts])
  · next now =>
    have owns : own f = 1 := by simp [own, kind, now]
    obtain ⟨others, v, rfl, -, -, above⟩ := turn.top (by omega)
    rw [withValue_push]
    exact .store (turn.untouched.taken (by omega)) outside
  · exact Turns.pop

theorem assignMember_turns {t value : Expr} {x : String} (kind : f.expr = .assignMember t x value) :
    Turns heap values f frames
      ((counted heap world values f frames).assignMember f t x value) := by
  have outside : f.again.entered = false := Frame.entered_of_kind (by simp [kind])
  rw [assignMember]
  split
  · exact .part turn.untouched outside (by simp [kind, Expr.operands, Expr.parts])
  · exact .part turn.untouched outside (by simp [kind, Expr.operands, Expr.parts])
  · next now =>
    obtain ⟨others, r, v, rfl, -, -, above⟩ := turn.two (by simp [own, kind, now])
    have newest : f.floor ≤ (others.push r).size := by
      rw [Array.size_push]
      exact Nat.le_succ_of_le above
    rw [withValue_push, withValue_push]
    exact .store ((turn.untouched.taken newest).taken above) outside
  · exact Turns.pop

theorem box_turns {body : Option Expr} (kind : f.expr = .box body) :
    Turns heap values f frames ((counted heap world values f frames).box f body) := by
  have outside : f.again.entered = false := Frame.entered_of_kind (by simp [kind])
  rw [box]
  split
  · cases body with
    | none => exact Turn.stay (turn.untouched.push _) outside
    | some e => exact Turn.wait (turn.untouched.push _) outside (.box kind)
  · exact Turn.stay (.shrink (Nat.le_succ _) turn.untouched.size) outside
  · exact Turns.pop

theorem method_turns {params : List String} {body : Option Expr}
    (kind : f.expr = .method params body) :
    Turns heap values f frames ((counted heap world values f frames).method f params body) := by
  have outside : f.again.entered = false := Frame.entered_of_kind (by simp [kind])
  rw [method]
  split
  · exact Turn.stay (turn.untouched.push _) outside
  · exact Turn.stay (.shrink (Nat.le_succ _) turn.untouched.size) outside
  · exact Turns.pop

theorem leaf_turns (value : Heap → Heap × Ref) (kind : ∀ t argument, f.expr ≠ .call t argument) :
    Turns heap values f frames ((counted heap world values f frames).leaf f value) := by
  rw [leaf]
  split
  · exact Turn.stay (turn.untouched.push _) (Frame.entered_of_kind kind)
  · exact Turns.pop

theorem list_turns {items : List Expr} (kind : f.expr = .list items) :
    Turns heap values f frames ((counted heap world values f frames).list f items) := by
  have outside : f.again.entered = false := Frame.entered_of_kind (by simp [kind])
  rw [list]
  split
  · next e part =>
    have member : e ∈ f.expr.operands := by
      rw [kind]
      exact List.mem_of_getElem? part
    exact .part turn.untouched outside member
  · split
    · exact Turn.stay ((Untouched.shrink (Nat.le_refl _) turn.untouched.size).push _) outside
    · exact Turns.pop

theorem native_turns {x : String} {routine : Option Routine} (kind : f.expr = .native x routine) :
    Turns heap values f frames (native host (counted heap world values f frames) f x routine) := by
  have outside : f.again.entered = false := Frame.entered_of_kind (by simp [kind])
  rw [native]
  split
  · split
    · trivial
    · simp only
      split
      · trivial
      · exact Turn.stay (turn.untouched.push _) outside
  · exact Turns.pop

end Kinds

/-! ## Calls -/

section Calls

variable {heap : Heap} {world : σ} {values : Array Ref} {f : Frame} {frames : List Frame}
  {t argument : Expr}

/-- Binding the parameters leaves the values alone and puts one frame for each on
top of those that are there. -/
theorem bindParameters_frames {m next : Machine σ} {scope book : Ref} {params : List String}
    (bound : m.bindParameters scope book params = .ok next) :
    next.values = m.values ∧ ∃ binding, next.frames = binding ++ m.frames ∧
      ∀ g ∈ binding, g.Binds scope m.values.size := by
  rw [bindParameters.eq_def] at bound
  split at bound
  · cases bound
    exact ⟨rfl, [], rfl, nofun⟩
  · split at bound
    · cases bound
    · next getter _ =>
      cases bound
      rw [pushBindings_eq]
      refine ⟨rfl, _, rfl, fun g member => ?_⟩
      obtain ⟨e, isBinding, rfl⟩ := List.mem_map.mp (List.mem_reverse.mp member)
      obtain ⟨param, book, rfl⟩ := bindings_call _ _ _ _ e isBinding
      exact ⟨param, getter, book, rfl⟩

/-- A call that is entered leaves its scope as the newest value and keeps the
method. -/
theorem enter_frames {m next : Machine σ} {g : Frame} {callee book : Ref}
    (newest : m.frames = g :: frames) (entered : m.enter callee book = .ok next) :
    next.values = m.values.push m.heap.size ∧ ∃ binding,
      next.frames = binding ++ { g with method := m.heap.method? callee } :: frames ∧
      ∀ b ∈ binding, b.Binds m.heap.size (m.values.size + 1) := by
  rw [enter] at entered
  cases check : checkArguments (m.heap.scope callee book).1 (m.heap.method? callee) book with
  | error cause =>
    rw [openScope_error check] at entered
    cases entered
  | ok =>
    rw [openScope_ok check] at entered
    obtain ⟨values, binding, frames, binds⟩ := bindParameters_frames entered
    obtain ⟨heap, world, others, _⟩ := m
    cases newest
    simp only [setMethod, pushValue, Array.size_push] at values frames binds
    exact ⟨values, binding, frames, binds⟩

theorem enter_turns {kept : Array Ref} (untouched : Untouched f.floor values kept)
    (base : kept.size = f.floor) (callee book : Ref) :
    Turns heap values f frames ((counted heap world kept f frames).enter callee book) := by
  cases entered : (counted heap world kept f frames).enter callee book with
  | error halted => trivial
  | ok next =>
    obtain ⟨after, binding, above, binds⟩ := enter_frames rfl entered
    simp only [base] at binds
    rw [Turns, after, above]
    exact .enter (untouched.push _) (by rw [← base, Array.getElem?_push_size]) binds

/-- The scope is at the floor of a call that has been entered. -/
theorem runBody_turns {kept : Array Ref} {scope : Ref} (kind : f.expr = .call t argument)
    (now : f.step = 3) (untouched : Untouched f.floor values kept)
    (isScope : values[f.floor]? = some scope) :
    Turns heap values f frames
      (.ok ((counted heap world kept f frames).runBody f.method scope)) := by
  have outside : f.again.entered = false := by simp [Frame.entered, kind, now]
  rw [runBody]
  split
  · exact Turn.stay (untouched.push _) outside
  · next e body =>
    obtain ⟨method, found, has⟩ := Option.bind_eq_some_iff.mp body
    exact Turn.wait untouched outside (.body (by simp [Frame.entered, kind, now]) isScope found has)

theorem call_turns (turn : Disciplined ⟨heap, world, values, f :: frames⟩)
    (kind : f.expr = .call t argument) :
    Turns heap values f frames ((counted heap world values f frames).call f t argument) := by
  have base := turn.base (by simp [kind])
  rw [call]
  split
  · next now =>
    exact .part turn.untouched (by simp [Frame.entered, kind, now])
      (by simp [kind, Expr.operands, Expr.parts])
  · next now =>
    exact .part turn.untouched (by simp [Frame.entered, kind, now])
      (by simp [kind, Expr.operands, Expr.parts])
  · next now =>
    obtain ⟨others, callee, book, rfl, -, size, above⟩ := turn.two (by simp [own, kind, now])
    have newest : f.floor ≤ (others.push callee).size := by
      rw [Array.size_push]
      exact Nat.le_succ_of_le above
    rw [withValue_push, withValue_push]
    exact enter_turns ((turn.untouched.taken newest).taken above) (size.trans base.symm) callee book
  · next now =>
    have owned : 1 ≤ own f := by simp [own, kind, now]
    have inside := turn.floor_le
    have size : (values.shrink (f.floor + 1)).size = f.floor + 1 := by
      rw [Array.size_shrink]
      omega
    obtain ⟨others, scope, trimmed⟩ := Array.exists_push_of_size_eq_add_one size
    have below : others.size = f.floor := by
      rw [trimmed, Array.size_push] at size
      omega
    have untouched : Untouched (f.floor + 1) values (others.push scope) := by
      rw [← trimmed]
      exact .shrink (Nat.le_refl _) (by omega)
    have isScope : values[f.floor]? = some scope := by
      rw [← untouched.same _ (Nat.lt_succ_self _), ← below, Array.getElem?_push_size]
    have kept := (untouched.lower (Nat.le_succ _)).taken (Nat.le_of_eq below.symm)
    rw [trim, trimmed, withValue_push]
    exact runBody_turns kind now kept isScope
  · exact Turns.pop

end Calls

/-! ## One dispatch -/

theorem dispatch_turns (host : Host σ) {heap : Heap} {world : σ} {values : Array Ref} {f : Frame}
    {frames : List Frame} (turn : Disciplined ⟨heap, world, values, f :: frames⟩) :
    Turns heap values f frames (dispatch host (counted heap world values f frames) f) := by
  rw [dispatch]
  cases kind : f.expr with
  | sequence es => exact sequence_turns turn kind
  | name x => exact name_turns turn kind
  | member t x => exact member_turns turn kind
  | assign x value => exact assign_turns turn kind
  | assignMember t x value => exact assignMember_turns turn kind
  | call t argument => exact call_turns turn kind
  | box body => exact box_turns turn kind
  | method params body => exact method_turns turn kind
  | text bytes => exact leaf_turns turn _ (by simp [kind])
  | integer n => exact leaf_turns turn _ (by simp [kind])
  | real x => exact leaf_turns turn _ (by simp [kind])
  | list items => exact list_turns turn kind
  | native x routine => exact native_turns turn kind
  | held r => exact leaf_turns turn _ (by simp [kind])
  | foreign kind shown => trivial
  | hole => trivial

/-- What one dispatch makes of the two stacks. -/
theorem step_turn {m next : Machine σ} {f : Frame} {frames : List Frame}
    (disciplined : Disciplined m) (newest : m.frames = f :: frames)
    (one : step host m = .ok next) : Turn m.heap m.values f frames next.values next.frames := by
  obtain ⟨heap, world, values, _⟩ := m
  cases newest
  have turns := dispatch_turns host disciplined
  rw [step] at one
  split at one
  · next dispatched =>
    cases one
    rwa [dispatched] at turns
  · cases one

end Machine

end BoxScript
