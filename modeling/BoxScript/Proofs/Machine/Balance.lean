import BoxScript.Proofs.Machine.Agreement

/-!
# The discipline of the value stack

Every frame owns the values above some base. How many it owns when it is its
turn depends on its expression and its step alone, and when it pops it has
exactly one. So the frames of a state determine how many values there are, and
the number never differs from what they determine.

The frames that bind the parameters of a call are the exception to "the base is
the floor": they are pushed together, with one floor, and each runs above the
values that the ones before it have left. Hence the call owns its scope and one
value for each parameter while they run, and trims them away afterwards.
-/

set_option autoImplicit false

namespace BoxScript.Machine

variable {σ : Type}

/-! ## Dispatches that look before they take -/

/-- Takes the newest value off, provided that it lies above a floor. -/
def takeAbove (floor : Nat) (m : Machine σ) (next : Ref → Machine σ → Option (Next σ)) :
    Option (Next σ) :=
  if floor < m.values.size then
    m.values.back?.bind fun v => next v ⟨m.heap, m.world, m.values.pop, m.frames⟩
  else none

/-- Removes all values but the first `n`, provided that there are so many and
that a floor is among them. -/
def trimWithin (floor n : Nat) (m : Machine σ) (next : Machine σ → Option (Next σ)) :
    Option (Next σ) :=
  if floor ≤ n ∧ n ≤ m.values.size then next (m.trim n) else none

/-- A dispatch that gives up rather than take a value below the frame's floor
or trim to more values than there are. The dispatches that do neither are as
they were. -/
def carefulDispatch (host : Host σ) (m : Machine σ) (f : Frame) : Option (Next σ) :=
  match f.expr, f.step with
  | .sequence es, k =>
    match es[k]? with
    | some e => trimWithin f.floor f.floor m fun m => some (.ok (m.push f.target e))
    | none => some (m.sequence f es)
  | .member _ x, 1 =>
    takeAbove f.floor m fun t m => some <|
      match m.heap.get? t x with
      | some v => .ok (m.pushValue v)
      | none => m.fail (.undefined x)
  | .assign x _, 1 => takeAbove f.floor m fun v m => some (m.store f.target x v)
  | .assignMember _ x _, 2 =>
    takeAbove f.floor m fun v m => takeAbove f.floor m fun t m => some (m.store t x v)
  | .call _ _, 2 =>
    takeAbove f.floor m fun book m =>
      takeAbove f.floor m fun callee m => some (m.enter callee book)
  | .call _ _, 3 =>
    trimWithin f.floor (f.floor + 1) m fun m =>
      takeAbove f.floor m fun scope m => some (.ok (m.runBody f.method scope))
  | .box _, 1 => trimWithin f.floor (f.floor + 1) m fun m => some (.ok m)
  | .method _ _, 1 => trimWithin f.floor (f.floor + 1) m fun m => some (.ok m)
  | .list items, k =>
    if k = items.length then
      let above := (m.values.extract f.floor m.values.size).toList
      trimWithin f.floor f.floor m fun m =>
        let (m, l) := m.make fun h => h.newList above
        some (.ok (m.pushValue l))
    else some (m.list f items)
  | _, _ => some (dispatch host m f)

/-! ## What frames own -/

/-- How many values a frame owns when it is its turn. -/
def own (f : Frame) : Nat :=
  match f.expr, f.step with
  | _, 0 => 0
  | .assignMember _ _ _, 2 => 2
  | .call _ _, 2 => 2
  | .call _ _, 3 => 1 + ((f.method.map Method.params).getD []).length
  | .box (some _), 1 => 2
  | .list items, k => if k ≤ items.length then k else 1
  | _, _ => 1

/-- How many values there are when it is the turn of the first of these frames.
At the end there are two, the one at the bottom and the result. -/
def due : List Frame → Nat
  | [] => 2
  | f :: frames => due frames - 1 + own f

/-- How a frame stands on those below it. Its base is one less than what is due
to them, since it will leave one value. -/
structure Placed (f : Frame) (frames : List Frame) : Prop where
  fits : Fits f.expr f.floor (due frames - 1)
  below : f.floor < due frames
  positive : 1 ≤ f.floor
  ordered : ∀ g ∈ frames, g.floor ≤ f.floor
  fresh : f.step = 0 → f.method = none

/-- Every frame stands properly on those below it. -/
def Balanced : List Frame → Prop
  | [] => True
  | f :: frames => Placed f frames ∧ Balanced frames

/-- The invariant of evaluation. -/
structure Disciplined (m : Machine σ) : Prop where
  seed : m.values[0]? = some Canon.nullValue
  size : m.values.size = due m.frames
  balanced : Balanced m.frames

/-! ## One dispatch -/

section Values

variable {heap : Heap} {world : σ} {values : Array Ref} {frames : List Frame} {v : Ref}
  {floor n : Nat}

theorem seed_push (seed : values[0]? = some Canon.nullValue) :
    (values.push v)[0]? = some Canon.nullValue := by
  obtain ⟨inside, same⟩ := Array.getElem?_eq_some_iff.mp seed
  rw [Array.getElem?_push_lt inside, same]

theorem seed_of_push (seed : (values.push v)[0]? = some Canon.nullValue) (kept : 0 < values.size) :
    values[0]? = some Canon.nullValue := by
  rwa [Array.getElem?_push, if_neg (by omega)] at seed

theorem seed_shrink (seed : values[0]? = some Canon.nullValue) (kept : 0 < n) :
    (values.shrink n)[0]? = some Canon.nullValue := by
  obtain ⟨inside, same⟩ := Array.getElem?_eq_some_iff.mp seed
  have still : 0 < (values.shrink n).size := by
    rw [Array.size_shrink]
    omega
  rw [Array.getElem?_eq_getElem still, Array.getElem_shrink, same]

theorem takeAbove_push (above : floor ≤ values.size)
    (next : Ref → Machine σ → Option (Next σ)) :
    takeAbove floor ⟨heap, world, values.push v, frames⟩ next =
      next v ⟨heap, world, values, frames⟩ := by
  simp [takeAbove, Nat.lt_succ_of_le above]

theorem withValue_push (next : Ref → Machine σ → Next σ) :
    withValue ⟨heap, world, values.push v, frames⟩ next = next v ⟨heap, world, values, frames⟩ := by
  simp [withValue]

end Values

section Turns

variable {host : Host σ} {heap : Heap} {world : σ} {values : Array Ref} {f waiting : Frame}
  {frames : List Frame}

/-- A frame that is dispatched once more stands as it stood. -/
theorem Placed.again (method : Option Method) (placed : Placed f frames) :
    Placed { f with step := f.step + 1, method } frames :=
  ⟨placed.fits, placed.below, placed.positive, placed.ordered, nofun⟩

/-- A frame's floor is not above its base. -/
theorem Disciplined.floor_le (turn : Disciplined ⟨heap, world, values, f :: frames⟩) :
    f.floor + own f ≤ values.size := by
  have size : values.size = due frames - 1 + own f := turn.size
  have below := turn.balanced.1.below
  omega

/-- A frame that owns a value finds it on top. -/
theorem Disciplined.top (turn : Disciplined ⟨heap, world, values, f :: frames⟩)
    (owns : 0 < own f) :
    ∃ (others : Array Ref) (v : Ref), values = others.push v ∧ others[0]? = some Canon.nullValue ∧
      others.size + 1 = due frames - 1 + own f ∧ f.floor + own f ≤ others.size + 1 := by
  have floor := turn.floor_le
  have positive := turn.balanced.1.positive
  obtain ⟨others, v, rfl⟩ := @Array.exists_push_of_size_pos _ values (by omega)
  rw [Array.size_push] at floor
  have size := turn.size
  rw [Array.size_push] at size
  exact ⟨others, v, rfl, seed_of_push turn.seed (by omega), size, floor⟩

theorem Disciplined.two (turn : Disciplined ⟨heap, world, values, f :: frames⟩)
    (owns : own f = 2) :
    ∃ (others : Array Ref) (u v : Ref), values = (others.push u).push v ∧
      others[0]? = some Canon.nullValue ∧ others.size = due frames - 1 ∧
      f.floor ≤ others.size := by
  obtain ⟨more, v, rfl, seed, size, above⟩ := turn.top (by omega)
  have positive := turn.balanced.1.positive
  obtain ⟨others, u, rfl⟩ := @Array.exists_push_of_size_pos _ more (by omega)
  rw [Array.size_push] at size above
  exact ⟨others, u, v, rfl, seed_of_push seed (by omega), by omega, by omega⟩

/-- A new frame for a part, once the waiting frame counts its value. -/
theorem Disciplined.part {target : Ref} {e : Expr} (placed : Placed waiting frames)
    (rest : Balanced frames) (seed : values[0]? = some Canon.nullValue)
    (above : waiting.floor ≤ values.size)
    (size : values.size + 1 = due frames - 1 + own waiting) :
    Disciplined (push ⟨heap, world, values, waiting :: frames⟩ target e) := by
  have waits : due (waiting :: frames) = values.size + 1 := size.symm
  refine ⟨seed, ?_, ⟨.inl ?_, ?_, ?_, ?_, fun _ => rfl⟩, placed, rest⟩
  · simp [push, due.eq_2 _ (waiting :: frames), waits, own]
  · simp [waits]
  · simp [waits]
  · exact Nat.le_trans placed.positive above
  · intro g member
    rcases List.mem_cons.mp member with rfl | member
    · exact above
    · exact Nat.le_trans (placed.ordered g member) above

/-- A dispatch has no need to be careful, and keeps the invariant. -/
def Kept (host : Host σ) (m : Machine σ) (f : Frame) : Prop :=
  carefulDispatch host m f = some (dispatch host m f) ∧
    ∀ next, dispatch host m f = .ok next → Disciplined next

namespace Kept

variable {m next : Machine σ}

theorem of_ok (careful : carefulDispatch host m f = some (dispatch host m f))
    (plain : dispatch host m f = .ok next) (disciplined : Disciplined next) : Kept host m f := by
  refine ⟨careful, ?_⟩
  intro next' ok
  rw [plain] at ok
  cases ok
  exact disciplined

theorem of_error {halted : Halted σ} (careful : carefulDispatch host m f = some (dispatch host m f))
    (plain : dispatch host m f = .error halted) : Kept host m f := by
  refine ⟨careful, ?_⟩
  intro next' ok
  rw [plain] at ok
  cases ok

end Kept

/-- The machine that dispatches a frame, which has been counted. -/
abbrev counted (heap : Heap) (world : σ) (values : Array Ref) (f : Frame) (frames : List Frame) :
    Machine σ :=
  ⟨heap, world, values, { f with step := f.step + 1 } :: frames⟩

variable (turn : Disciplined ⟨heap, world, values, f :: frames⟩)

include turn

/-- A frame may pop once it owns one value. -/
theorem Kept.pops (owns : own f = 1)
    (careful : carefulDispatch host (counted heap world values f frames) f =
      some (dispatch host (counted heap world values f frames) f))
    (plain : dispatch host (counted heap world values f frames) f =
      .ok ⟨heap, world, values, frames⟩) :
    Kept host (counted heap world values f frames) f := by
  have size : values.size = due frames - 1 + own f := turn.size
  have below := turn.balanced.1.below
  exact .of_ok careful plain ⟨turn.seed, by simp only; omega, turn.balanced.2⟩

/-- A frame may push a frame for a part if it owns one value more next time. -/
theorem Kept.pushes (target : Ref) (e : Expr)
    (owns : own { f with step := f.step + 1 } = own f + 1)
    (careful : carefulDispatch host (counted heap world values f frames) f =
      some (dispatch host (counted heap world values f frames) f))
    (plain : dispatch host (counted heap world values f frames) f =
      .ok ((counted heap world values f frames).push target e)) :
    Kept host (counted heap world values f frames) f := by
  have size : values.size = due frames - 1 + own f := turn.size
  have floor := turn.floor_le
  exact .of_ok careful plain (.part (turn.balanced.1.again f.method) turn.balanced.2 turn.seed
    (by simp only; omega) (by omega))

/-- So it may if it leaves a value itself. -/
theorem Kept.leaves (heap' : Heap) (world' : σ) (v : Ref)
    (owns : own { f with step := f.step + 1 } = own f + 1)
    (careful : carefulDispatch host (counted heap world values f frames) f =
      some (dispatch host (counted heap world values f frames) f))
    (plain : dispatch host (counted heap world values f frames) f =
      .ok (counted heap' world' (values.push v) f frames)) :
    Kept host (counted heap world values f frames) f := by
  have size : values.size = due frames - 1 + own f := turn.size
  refine .of_ok careful plain ⟨seed_push turn.seed, ?_, turn.balanced.1.again f.method,
    turn.balanced.2⟩
  simp only [Array.size_push, due]
  omega

/-- A frame whose base is its floor has its own values above the floor. -/
theorem Disciplined.base (plain : ∀ x value, f.expr ≠ .assign x value) :
    f.floor = due frames - 1 := by
  rcases turn.balanced.1.fits with same | ⟨x, value, isAssign⟩
  · exact same
  · exact absurd isAssign (plain x value)

/-- A frame may trim its values to the first one. -/
theorem Kept.trims (plainly : ∀ x value, f.expr ≠ .assign x value)
    (owns : 0 < own f) (next : own { f with step := f.step + 1 } = 1)
    (careful : carefulDispatch host (counted heap world values f frames) f =
      trimWithin f.floor (f.floor + 1) (counted heap world values f frames) fun m => some (.ok m))
    (plain : dispatch host (counted heap world values f frames) f =
      .ok ((counted heap world values f frames).trim (f.floor + 1))) :
    Kept host (counted heap world values f frames) f := by
  have base := turn.base plainly
  have floor := turn.floor_le
  refine .of_ok ?_ plain ⟨seed_shrink turn.seed (by omega), ?_, turn.balanced.1.again f.method,
    turn.balanced.2⟩
  · rw [careful, plain, trimWithin, if_pos ⟨by omega, by simp only; omega⟩]
  · simp only [trim, due, Array.size_shrink]
    omega

omit turn in
/-- Binding a variable leaves the value, which has been taken off before. -/
theorem store_disciplined {others : Array Ref} {next : Machine σ} (r v : Ref) (x : String)
    (placed : Placed f frames) (rest : Balanced frames)
    (seed : others[0]? = some Canon.nullValue)
    (size : others.size + 1 = due frames - 1 + own { f with step := f.step + 1 })
    (stored : (counted heap world others f frames).store r x v = .ok next) : Disciplined next := by
  rw [store] at stored
  split at stored
  · cases stored
  · cases stored
    refine ⟨seed_push seed, ?_, placed.again f.method, rest⟩
    simp only [mapHeap, pushValue, Array.size_push, due]
    omega

end Turns

section Kinds

variable {host : Host σ} {heap : Heap} {world : σ} {values : Array Ref} {f : Frame}
  {frames : List Frame} (turn : Disciplined ⟨heap, world, values, f :: frames⟩)

include turn

theorem sequence_kept {es : List Expr} (kind : f.expr = .sequence es) :
    Kept host (counted heap world values f frames) f := by
  obtain ⟨target, _, step, floor, method⟩ := f
  cases kind
  match es, step with
  | [], 0 => exact .leaves turn heap world Canon.nullValue rfl rfl rfl
  | [], k + 1 => exact .pops turn (by simp [own]) rfl rfl
  | e :: es, k =>
    cases part : (e :: es)[k]? with
    | none =>
      have late : (e :: es).length ≤ k := List.getElem?_eq_none_iff.mp part
      obtain ⟨k, rfl⟩ := Nat.exists_eq_add_of_lt (Nat.lt_of_lt_of_le (by simp) late : 0 < k)
      refine .pops turn (by simp [own]) ?_ ?_
      · simp only [carefulDispatch, part, dispatch]
      · simp only [dispatch, part, sequence, pop, List.tail_cons]
    | some e' =>
      have base : floor = due frames - 1 := turn.base (by simp)
      have inside : floor ≤ values.size := Nat.le_of_add_right_le turn.floor_le
      have below : floor < due frames := turn.balanced.1.below
      have positive : 1 ≤ floor := turn.balanced.1.positive
      have plain : dispatch host (counted heap world values
          ⟨target, .sequence (e :: es), k, floor, method⟩ frames)
          ⟨target, .sequence (e :: es), k, floor, method⟩ = .ok (push ⟨heap, world,
            values.shrink floor, ⟨target, .sequence (e :: es), k + 1, floor, method⟩ :: frames⟩
            target e') := by
        simp only [dispatch, sequence, part, trim]
      refine .of_ok ?_ plain (.part (turn.balanced.1.again method) turn.balanced.2
        (seed_shrink turn.seed positive) ?_ ?_)
      · simp only [carefulDispatch, plain, part, trimWithin, trim]
        rw [if_pos ⟨Nat.le_refl _, inside⟩]
      · simp only [Array.size_shrink]
        omega
      · simp only [Array.size_shrink, own]
        omega

theorem name_kept {x : String} (kind : f.expr = .name x) :
    Kept host (counted heap world values f frames) f := by
  obtain ⟨target, _, step, floor, method⟩ := f
  cases kind
  match step with
  | 0 =>
    cases look : heap.lookup target x with
    | none => exact .of_error rfl (by simp only [dispatch, name, look]; rfl)
    | some v => exact .leaves turn heap world v rfl rfl (by simp only [dispatch, name, look]; rfl)
  | k + 1 => exact .pops turn (by simp [own]) rfl rfl

theorem member_kept {t : Expr} {x : String} (kind : f.expr = .member t x) :
    Kept host (counted heap world values f frames) f := by
  obtain ⟨target, _, step, floor, method⟩ := f
  cases kind
  match step with
  | 0 => exact .pushes turn target t rfl rfl rfl
  | 1 =>
    obtain ⟨others, r, rfl, seed, size, above⟩ := turn.top (by simp [own])
    simp only [own] at size above
    refine ⟨?_, ?_⟩
    · simp only [carefulDispatch, dispatch, member, withValue_push]
      exact takeAbove_push (by omega) _
    · intro next ok
      simp only [dispatch, member, withValue_push] at ok
      split at ok
      · cases ok
        refine ⟨seed_push seed, ?_, turn.balanced.1.again method, turn.balanced.2⟩
        simp only [pushValue, Array.size_push, due, own]
        omega
      · cases ok
  | k + 2 => exact .pops turn (by simp [own]) rfl rfl

theorem assign_kept {x : String} {value : Expr} (kind : f.expr = .assign x value) :
    Kept host (counted heap world values f frames) f := by
  obtain ⟨target, _, step, floor, method⟩ := f
  cases kind
  match step with
  | 0 => exact .pushes turn target value rfl rfl rfl
  | 1 =>
    obtain ⟨others, v, rfl, seed, size, above⟩ := turn.top (by simp [own])
    simp only [own] at size above
    refine ⟨?_, ?_⟩
    · simp only [carefulDispatch, dispatch, assign, withValue_push]
      exact takeAbove_push (by omega) _
    · intro next ok
      simp only [dispatch, assign, withValue_push] at ok
      exact store_disciplined target v x turn.balanced.1 turn.balanced.2 seed
        (by simpa [own] using size) ok
  | k + 2 => exact .pops turn (by simp [own]) rfl rfl

theorem assignMember_kept {t value : Expr} {x : String} (kind : f.expr = .assignMember t x value) :
    Kept host (counted heap world values f frames) f := by
  obtain ⟨target, _, step, floor, method⟩ := f
  cases kind
  match step with
  | 0 => exact .pushes turn target t rfl rfl rfl
  | 1 => exact .pushes turn target value rfl rfl rfl
  | 2 =>
    obtain ⟨others, r, v, rfl, seed, size, above⟩ := turn.two (by simp [own])
    refine ⟨?_, ?_⟩
    · simp only [carefulDispatch, dispatch, assignMember, withValue_push]
      rw [takeAbove_push (by rw [Array.size_push]; exact Nat.le_succ_of_le above)]
      exact takeAbove_push above _
    · intro next ok
      simp only [dispatch, assignMember, withValue_push] at ok
      exact store_disciplined r v x turn.balanced.1 turn.balanced.2 seed
        (by simp only [own]; omega) ok
  | k + 3 => exact .pops turn (by simp [own]) rfl rfl

theorem box_kept {body : Option Expr} (kind : f.expr = .box body) :
    Kept host (counted heap world values f frames) f := by
  obtain ⟨target, _, step, floor, method⟩ := f
  cases kind
  match step, body with
  | 0, none => exact .leaves turn heap.newBox.1 world heap.newBox.2 rfl rfl rfl
  | 0, some e =>
    have below : floor < due frames := turn.balanced.1.below
    have size : values.size = due frames - 1 := turn.size
    refine .of_ok rfl rfl (.part (turn.balanced.1.again method) turn.balanced.2
      (seed_push turn.seed) ?_ ?_)
    · simp only [Array.size_push]
      omega
    · simp only [Array.size_push, own]
      omega
  | 1, none => exact .trims turn (by simp) (by simp [own]) (by simp [own]) rfl rfl
  | 1, some e => exact .trims turn (by simp) (by simp [own]) (by simp [own]) rfl rfl
  | k + 2, _ => exact .pops turn (by simp [own]) rfl rfl

theorem method_kept {params : List String} {body : Option Expr}
    (kind : f.expr = .method params body) :
    Kept host (counted heap world values f frames) f := by
  obtain ⟨target, _, step, floor, method⟩ := f
  cases kind
  match step with
  | 0 => exact .leaves turn _ world _ rfl rfl rfl
  | 1 => exact .trims turn (by simp) (by simp [own]) (by simp [own]) rfl rfl
  | k + 2 => exact .pops turn (by simp [own]) rfl rfl

/-- The expressions that make their value at once. -/
theorem leaf_kept (factory : Heap → Heap × Ref)
    (careful : ∀ m : Machine σ, carefulDispatch host m f = some (dispatch host m f))
    (leaf : ∀ m : Machine σ, dispatch host m f = m.leaf f factory)
    (owns : ∀ step, own { f with step } = min step 1) :
    Kept host (counted heap world values f frames) f := by
  obtain ⟨target, e, step, floor, method⟩ := f
  match step with
  | 0 =>
    have more := (owns 1).trans (congrArg (· + 1) (owns 0).symm)
    exact .leaves turn _ world _ more (careful _) (leaf _)
  | k + 1 => exact .pops turn ((owns (k + 1)).trans (by omega)) (careful _) (leaf _)

theorem native_kept {x : String} {routine : Option Routine} (kind : f.expr = .native x routine) :
    Kept host (counted heap world values f frames) f := by
  obtain ⟨target, _, step, floor, method⟩ := f
  cases kind
  match step with
  | 0 =>
    refine ⟨rfl, ?_⟩
    intro next ok
    simp only [dispatch, native] at ok
    split at ok
    · cases ok
    · split at ok
      · cases ok
      · cases ok
        have size : values.size = due frames - 1 := turn.size
        refine ⟨seed_push turn.seed, ?_, turn.balanced.1.again method, turn.balanced.2⟩
        simp only [Array.size_push, due, own]
        omega
  | k + 1 => exact .pops turn (by simp [own]) rfl rfl

omit turn in
theorem own_list {items : List Expr} (kind : f.expr = .list items) :
    own f = if f.step ≤ items.length then f.step else 1 := by
  obtain ⟨target, _, step, floor, method⟩ := f
  cases kind
  cases step with
  | zero => simp [own]
  | succ k => simp [own]

theorem list_kept {items : List Expr} (kind : f.expr = .list items) :
    Kept host (counted heap world values f frames) f := by
  have owns := own_list kind
  have next := own_list (f := { f with step := f.step + 1 }) kind
  have base := turn.base (by simp [kind])
  have inside := Nat.le_of_add_right_le turn.floor_le
  have below := turn.balanced.1.below
  obtain ⟨target, _, step, floor, method⟩ := f
  cases kind
  simp only at owns next base inside below
  cases part : items[step]? with
  | some e =>
    have early : step < items.length := (List.getElem?_eq_some_iff.mp part).1
    rw [if_pos (by omega)] at owns next
    refine .pushes turn target e (next.trans (congrArg (· + 1) owns.symm)) ?_ ?_
    · simp only [carefulDispatch, if_neg (Nat.ne_of_lt early), dispatch]
    · simp only [dispatch, list, part]
  | none =>
    have late : items.length ≤ step := List.getElem?_eq_none_iff.mp part
    rw [if_neg (by omega)] at next
    by_cases last : step = items.length
    · subst last
      refine ⟨?_, ?_⟩
      · simp only [carefulDispatch, trimWithin, dispatch, list, part]
        rw [if_pos trivial, if_pos ⟨Nat.le_refl _, inside⟩, if_pos trivial]
      · intro next' ok
        simp only [dispatch, list, part] at ok
        rw [if_pos trivial] at ok
        cases ok
        refine ⟨seed_push (seed_shrink turn.seed turn.balanced.1.positive), ?_,
          turn.balanced.1.again method, turn.balanced.2⟩
        simp only [make, trim, pushValue, Array.size_push, Array.size_shrink, due]
        omega
    · rw [if_neg (by omega)] at owns
      refine .pops turn owns ?_ ?_
      · simp only [carefulDispatch, if_neg last, dispatch]
      · simp only [dispatch, list, part, if_neg last, pop, List.tail_cons]

end Kinds

/-! ## Calls -/

theorem length_bindings (getter : Ref) (h : Heap) (i : Nat) (params : List String) :
    (Recursive.bindings getter h i params).2.length = params.length := by
  induction params generalizing h i with
  | nil => rfl
  | cons param params ih => simp [Recursive.bindings, ih]

/-- Frames for assignments on top of a call, all with one floor, take up what
the call owns. -/
theorem balanced_bindings {call : Frame} {frames : List Frame} (binding : List Frame) (floor : Nat)
    (placed : Placed call frames) (rest : Balanced frames) (above : call.floor ≤ floor)
    (new : ∀ g ∈ binding, g.step = 0 ∧ g.floor = floor ∧ g.method = none ∧
      ∃ x value, g.expr = .assign x value)
    (enough : floor + binding.length ≤ due (call :: frames)) :
    Balanced (binding ++ call :: frames) ∧
      due (binding ++ call :: frames) + binding.length = due (call :: frames) := by
  induction binding with
  | nil => exact ⟨⟨placed, rest⟩, rfl⟩
  | cons g binding ih =>
    obtain ⟨fresh, same, unset, assigns⟩ := new g (by simp)
    rw [List.length_cons] at enough
    obtain ⟨balanced, total⟩ := ih (fun g member => new g (by simp [member])) (by omega)
    have owns : own g = 0 := by simp [own, fresh]
    have below : g.floor < due (binding ++ call :: frames) := by omega
    refine ⟨⟨⟨.inr assigns, below, ?_, ?_, fun _ => unset⟩, balanced⟩, ?_⟩
    · have positive := placed.positive
      omega
    · intro g' member
      rcases List.mem_append.mp member with member | member
      · have same' := (new g' (by simp [member])).2.1
        omega
      · rcases List.mem_cons.mp member with rfl | member
        · omega
        · have := placed.ordered g' member
          omega
    · change due (binding ++ call :: frames) - 1 + own g + (binding.length + 1) = _
      omega

section Calls

variable {host : Host σ} {heap : Heap} {world : σ} {frames : List Frame} {target : Ref}
  {t argument : Expr} {floor : Nat}

/-- A call that has found its method goes on with what its scope and its
parameters amount to. -/
theorem bindParameters_disciplined {values : Array Ref} {method : Option Method}
    {scope book : Ref} {next : Machine σ}
    (placed : Placed ⟨target, .call t argument, 3, floor, method⟩ frames)
    (rest : Balanced frames) (seed : values[0]? = some Canon.nullValue)
    (size : values.size = due frames) (above : floor ≤ values.size)
    (bound : bindParameters
      ⟨heap, world, values, ⟨target, .call t argument, 3, floor, method⟩ :: frames⟩ scope book
      ((method.map Method.params).getD []) = .ok next) :
    Disciplined next := by
  have total : due (⟨target, .call t argument, 3, floor, method⟩ :: frames) =
      due frames - 1 + (1 + ((method.map Method.params).getD []).length) := rfl
  have below := placed.below
  cases params : (method.map Method.params).getD [] with
  | nil =>
    rw [params] at bound total
    cases bound
    refine ⟨seed, ?_, placed, rest⟩
    simp only [total, List.length_nil]
    omega
  | cons param params' =>
    rw [params] at bound total
    simp only [bindParameters] at bound
    split at bound
    · cases bound
    · next getter _ =>
      cases bound
      rw [pushBindings_eq]
      let binding := ((Recursive.bindings getter heap 0 (param :: params')).2.map
          fun e => (⟨scope, e, 0, values.size, none⟩ : Frame)).reverse
      have many : binding.length = (param :: params').length := by
        simp only [binding, List.length_reverse, List.length_map, length_bindings]
      obtain ⟨balanced, sum⟩ := balanced_bindings binding values.size placed rest above
        (by
          intro g member
          obtain ⟨e, isBinding, rfl⟩ := List.mem_map.mp (List.mem_reverse.mp member)
          exact ⟨rfl, rfl, rfl, bindings_assign _ _ _ _ e isBinding⟩)
        (by omega)
      have left : values.size = due (binding ++ ⟨target, .call t argument, 3, floor, method⟩ ::
          frames) := by
        omega
      exact ⟨seed, left, balanced⟩

theorem call_kept {values : Array Ref} {f : Frame}
    (turn : Disciplined ⟨heap, world, values, f :: frames⟩) (kind : f.expr = .call t argument) :
    Kept host (counted heap world values f frames) f := by
  have base := turn.base (by simp [kind])
  have inside := turn.floor_le
  have below := turn.balanced.1.below
  obtain ⟨target, _, step, floor, method⟩ := f
  cases kind
  simp only at base inside below
  match step with
  | 0 => exact .pushes turn target t rfl rfl rfl
  | 1 => exact .pushes turn target argument rfl rfl rfl
  | 2 =>
    obtain ⟨others, callee, book, rfl, seed, size, above⟩ := turn.two (by simp [own])
    refine ⟨?_, ?_⟩
    · simp only [carefulDispatch, dispatch, call, withValue_push]
      rw [takeAbove_push (by rw [Array.size_push]; exact Nat.le_succ_of_le above)]
      exact takeAbove_push above _
    · intro next ok
      simp only [dispatch, call, withValue_push, enter, openScope] at ok
      split at ok
      · cases ok
      · refine bindParameters_disciplined (turn.balanced.1.again _) turn.balanced.2
          (seed_push seed) ?_ ?_ ok
        · rw [Array.size_push]
          omega
        · rw [Array.size_push]
          omega
  | 3 =>
    have owned : own ⟨target, .call t argument, 3, floor, method⟩ =
      1 + ((method.map Method.params).getD []).length := rfl
    have enough : floor + 1 ≤ values.size := by omega
    have seed := seed_shrink turn.seed (Nat.succ_pos floor)
    have size : (values.shrink (floor + 1)).size = floor + 1 := by
      rw [Array.size_shrink]
      omega
    obtain ⟨others, scope, trimmed⟩ := Array.exists_push_of_size_eq_add_one size
    rw [trimmed] at seed size
    rw [Array.size_push] at size
    have seed' := seed_of_push seed (by have := turn.balanced.1.positive; simp only at this; omega)
    refine ⟨?_, ?_⟩
    · simp only [carefulDispatch, dispatch, call, trimWithin, trim, trimmed, withValue_push]
      rw [if_pos ⟨Nat.le_succ _, enough⟩]
      exact takeAbove_push (by omega) _
    · intro next ok
      simp only [dispatch, call, trim, trimmed, withValue_push, runBody] at ok
      split at ok
      · cases ok
        refine ⟨seed_push seed', ?_, turn.balanced.1.again method, turn.balanced.2⟩
        simp only [pushValue, Array.size_push, due, own]
        omega
      · cases ok
        refine .part (turn.balanced.1.again method) turn.balanced.2 seed' ?_ ?_
        · simp only
          omega
        · simp only [own]
          omega
  | k + 4 => exact .pops turn (by simp [own]) rfl rfl

end Calls

/-! ## Whole runs -/

/-- A dispatch takes no value from below its frame's floor, trims to no more
values than there are, and keeps the invariant. -/
theorem dispatch_kept (host : Host σ) {heap : Heap} {world : σ} {values : Array Ref} {f : Frame}
    {frames : List Frame} (turn : Disciplined ⟨heap, world, values, f :: frames⟩) :
    Kept host (counted heap world values f frames) f := by
  cases kind : f.expr with
  | sequence es => exact sequence_kept turn kind
  | name x => exact name_kept turn kind
  | member t x => exact member_kept turn kind
  | assign x value => exact assign_kept turn kind
  | assignMember t x value => exact assignMember_kept turn kind
  | call t argument => exact call_kept turn kind
  | box body => exact box_kept turn kind
  | method params body => exact method_kept turn kind
  | text bytes =>
    refine leaf_kept turn (fun h => h.newRepairedText bytes)
      (fun m => by simp only [carefulDispatch, kind]) (fun m => by simp only [dispatch, kind])
      fun step => ?_
    cases step <;> simp [own, kind]
  | integer i =>
    refine leaf_kept turn (fun h => h.newInteger i) (fun m => by simp only [carefulDispatch, kind])
      (fun m => by simp only [dispatch, kind]) fun step => ?_
    cases step <;> simp [own, kind]
  | real x =>
    refine leaf_kept turn (fun h => h.newReal x) (fun m => by simp only [carefulDispatch, kind])
      (fun m => by simp only [dispatch, kind]) fun step => ?_
    cases step <;> simp [own, kind]
  | list items => exact list_kept turn kind
  | native x routine => exact native_kept turn kind
  | held r =>
    refine leaf_kept turn (fun h => (h, r)) (fun m => by simp only [carefulDispatch, kind])
      (fun m => by simp only [dispatch, kind]) fun step => ?_
    cases step <;> simp [own, kind]
  | foreign _ _ => exact .of_error (by simp [carefulDispatch, kind]) (by rw [dispatch, kind]; rfl)
  | hole => exact .of_error (by simp [carefulDispatch, kind]) (by rw [dispatch, kind]; rfl)

theorem step_disciplined {host : Host σ} {m next : Machine σ} (disciplined : Disciplined m)
    (one : step host m = .ok next) : Disciplined next := by
  obtain ⟨heap, world, values, frames⟩ := m
  cases frames with
  | nil =>
    cases one
    exact disciplined
  | cons f frames =>
    have kept := dispatch_kept host disciplined
    simp only [step] at one
    split at one
    · next dispatched =>
      cases one
      exact kept.2 _ dispatched
    · cases one

theorem steps_disciplined {host : Host σ} {depth n : Nat} {m last : Machine σ}
    (steps : Steps host depth n m last) (disciplined : Disciplined m) : Disciplined last := by
  induction steps with
  | stay => exact disciplined
  | dispatch _ one _ ih => exact ih (step_disciplined disciplined one)

theorem start_disciplined (h : Heap) (world : σ) (target : Ref) (e : Expr) :
    Disciplined (start h world target e) :=
  ⟨rfl, rfl, ⟨.inl rfl, Nat.lt_succ_self 1, Nat.le_refl 1, nofun, fun _ => rfl⟩, trivial⟩

theorem Balanced.positive {frames : List Frame} (balanced : Balanced frames) :
    ∀ f ∈ frames, 1 ≤ f.floor := by
  induction frames with
  | nil => nofun
  | cons f frames ih =>
    intro g member
    rcases List.mem_cons.mp member with rfl | member
    · exact balanced.1.positive
    · exact ih balanced.2 g member

theorem Balanced.pairwise {frames : List Frame} (balanced : Balanced frames) :
    frames.Pairwise fun above below => below.floor ≤ above.floor := by
  induction frames with
  | nil => exact .nil
  | cons f frames ih => exact .cons balanced.1.ordered (ih balanced.2)

theorem Disciplined.floors_le {m : Machine σ} (disciplined : Disciplined m) :
    ∀ f ∈ m.frames, f.floor ≤ m.values.size := by
  obtain ⟨heap, world, values, frames⟩ := m
  intro f member
  cases frames with
  | nil => cases member
  | cons top frames =>
    have inside : top.floor ≤ values.size := Nat.le_of_add_right_le disciplined.floor_le
    rcases List.mem_cons.mp member with rfl | member
    · exact inside
    · exact Nat.le_trans (disciplined.balanced.1.ordered f member) inside

/-- A new frame starts where its values are to go. -/
theorem Disciplined.fits {m : Machine σ} {f : Frame} {frames : List Frame}
    (disciplined : Disciplined m) (top : m.frames = f :: frames) (new : f.step = 0) :
    Fits f.expr f.floor m.values.size := by
  obtain ⟨heap, world, values, _⟩ := m
  cases top
  have size : values.size = due frames - 1 + own f := disciplined.size
  have none : own f = 0 := by simp [own, new]
  have base : values.size = due frames - 1 := by omega
  simpa only [base] using disciplined.balanced.1.fits

/-- Whatever a new frame does, once it is gone the frames below it are back and
the values are those it started on and one more. -/
theorem Disciplined.popped {host : Host σ} {m last : Machine σ} {f : Frame} {frames : List Frame}
    {k : Nat} (disciplined : Disciplined m) (top : m.frames = f :: frames) (new : f.step = 0)
    (steps : Steps host frames.length k m last) (back : last.frames.length ≤ frames.length) :
    last.frames = frames ∧ ∃ v, last.values = m.values.push v := by
  have fits := disciplined.fits top new
  obtain ⟨heap, world, values, _⟩ := m
  cases top
  have unset : f.method = none := disciplined.balanced.1.fresh new
  obtain ⟨target, e, step, floor, method⟩ := f
  cases new
  cases unset
  obtain ⟨v, s, _, rfl⟩ := value_of_steps (m := ⟨heap, world, values, frames⟩) fits steps back
  exact ⟨rfl, v, rfl⟩

/-- The discipline of the value stack in every state that a run reaches: the
value at the bottom stays, floors lie above it and within the values and never
decrease going up, the next dispatch takes no value from below its floor and
trims to no more values than there are, a frame leaves exactly one value where
it started, and at the end the result lies on the value at the bottom. -/
theorem values_disciplined (host : Host σ) (h : Heap) (world : σ) (target : Ref) (e : Expr)
    (n : Nat) (m : Machine σ) (reached : Steps host 0 n (start h world target e) m) :
    m.values[0]? = some Canon.nullValue ∧
    (∀ f ∈ m.frames, 1 ≤ f.floor ∧ f.floor ≤ m.values.size) ∧
    m.frames.Pairwise (fun above below => below.floor ≤ above.floor) ∧
    (∀ f frames, m.frames = f :: frames →
      carefulDispatch host (counted m.heap m.world m.values f frames) f =
        some (dispatch host (counted m.heap m.world m.values f frames) f)) ∧
    (∀ f frames k last, m.frames = f :: frames → f.step = 0 →
      Steps host frames.length k m last → last.frames.length ≤ frames.length →
      last.frames = frames ∧ ∃ v, last.values = m.values.push v) ∧
    (m.frames = [] → ∃ v, m.values = #[Canon.nullValue, v]) := by
  have disciplined := steps_disciplined reached (start_disciplined h world target e)
  refine ⟨disciplined.seed, ?_, disciplined.balanced.pairwise, ?_, ?_, ?_⟩
  · intro f member
    exact ⟨disciplined.balanced.positive f member, disciplined.floors_le f member⟩
  · intro f frames top
    obtain ⟨heap, world, values, _⟩ := m
    cases top
    exact (dispatch_kept host disciplined).1
  · intro f frames k last top new steps back
    exact disciplined.popped top new steps back
  · intro none
    -- The run is one frame's, so it has left one value on the first.
    have whole := (start_disciplined h world target e).popped rfl rfl reached (by simp [none])
    exact whole.2

theorem values_disciplined_list :
    ∃ m : Machine Unit, Steps Host.plain 0 8
      (start ⟨#[]⟩ () 0 (.list [.name "null", .name "null"])) m ∧ m.frames = [] ∧
      ∃ v, m.values = #[Canon.nullValue, v] := by
  have steps : ∃ m : Machine Unit, Steps Host.plain 0 8
      (start ⟨#[]⟩ () 0 (.list [.name "null", .name "null"])) m ∧ m.frames = [] :=
    ⟨_, .dispatch (by decide) rfl <| .dispatch (by decide) rfl <| .dispatch (by decide) rfl <|
      .dispatch (by decide) rfl <| .dispatch (by decide) rfl <| .dispatch (by decide) rfl <|
      .dispatch (by decide) rfl <| .dispatch (by decide) rfl <| .stay _, rfl⟩
  obtain ⟨m, reached, none⟩ := steps
  have disciplined := values_disciplined _ _ _ _ _ _ m reached
  exact ⟨m, reached, none, disciplined.2.2.2.2.2 none⟩

end BoxScript.Machine
