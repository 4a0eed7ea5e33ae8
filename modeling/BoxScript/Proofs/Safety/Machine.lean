import BoxScript.Proofs.Safety.Natives
import BoxScript.Proofs.Machine.Agreement

/-!
# Safe machines

A machine is safe if its heap is sound, all its values and targets are boxes
that were made, and its frames are for expressions that can be evaluated on
that heap: what sources yield, the native calls of methods, and the assignments
that bind parameters. Every dispatch of a safe machine leads to a safe one, on
a later state of the heap, or stops on a sound heap.

Nothing is said here about why a dispatch stops.
-/

set_option autoImplicit false

namespace BoxScript

open Source (Parsed)

/-- What programs, boxes and methods run. -/
inductive Expr.Runnable (h : Heap) : Expr → Prop where
  | parsed {e : Expr} (parsed : Parsed e) : Runnable h e
  | sequence {es : List Expr} (all : ∀ e ∈ es, Parsed e) : Runnable h (.sequence es)
  | native {e : Expr} (known : e.Native h) : Runnable h e

/-- The expressions that frames are for while sources are evaluated: those that
are run, and what binds a parameter, with its parts. -/
inductive Expr.Evaluable (h : Heap) : Expr → Prop where
  | runnable {e : Expr} (runnable : e.Runnable h) : Evaluable h e
  | held {r : Ref} (inside : r < h.size) : Evaluable h (.held r)
  | getter {getter book : Ref} (insideGetter : getter < h.size) (insideBook : book < h.size) :
      Evaluable h (.call (.held getter) (.held book))
  | binding {x : String} {getter book : Ref} (insideGetter : getter < h.size)
      (insideBook : book < h.size) : Evaluable h (.assign x (.call (.held getter) (.held book)))

namespace Expr

variable {h h' : Heap}

/-- A program, or the body of a box or method. -/
theorem Runnable.of_ofList {es : List Expr} {e : Expr} (all : ∀ e ∈ es, Parsed e)
    (folded : Expr.ofList es = some e) : Runnable h e := by
  match es with
  | [] => cases folded
  | [_] =>
    cases folded
    exact .parsed (all e (by simp))
  | _ :: _ :: _ =>
    cases folded
    exact .sequence all

theorem Runnable.of_method {m : Method} {e : Expr} (sound : m.Sound h) (isBody : m.body = some e) :
    Runnable h e := by
  cases sound with
  | parsed folded all => exact .of_ofList all (folded.symm.trans isBody)
  | native known =>
    cases isBody
    exact .native known

theorem Runnable.mono (later : h.Extends h') {e : Expr} (runnable : Runnable h e) :
    Runnable h' e := by
  cases runnable with
  | parsed parsed => exact .parsed parsed
  | sequence all => exact .sequence all
  | native known => exact .native (known.mono later)

theorem Evaluable.parsed {e : Expr} (parsed : Parsed e) : Evaluable h e :=
  .runnable (.parsed parsed)

theorem Evaluable.mono (later : h.Extends h') {e : Expr} (evaluable : Evaluable h e) :
    Evaluable h' e := by
  cases evaluable with
  | runnable runnable => exact .runnable (runnable.mono later)
  | held inside => exact .held (later.inside inside)
  | getter insideGetter insideBook =>
    exact .getter (later.inside insideGetter) (later.inside insideBook)
  | binding insideGetter insideBook =>
    exact .binding (later.inside insideGetter) (later.inside insideBook)

theorem Native.isNative {e : Expr} (known : e.Native h) : ∃ x routine, e = .native x routine := by
  cases known with
  | item => exact ⟨_, _, rfl⟩
  | entry => exact ⟨_, _, rfl⟩
  | shipped => exact ⟨_, _, rfl⟩

end Expr

structure Frame.Safe (h : Heap) (f : Frame) : Prop where
  target : f.target < h.size
  expr : f.expr.Evaluable h
  method : ∀ m ∈ f.method, m.Sound h

theorem Frame.Safe.mono {h h' : Heap} {f : Frame} (later : h.Extends h') (safe : f.Safe h) :
    f.Safe h' where
  target := later.inside safe.target
  expr := safe.expr.mono later
  method m isMethod := (safe.method m isMethod).mono later

namespace Machine

variable {σ : Type}

structure Safe (m : Machine σ) : Prop where
  heap : m.heap.Sound
  canon : Canon.globals < m.heap.size
  values : ∀ v ∈ m.values, v < m.heap.size
  frames : ∀ f ∈ m.frames, f.Safe m.heap

/-- A dispatch leads to a safe machine on a later heap, or stops on a sound one. -/
def Secured (h : Heap) : Next σ → Prop
  | .ok m => m.Safe ∧ h.Extends m.heap
  | .error halted => halted.heap.Sound ∧ h.Extends halted.heap

namespace Safe

variable {m : Machine σ}

theorem push (safe : m.Safe) {target : Ref} {e : Expr} (inside : target < m.heap.size)
    (evaluable : e.Evaluable m.heap) : (m.push target e).Safe where
  heap := safe.heap
  canon := safe.canon
  values := safe.values
  frames f member := by
    rcases List.mem_cons.mp member with rfl | member
    · exact ⟨inside, evaluable, nofun⟩
    · exact safe.frames f member

theorem pop (safe : m.Safe) : m.pop.Safe where
  heap := safe.heap
  canon := safe.canon
  values := safe.values
  frames f member := safe.frames f (List.mem_of_mem_tail member)

theorem pushValue (safe : m.Safe) {v : Ref} (inside : v < m.heap.size) : (m.pushValue v).Safe where
  heap := safe.heap
  canon := safe.canon
  values w member := by
    rcases Array.mem_push.mp member with member | rfl
    · exact safe.values w member
    · exact inside
  frames := safe.frames

theorem trim (safe : m.Safe) (n : Nat) : (m.trim n).Safe where
  heap := safe.heap
  canon := safe.canon
  values v member := by
    have kept : v ∈ m.values.toList.take n := by
      rw [← Array.toList_shrink]
      exact Array.mem_toList_iff.mpr member
    exact safe.values v (Array.mem_toList_iff.mp (List.mem_of_mem_take kept))
  frames := safe.frames

/-- The heap may grow. -/
theorem grow (safe : m.Safe) {h : Heap} (later : m.heap.Extends h) (sound : h.Sound) (world : σ) :
    Safe ⟨h, world, m.values, m.frames⟩ where
  heap := sound
  canon := later.inside safe.canon
  values v member := later.inside (safe.values v member)
  frames f member := (safe.frames f member).mono later

theorem make (safe : m.Safe) {f : Heap → Heap × Ref} (new : m.heap.Made (f m.heap)) :
    (m.make f).1.Safe :=
  safe.grow new.later new.sound m.world

theorem setMethod (safe : m.Safe) {method : Option Method}
    (sound : ∀ x ∈ method, x.Sound m.heap) : (m.setMethod method).Safe := by
  obtain ⟨heap, world, values, frames⟩ := m
  cases frames with
  | nil => exact safe
  | cons f frames =>
    refine ⟨safe.heap, safe.canon, safe.values, ?_⟩
    intro g member
    rcases List.mem_cons.mp member with rfl | member
    · have newest := safe.frames f (by simp)
      exact ⟨newest.target, newest.expr, sound⟩
    · exact safe.frames g (List.mem_cons_of_mem f member)

end Safe

@[simp] theorem heap_setMethod (m : Machine σ) (method : Option Method) :
    (m.setMethod method).heap = m.heap := by
  obtain ⟨heap, world, values, frames⟩ := m
  cases frames <;> rfl

namespace Secured

variable {m : Machine σ} {h : Heap}

theorem ok (safe : m.Safe) : Secured m.heap (.ok m) := ⟨safe, .refl m.heap⟩

theorem fail (safe : m.Safe) (cause : Cause) : Secured m.heap (m.fail cause) :=
  ⟨safe.heap, .refl m.heap⟩

theorem crash (safe : m.Safe) : Secured m.heap m.crash := ⟨safe.heap, .refl m.heap⟩

theorem before (later : h.Extends m.heap) {next : Next σ} (secured : Secured m.heap next) :
    Secured h next := by
  cases next with
  | ok m' => exact ⟨secured.1, later.trans secured.2⟩
  | error halted => exact ⟨secured.1, later.trans secured.2⟩

/-- What goes on with a value gets a box that was made. -/
theorem withValue (safe : m.Safe) {next : Ref → Machine σ → Next σ}
    (goesOn : ∀ v m', m'.Safe → m'.heap = m.heap → v < m.heap.size → Secured m.heap (next v m')) :
    Secured m.heap (m.withValue next) := by
  obtain ⟨heap, world, values, frames⟩ := m
  rw [Machine.withValue]
  split
  · exact crash safe
  · next v newest =>
    have popped : Safe ⟨heap, world, values.pop, frames⟩ := by
      refine ⟨safe.heap, safe.canon, ?_, safe.frames⟩
      intro w member
      have kept : w ∈ values.toList.dropLast := by
        rw [← Array.toList_pop]
        exact Array.mem_toList_iff.mpr member
      exact safe.values w (Array.mem_toList_iff.mp (List.dropLast_subset _ kept))
    exact goesOn v _ popped rfl (safe.values v (Array.mem_of_back? newest))

theorem store (safe : m.Safe) {r v : Ref} (inside : v < m.heap.size) (x : String) :
    Secured m.heap (m.store r x v) := by
  rw [Machine.store]
  split
  · exact fail safe _
  · have later := m.heap.extends_assign r x v
    have stored := safe.grow later (safe.heap.assign r x inside) m.world
    exact ⟨stored.pushValue (later.inside inside), later⟩

theorem leaf (safe : m.Safe) (f : Frame) {value : Heap → Heap × Ref}
    (later : m.heap.Extends (value m.heap).1) (sound : (value m.heap).1.Sound)
    (inside : (value m.heap).2 < (value m.heap).1.size) : Secured m.heap (m.leaf f value) := by
  rw [Machine.leaf]
  split
  · exact ⟨(safe.grow later sound m.world).pushValue inside, later⟩
  · exact ok safe.pop

theorem made (safe : m.Safe) (f : Frame) {value : Heap → Heap × Ref}
    (new : m.heap.Made (value m.heap)) : Secured m.heap (m.leaf f value) :=
  leaf safe f new.later new.sound new.inside

end Secured

end Machine

/-! ## What evaluation reads from a heap -/

namespace Heap

variable {h : Heap}

theorem Sound.methodFrom (sound : h.Sound) {m : Method} (n : Nat) (met : List Ref) (r : Ref)
    (found : h.methodFrom n met r = some m) : m.Sound h := by
  induction n generalizing met r with
  | zero => cases found
  | succ n ih =>
    rw [Heap.methodFrom] at found
    split at found
    · exact (sound.box r).method m found
    · split at found
      · exact (sound.box r).method m found
      · split at found
        · cases found
        · exact ih _ _ found

theorem Sound.method? (sound : h.Sound) (r : Ref) : ∀ m ∈ h.method? r, m.Sound h :=
  fun _ found => sound.methodFrom _ _ r found

theorem Sound.lookup (sound : h.Sound) (canon : Canon.globals < h.size) {target v : Nat}
    {x : String} (found : h.lookup target x = some v) : v < h.size := by
  rw [Heap.lookup] at found
  split at found
  · next own =>
    cases found
    exact sound.get? own
  · split at found
    · cases found
      exact Nat.lt_trans (by decide) canon
    · exact sound.get? found

/-- A native call is given boxes that were made. -/
theorem Sound.arguments (sound : h.Sound) (scope : Ref) :
    ∀ x ∈ h.arguments scope, Native.Present h x := by
  intro x member
  rw [Heap.arguments] at member
  split at member
  · cases member
  · next book bound =>
    cases payload : (h.box book).payload with
    | list items =>
      have listed : (h.box book).items? = some items := by rw [Box.items?, payload]
      rw [listed] at member
      exact (sound.box book).items items payload x member
    | _ =>
      have other : (h.box book).items? = none := by rw [Box.items?, payload]
      rw [other] at member
      exact ⟨book, List.mem_singleton.mp member, sound.get? bound⟩

theorem made_scope (sound : h.Sound) {callee book : Nat} (insideCallee : callee < h.size)
    (insideBook : book < h.size) : Made h (h.scope callee book) := by
  have new : Made h (h.newWith [callee] .none) :=
    made_newWith sound insideCallee ⟨nofun, nofun⟩
  refine ⟨⟨?_, ?_⟩, rfl, ?_, new.sound.assign _ _ (new.later.inside insideBook)⟩
  · rw [scope, size_assign]
    exact new.keeps.size
  · intro r inside
    have old : r ≠ (h.newWith [callee] .none).2 := by
      rw [new.fresh]
      exact Nat.ne_of_lt inside
    rw [scope, box_assign_of_ne old, new.keeps.same r inside]
  · rw [scope, size_assign]
    exact new.inside

end Heap

/-- The routine that a native call of a method finds. -/
theorem Expr.Native.routine {h : Heap} {x : String} {routine : Option Routine}
    (known : Expr.Native h (.native x routine)) :
    ∃ r, routine.or (shippedRoutines.lookup x) = some r ∧ r.Safe h := by
  cases known with
  | item inside payload => exact ⟨_, rfl, _, payload⟩
  | entry inside payload => exact ⟨_, rfl, _, payload⟩
  | shipped known =>
    obtain ⟨r, found⟩ := Option.isSome_iff_exists.mp known
    exact ⟨r, found, Routine.safe_shipped found⟩

/-! ## The dispatches -/

namespace Machine

variable {σ : Type} {m : Machine σ} {f : Frame}

theorem Safe.nullValue (safe : m.Safe) : Canon.nullValue < m.heap.size :=
  Nat.lt_trans (by decide) safe.canon

theorem Safe.pushBindings {scope getter : Ref} (safe : m.Safe) (insideScope : scope < m.heap.size)
    (insideGetter : getter < m.heap.size) (i : Nat) (params : List String) :
    (pushBindings scope getter m i params).Safe ∧
      m.heap.Extends (pushBindings scope getter m i params).heap := by
  induction params generalizing m i with
  | nil => exact ⟨safe, .refl m.heap⟩
  | cons param params ih =>
    -- The integer of the position, and the list that holds it.
    have integer := Heap.made_newInteger safe.heap (Int64.ofNat i)
    have held := safe.make (f := fun h => h.newInteger (Int64.ofNat i)) integer
    have book := Heap.made_listOfInteger safe.heap (Int64.ofNat i)
    have listed := held.make (f := fun h => h.newList [(m.heap.newInteger (Int64.ofNat i)).2]) book
    have later := integer.later.trans book.later
    have pushed := listed.push (later.inside insideScope)
      (.binding (x := param) (later.inside insideGetter) book.inside)
    obtain ⟨bound, later'⟩ := ih pushed (later.inside insideScope) (later.inside insideGetter)
      (i + 1)
    exact ⟨bound, later.trans later'⟩

theorem Secured.bindParameters {scope book : Ref} (safe : m.Safe)
    (insideScope : scope < m.heap.size) (params : List String) :
    Secured m.heap (m.bindParameters scope book params) := by
  rw [Machine.bindParameters.eq_def]
  split
  · exact ok safe
  · split
    · exact crash safe
    · next getter found => exact safe.pushBindings insideScope (safe.heap.get? found) 0 params

/-- The call of a box with an argument book, both of which were made. -/
theorem Secured.enter {callee book : Ref} (safe : m.Safe) (insideCallee : callee < m.heap.size)
    (insideBook : book < m.heap.size) : Secured m.heap (m.enter callee book) := by
  have method := safe.heap.method? callee
  rw [Machine.enter]
  generalize m.heap.method? callee = method? at method
  have new := Heap.made_scope safe.heap insideCallee insideBook
  have opened : (m.opened callee book).Safe := safe.grow new.later new.sound m.world
  cases check : checkArguments (m.heap.scope callee book).1 method? book with
  | error cause =>
    rw [openScope_error check]
    exact before new.later (fail opened cause)
  | ok =>
    rw [openScope_ok check]
    have kept := opened.setMethod fun x found => (method x found).mono new.later
    have sameHeap := heap_setMethod (m.opened callee book) method?
    have inside : (m.heap.scope callee book).2 <
        ((m.opened callee book).setMethod method?).heap.size := by
      rw [sameHeap]
      exact new.inside
    have later : m.heap.Extends ((m.opened callee book).setMethod method?).heap := by
      rw [sameHeap]
      exact new.later
    exact before later (bindParameters (kept.pushValue inside) inside _)

theorem Safe.runBody {scope : Ref} (safe : m.Safe) (inside : scope < m.heap.size)
    {method : Option Method} (sound : ∀ x ∈ method, x.Sound m.heap) :
    (m.runBody method scope).Safe ∧ (m.runBody method scope).heap = m.heap := by
  rw [Machine.runBody]
  split
  · exact ⟨safe.pushValue safe.nullValue, rfl⟩
  · next body found =>
    obtain ⟨x, isMethod, isBody⟩ := Option.bind_eq_some_iff.mp found
    exact ⟨safe.push inside (.runnable (.of_method (sound x isMethod) isBody)), rfl⟩

theorem Secured.call (safe : m.Safe) (frame : f.Safe m.heap) {t argument : Expr}
    (evaluableTarget : t.Evaluable m.heap) (evaluableArgument : argument.Evaluable m.heap) :
    Secured m.heap (m.call f t argument) := by
  rw [Machine.call]
  split
  · exact ok (safe.push frame.target evaluableTarget)
  · exact ok (safe.push frame.target evaluableArgument)
  · refine withValue safe fun book m' safe' same insideBook => ?_
    rw [← same] at insideBook ⊢
    refine withValue safe' fun callee m'' safe'' same' insideCallee => ?_
    rw [← same'] at insideBook insideCallee ⊢
    exact enter safe'' insideCallee insideBook
  · refine withValue (safe.trim _) fun scope m' safe' same inside => ?_
    rw [← same] at inside ⊢
    have method : ∀ x ∈ f.method, x.Sound m'.heap := by
      rw [same]
      exact frame.method
    obtain ⟨ran, sameHeap⟩ := safe'.runBody inside method
    exact ⟨ran, by rw [sameHeap]; exact .refl _⟩
  · exact ok safe.pop

theorem Secured.sequence (safe : m.Safe) (frame : f.Safe m.heap) {es : List Expr}
    (all : ∀ e ∈ es, Parsed e) : Secured m.heap (m.sequence f es) := by
  rw [Machine.sequence.eq_def]
  split
  · split
    · exact ok (safe.pushValue safe.nullValue)
    · exact ok safe.pop
  · split
    · next e found =>
      exact ok ((safe.trim _).push frame.target (.parsed (all e (List.mem_of_getElem? found))))
    · exact ok safe.pop

theorem Secured.name (safe : m.Safe) (x : String) : Secured m.heap (m.name f x) := by
  rw [Machine.name]
  split
  · split
    · next v found => exact ok (safe.pushValue (safe.heap.lookup safe.canon found))
    · exact fail safe _
  · exact ok safe.pop

theorem Secured.member (safe : m.Safe) (frame : f.Safe m.heap) {t : Expr} {x : String}
    (parsed : Parsed t) : Secured m.heap (m.member f t x) := by
  rw [Machine.member]
  split
  · exact ok (safe.push frame.target (.parsed parsed))
  · refine withValue safe fun r m' safe' same _ => ?_
    rw [← same]
    split
    · next v found => exact ok (safe'.pushValue (safe'.heap.get? found))
    · exact fail safe' _
  · exact ok safe.pop

theorem Secured.assign (safe : m.Safe) (frame : f.Safe m.heap) {x : String} {value : Expr}
    (evaluable : value.Evaluable m.heap) : Secured m.heap (m.assign f x value) := by
  rw [Machine.assign]
  split
  · exact ok (safe.push frame.target evaluable)
  · refine withValue safe fun v m' safe' same inside => ?_
    rw [← same] at inside ⊢
    exact store safe' inside x
  · exact ok safe.pop

theorem Secured.assignMember (safe : m.Safe) (frame : f.Safe m.heap) {t value : Expr} {x : String}
    (parsedTarget : Parsed t) (parsedValue : Parsed value) :
    Secured m.heap (m.assignMember f t x value) := by
  rw [Machine.assignMember]
  split
  · exact ok (safe.push frame.target (.parsed parsedTarget))
  · exact ok (safe.push frame.target (.parsed parsedValue))
  · refine withValue safe fun v m' safe' same inside => ?_
    rw [← same] at inside ⊢
    refine withValue safe' fun r m'' safe'' same' _ => ?_
    rw [← same'] at inside ⊢
    exact store safe'' inside x
  · exact ok safe.pop

theorem Secured.box (safe : m.Safe) {es : List Expr} {body : Option Expr}
    (folded : body = Expr.ofList es) (all : ∀ e ∈ es, Parsed e) :
    Secured m.heap (m.box f body) := by
  rw [Machine.box]
  split
  · have new := Heap.made_newBox safe.heap
    have pushed := (safe.make (f := Heap.newBox) new).pushValue new.inside
    cases body with
    | none => exact ⟨pushed, new.later⟩
    | some e => exact ⟨pushed.push new.inside (.runnable (.of_ofList all folded.symm)), new.later⟩
  · exact ok (safe.trim _)
  · exact ok safe.pop

theorem Secured.method (safe : m.Safe) {params : List String} {body : Option Expr}
    (sound : Method.Sound m.heap ⟨params, body, false⟩) :
    Secured m.heap (m.method f params body) := by
  rw [Machine.method]
  split
  · have new : m.heap.Made (m.heap.newMethod ⟨params, body, false⟩) :=
      Heap.made_newMethod safe.heap (sound.mono (Heap.extends_push _ _))
    exact ⟨(safe.make (f := fun h => h.newMethod _) new).pushValue new.inside, new.later⟩
  · exact ok (safe.trim _)
  · exact ok safe.pop

theorem Secured.list (safe : m.Safe) (frame : f.Safe m.heap) {items : List Expr}
    (all : ∀ e ∈ items, Parsed e) : Secured m.heap (m.list f items) := by
  rw [Machine.list]
  split
  · next e found =>
    exact ok (safe.push frame.target (.parsed (all e (List.mem_of_getElem? found))))
  · split
    · have above : ∀ v ∈ (m.values.extract f.floor m.values.size).toList, v < m.heap.size := by
        intro v member
        rw [Array.toList_extract, List.extract_eq_take_drop] at member
        have kept := List.mem_of_mem_drop (List.mem_of_mem_take member)
        exact safe.values v (Array.mem_toList_iff.mp kept)
      have new := Heap.made_newList safe.heap above
      have listed := (safe.trim f.floor).make (f := fun h => h.newList _) new
      exact ⟨listed.pushValue new.inside, new.later⟩
    · exact ok safe.pop

/-- A native call of a method, for a program that embeds the language and adds
no routines to it. -/
theorem Secured.native {host : Host σ} (shipped : host.natives = shippedRoutines) (safe : m.Safe)
    {x : String} {routine : Option Routine} (known : Expr.Native m.heap (.native x routine)) :
    Secured m.heap (native host m f x routine) := by
  rw [Machine.native]
  split
  · obtain ⟨r, found, proper⟩ := known.routine
    rw [shipped, found]
    have args := safe.heap.arguments f.target
    rcases r.run_safe host proper safe.heap safe.canon args m.world with
      ⟨failure, ran, -⟩ | ⟨h, v, ran, keeps, sound, inside⟩
    · simp only [ran]
      exact ⟨safe.heap, .refl _⟩
    · simp only [ran]
      refine ⟨(safe.grow keeps.later sound m.world).pushValue ?_, keeps.later⟩
      cases v with
      | none => exact keeps.later.inside safe.nullValue
      | some v => exact inside v rfl
  · exact ok safe.pop

theorem dispatch_secured {host : Host σ} (shipped : host.natives = shippedRoutines) (safe : m.Safe)
    (frame : f.Safe m.heap) : Secured m.heap (dispatch host m f) := by
  have evaluable := frame.expr
  rw [dispatch]
  generalize f.expr = e at evaluable
  cases evaluable with
  | held inside => exact .leaf safe f (.refl _) safe.heap inside
  | getter insideGetter insideBook => exact .call safe frame (.held insideGetter) (.held insideBook)
  | binding insideGetter insideBook => exact .assign safe frame (.getter insideGetter insideBook)
  | runnable runnable =>
    cases runnable with
    | sequence all => exact .sequence safe frame all
    | native known =>
      obtain ⟨x, routine, rfl⟩ := known.isNative
      exact .native shipped safe known
    | parsed parsed =>
      cases parsed with
      | name => exact .name safe _
      | member parsed => exact .member safe frame parsed
      | assign _ parsed => exact .assign safe frame (.parsed parsed)
      | assignMember parsedTarget _ parsedValue =>
        exact .assignMember safe frame parsedTarget parsedValue
      | call parsed all => exact .call safe frame (.parsed parsed) (.parsed (.list all))
      | box folded all => exact .box safe folded all
      | method _ folded all => exact .method safe (.parsed folded all)
      | text bytes => exact .made safe f (Heap.made_newText safe.heap _)
      | integer n => exact .made safe f (Heap.made_newInteger safe.heap n)
      | real x => exact .made safe f (Heap.made_newReal safe.heap x)
      | list all => exact .list safe frame all

/-! ## Runs -/

theorem step_secured {host : Host σ} (shipped : host.natives = shippedRoutines) (safe : m.Safe) :
    match step host m with
    | .ok next => next.Safe ∧ m.heap.Extends next.heap
    | .error error => error.1.heap.Sound ∧ m.heap.Extends error.1.heap := by
  obtain ⟨heap, world, values, frames⟩ := m
  cases frames with
  | nil => exact ⟨safe, .refl heap⟩
  | cons f frames =>
    have newest := safe.frames f (by simp)
    have counted : Safe ⟨heap, world, values, { f with step := f.step + 1 } :: frames⟩ := by
      refine ⟨safe.heap, safe.canon, safe.values, ?_⟩
      intro g member
      rcases List.mem_cons.mp member with rfl | member
      · exact ⟨newest.target, newest.expr, newest.method⟩
      · exact safe.frames g (List.mem_cons_of_mem f member)
    have secured := dispatch_secured shipped counted newest
    rw [step]
    cases result : dispatch host ⟨heap, world, values, { f with step := f.step + 1 } :: frames⟩ f with
    | ok next =>
      rw [result] at secured
      exact secured
    | error halted =>
      rw [result] at secured
      exact secured

theorem steps_safe {host : Host σ} (shipped : host.natives = shippedRoutines) {depth n : Nat}
    {last : Machine σ} (steps : Steps host depth n m last) (safe : m.Safe) :
    last.Safe ∧ m.heap.Extends last.heap := by
  induction steps with
  | stay m => exact ⟨safe, .refl m.heap⟩
  | dispatch deep one rest ih =>
    have secured := step_secured shipped safe
    rw [one] at secured
    obtain ⟨reached, later⟩ := ih secured.1
    exact ⟨reached, secured.2.trans later⟩

theorem start_safe {h : Heap} {world : σ} {target : Ref} {e : Expr} (sound : h.Sound)
    (canon : Canon.globals < h.size) (inside : target < h.size) (evaluable : e.Evaluable h) :
    (start h world target e).Safe where
  heap := sound
  canon := canon
  values v member := by
    rw [start, List.mem_toArray, List.mem_singleton] at member
    rw [member]
    exact Nat.lt_trans (by decide) canon
  frames f member := by
    rw [List.mem_singleton.mp member]
    exact ⟨inside, evaluable, nofun⟩

end Machine

end BoxScript
