import BoxScript.Proofs.Safety.Machine

/-!
# Failures of parsed programs

What a safe machine fails for is read off the recursion, where the whole course
of a call is in view. The book of a call in a source is a list that was made
for it, so it has its getter, and nothing but that getter runs before the
parameters are bound. Hence no parameter is left without a getter to bind it
by, and every failure has an ordinary cause.
-/

set_option autoImplicit false

namespace BoxScript

open Source (Parsed)

/-! ## Trials that fail for ordinary causes -/

namespace Trial

variable {σ α β : Type}

/-- A trial that fails for ordinary causes only, and whose value and store are
as `P` says. -/
def Orderly (P : α → Store σ → Prop) : Trial σ α → Prop
  | none => True
  | some (.error (halted, _)) => halted.failure.Ordinary
  | some (.ok (a, s)) => P a s

namespace Orderly

variable {P Q : α → Store σ → Prop} {t : Trial σ α}

theorem imp (orderly : Orderly P t) (weaker : ∀ a s, P a s → Q a s) : Orderly Q t := by
  match t with
  | none => trivial
  | some (.error _) => exact orderly
  | some (.ok (a, s)) => exact weaker a s orderly

/-- What is known of the values anyway. -/
theorem and_value (orderly : Orderly P t) (value : ∀ a s, t = some (.ok (a, s)) → Q a s) :
    Orderly (fun a s => P a s ∧ Q a s) t := by
  match t with
  | none => trivial
  | some (.error _) => exact orderly
  | some (.ok (a, s)) => exact ⟨orderly, value a s rfl⟩

theorem of_value (orderly : Orderly (fun _ _ => True) t)
    (value : ∀ a s, t = some (.ok (a, s)) → P a s) : Orderly P t :=
  (orderly.and_value value).imp fun _ _ both => both.2

theorem andThen {R : β → Store σ → Prop} {next : α → Store σ → Trial σ β} (orderly : Orderly P t)
    (goesOn : ∀ a s, P a s → Orderly R (next a s)) : Orderly R (t.andThen next) := by
  match t with
  | none => trivial
  | some (.error _) => exact orderly
  | some (.ok (a, s)) => exact goesOn a s orderly

end Orderly

end Trial

/-- A sound heap with the boxes that every heap starts with. -/
structure Store.Safe {σ : Type} (s : Store σ) : Prop where
  heap : s.heap.Sound
  canon : Canon.globals < s.heap.size

/-- A value and the safe store that it comes with. -/
structure Store.Yields {σ : Type} (s : Store σ) (v : Ref) (s' : Store σ) : Prop where
  safe : s'.Safe
  later : s.heap.Extends s'.heap
  inside : v < s'.heap.size

theorem Store.Safe.grow {σ : Type} {s : Store σ} (safe : s.Safe) {h : Heap} (sound : h.Sound)
    (later : s.heap.Extends h) : Store.Safe { s with heap := h } :=
  ⟨sound, later.inside safe.canon⟩

namespace Recursive

variable {σ : Type} {host : Host σ} {s : Store σ} {target : Ref} {e : Expr}

open Trial (Orderly)

/-- A value of the recursion is one of a safe machine. -/
theorem eval_yields (shipped : host.natives = shippedRoutines) (safe : s.Safe)
    (inside : target < s.heap.size) (evaluable : e.Evaluable s.heap) {n : Nat} {v : Ref}
    {s' : Store σ} (value : eval host n target e s = some (.ok (v, s'))) : s.Yields v s' := by
  let empty : Machine σ := ⟨s.heap, s.world, #[], []⟩
  have start : empty.Safe := ⟨safe.heap, safe.canon, nofun, nofun⟩
  obtain ⟨k, steps⟩ := Machine.steps_of_value (m := empty) (.inl rfl) ⟨n, value⟩
  obtain ⟨reached, later⟩ := Machine.steps_safe shipped steps (start.push inside evaluable)
  exact ⟨⟨reached.heap, reached.canon⟩, later, reached.values v (by simp)⟩

/-! ## The parts of the recursion -/

section Each

variable {I : Store σ → Prop} {f : Expr → Store σ → Trial σ Ref} {es : List Expr}
  (one : ∀ e ∈ es, ∀ s, I s → Orderly (fun _ => I) (f e s))

include one

theorem each_orderly (holds : I s) : Orderly (fun _ => I) (each f es s) := by
  induction es generalizing s with
  | nil => exact holds
  | cons e es ih =>
    refine (one e (by simp) s holds).andThen fun v s' holds' => ?_
    refine (ih (fun e member => one e (by simp [member])) holds').andThen fun vs s'' holds'' => ?_
    exact holds''

theorem last_orderly (v : Ref) (holds : I s) : Orderly (fun _ => I) (last f v es s) := by
  induction es generalizing s v with
  | nil => exact holds
  | cons e es ih =>
    refine (one e (by simp) s holds).andThen fun v s' holds' => ?_
    exact ih (fun e member => one e (by simp [member])) v holds'

end Each

theorem found_orderly (e : Expr) (x : String) (r : Option Ref) (s : Store σ) :
    Orderly (fun _ _ => True) (found e x r s) := by
  cases r with
  | none => exact (by decide : CauseKind.undefined ∈ ordinaryKinds)
  | some v => exact trivial

theorem store_orderly {P : Ref → Store σ → Prop} (e : Expr) (r : Ref) (x : String) (v : Ref)
    (s : Store σ) (stored : P v { s with heap := s.heap.assign r x v }) :
    Orderly P (store e r x v s) := by
  rw [store]
  split
  · exact (by decide : CauseKind.sealed ∈ ordinaryKinds)
  · exact stored

/-- A native call of a method leaves all boxes as they were. -/
theorem runNative_orderly (shipped : host.natives = shippedRoutines) (safe : s.Safe) {x : String}
    {routine : Option Routine} (known : Expr.Native s.heap (.native x routine)) (scope : Ref) :
    Orderly (fun v s' => s.Yields v s' ∧ s.heap.Keeps s'.heap)
      (runNative host e scope x routine s) := by
  obtain ⟨r, found, proper⟩ := known.routine
  have args := safe.heap.arguments scope
  rw [runNative, shipped, found]
  rcases r.run_safe host proper safe.heap safe.canon args s.world with
    ⟨failure, ran, ordinary⟩ | ⟨h, v, ran, keeps, sound, inside⟩
  · simp only [ran]
    exact ordinary
  · simp only [ran]
    have canon := keeps.later.inside safe.canon
    refine ⟨⟨⟨sound, canon⟩, keeps.later, ?_⟩, keeps⟩
    cases v with
    | none => exact Nat.lt_trans (by decide) canon
    | some v => exact inside v rfl

/-! ## Binding parameters -/

/-- A box with nothing but a native method runs that method. -/
theorem method?_native {h : Heap} {r : Ref} {x : String} {routine : Option Routine}
    (isNative : h.box r = .native x routine) :
    h.method? r = some ⟨[], some (.native x routine), true⟩ := by
  have plain : h.get? r callName = none := by
    rw [Heap.get?, isNative]
    rfl
  rw [Heap.method?, Heap.methodFrom, plain, isNative]
  rfl

theorem native_of_box {h : Heap} (sound : h.Sound) {r : Ref} {x : String}
    {routine : Option Routine} (isNative : h.box r = .native x routine) :
    Expr.Native h (.native x routine) := by
  have method : Method.Sound h ⟨[], some (.native x routine), true⟩ :=
    (sound.box r).method _ (by rw [isNative]; rfl)
  cases method with
  | native known => exact known

section Getter

variable (shipped : host.natives = shippedRoutines) (safe : s.Safe) {getter book : Ref}
  (insideGetter : getter < s.heap.size) (insideBook : book < s.heap.size) {x : String}
  {routine : Option Routine} (isNative : s.heap.box getter = .native x routine)

include shipped safe insideGetter insideBook isNative

/-- The call of a native method has no parameters to bind. -/
theorem invoke_native (n : Nat) :
    Orderly (fun v s' => s.Yields v s' ∧ s.heap.Keeps s'.heap)
      (invoke (eval host n) e getter book s) := by
  have new := Heap.made_scope safe.heap insideGetter insideBook
  let opened : Store σ := { s with heap := (s.heap.scope getter book).1 }
  have safeOpened : opened.Safe := safe.grow new.sound new.later
  have whole : invoke (eval host n) e getter book s =
      eval host n s.heap.size (.native x routine) opened := by
    rw [invoke, method?_native isNative]
    rfl
  rw [whole]
  cases n with
  | zero => trivial
  | succ n =>
    have known : Expr.Native opened.heap (.native x routine) :=
      (native_of_box safe.heap isNative).mono new.later
    refine (runNative_orderly shipped safeOpened known s.heap.size).imp ?_
    rintro v s' ⟨yields, keeps⟩
    exact ⟨⟨yields.safe, new.later.trans yields.later, yields.inside⟩, new.keeps.trans keeps⟩

/-- A binding asks the getter, which stays as it is, since it is not the scope. -/
theorem binding_orderly (n : Nat) {scope : Ref} (other : getter ≠ scope) (param : String) :
    Orderly (fun _ s' => s'.Safe ∧ s.heap.Extends s'.heap ∧ s'.heap.box getter = s.heap.box getter)
      (eval host n scope (.assign param (.call (.held getter) (.held book))) s) := by
  match n with
  | 0 | 1 | 2 => trivial
  | n + 3 =>
    change Orderly _ ((invoke (eval host (n + 1)) _ getter book s).andThen _)
    refine (invoke_native shipped safe insideGetter insideBook isNative (n + 1)).andThen ?_
    rintro v s' ⟨yields, keeps⟩
    refine store_orderly _ scope param v s' ?_
    have later := s'.heap.extends_assign scope param v
    refine ⟨yields.safe.grow (yields.safe.heap.assign _ _ yields.inside) later,
      yields.later.trans later, ?_⟩
    change (s'.heap.assign scope param v).box getter = s.heap.box getter
    rw [Heap.box_assign_of_ne other, keeps.same getter insideGetter]

end Getter

/-- The lists that hold the positions are made, and no box changes. -/
theorem bindings_made {h : Heap} (sound : h.Sound) (getter : Ref) (i : Nat) (params : List String) :
    let made := bindings getter h i params
    h.Keeps made.1 ∧ made.1.Sound ∧
      ∀ e ∈ made.2, ∃ x book, e = .assign x (.call (.held getter) (.held book)) ∧
        book < made.1.size := by
  induction params generalizing h i with
  | nil => exact ⟨.refl h, sound, nofun⟩
  | cons param params ih =>
    have integer := Heap.made_newInteger sound (Int64.ofNat i)
    have list := Heap.made_listOfInteger sound (Int64.ofNat i)
    obtain ⟨keeps, sound', all⟩ := ih list.sound (i + 1)
    refine ⟨integer.keeps.trans (list.keeps.trans keeps), sound', ?_⟩
    intro e member
    rcases List.mem_cons.mp member with rfl | member
    · exact ⟨param, _, rfl, keeps.later.inside list.inside⟩
    · exact all e member

/-- A book has a getter, and the getter is as it was made. -/
structure Booked (h : Heap) (book getter : Ref) : Prop where
  get : h.get? book getName = some getter
  native : ∃ x routine, h.box getter = .native x routine

theorem Booked.keep {h h' : Heap} {book getter : Ref} (booked : Booked h book getter)
    (sound : h.Sound) (inside : book < h.size) (keeps : h.Keeps h') : Booked h' book getter where
  get := by
    rw [Heap.get?, keeps.same book inside]
    exact booked.get
  native := by
    rw [keeps.same getter (sound.get? booked.get)]
    exact booked.native

/-- A list that has just been evaluated is a book. -/
theorem booked_of_list {n : Nat} {items : List Expr} {book : Ref} {s' : Store σ}
    (value : eval host n target (.list items) s = some (.ok (book, s'))) :
    ∃ getter, Booked s'.heap book getter := by
  cases n with
  | zero => cases value
  | succ n =>
    rw [eval, Trial.andThen.eq_def] at value
    split at value
    · cases value
    · cases value
    · next vs s₁ _ =>
      cases value
      exact ⟨_, s₁.heap.get?_newList vs, _, _, s₁.heap.box_newList_getter vs⟩

theorem checkGetter_booked {h : Heap} {book getter : Ref} (found : h.get? book getName = some getter)
    (params : List String) : checkGetter h params book = .ok () := by
  cases params with
  | nil => rfl
  | cons param params => simp only [checkGetter, found]

/-- The arguments in a book may be too many or too few. -/
theorem checkArguments_ordinary {h : Heap} {method : Option Method} {book getter : Ref}
    {cause : Cause} (found : h.get? book getName = some getter)
    (fails : checkArguments h method book = .error cause) : cause.kind ∈ ordinaryKinds := by
  rw [checkArguments.eq_def] at fails
  split at fails
  · cases fails
  · split at fails
    · cases fails
    · split at fails
      · rw [checkGetter_booked found] at fails
        cases fails
      · split at fails
        · next unequal =>
          cases fails
          rw [checkLength] at unequal
          split at unequal
          · cases unequal
            exact (by decide : CauseKind.tooManyArguments ∈ ordinaryKinds)
          · split at unequal
            · cases unequal
              exact (by decide : CauseKind.missingArgument ∈ ordinaryKinds)
            · cases unequal
        · rw [checkGetter_booked found] at fails
          cases fails

/-- The parameters are bound from a book whose getter is not the scope. -/
theorem bindAll_orderly (shipped : host.natives = shippedRoutines) (safe : s.Safe)
    {scope book getter : Ref} (booked : Booked s.heap book getter) (n : Nat)
    (other : getter ≠ scope) (params : List String) :
    Orderly (fun _ s' => s'.Safe ∧ s.heap.Extends s'.heap)
      (bindAll (eval host n) e scope book params s) := by
  obtain ⟨found, x, routine, isNative⟩ := booked
  have inside := safe.heap.get? found
  cases params with
  | nil => exact ⟨safe, .refl _⟩
  | cons param params =>
    rw [bindAll.eq_def]
    simp only [found]
    obtain ⟨keeps, sound, all⟩ := bindings_made safe.heap getter 0 (param :: params)
    generalize bindings getter s.heap 0 (param :: params) = made at keeps sound all
    have later := keeps.later
    -- Each binding leaves the getter and the lists of positions as they are.
    let I : Store σ → Prop := fun s' =>
      s'.Safe ∧ made.1.Extends s'.heap ∧ s'.heap.box getter = .native x routine
    have start : I { s with heap := made.1 } :=
      ⟨safe.grow sound later, .refl _, (keeps.same getter inside).trans isNative⟩
    have one : ∀ e ∈ made.2.reverse, ∀ s', I s' → Orderly (fun _ => I) (eval host n scope e s') := by
      rintro e member s' ⟨safe', later', isNative'⟩
      obtain ⟨y, position, rfl, insidePosition⟩ := all e (List.mem_reverse.mp member)
      refine (binding_orderly shipped safe' (later'.inside (later.inside inside))
        (later'.inside insidePosition) isNative' n other y).imp ?_
      rintro _ s'' ⟨safe'', later'', unchanged⟩
      exact ⟨safe'', later'.trans later'', unchanged.trans isNative'⟩
    refine (each_orderly one start).imp ?_
    rintro _ s' ⟨safe', later', -⟩
    exact ⟨safe', later.trans later'⟩

/-! ## The recursion as a whole -/

/-- A call with a book, if the body of the method is orderly. -/
theorem invoke_orderly (shipped : host.natives = shippedRoutines) (safe : s.Safe) {callee book : Ref}
    (insideCallee : callee < s.heap.size) (insideBook : book < s.heap.size)
    {getter : Ref} (booked : Booked s.heap book getter) {n : Nat}
    (body : ∀ {s' : Store σ} {scope : Ref} {e : Expr}, s'.Safe → scope < s'.heap.size →
      e.Runnable s'.heap → Orderly s'.Yields (eval host n scope e s')) :
    Orderly (fun _ _ => True) (invoke (eval host n) e callee book s) := by
  have method := safe.heap.method? callee
  have new := Heap.made_scope safe.heap insideCallee insideBook
  let opened : Store σ := ⟨(s.heap.scope callee book).1, s.world⟩
  have safeOpened : opened.Safe := safe.grow new.sound new.later
  -- The book and its getter are older than the scope.
  have booked' : Booked opened.heap book getter := booked.keep safe.heap insideBook new.keeps
  have other : getter ≠ s.heap.size := Nat.ne_of_lt (safe.heap.get? booked.get)
  cases check : checkArguments (s.heap.scope callee book).1 (s.heap.method? callee) book with
  | error cause =>
    rw [Machine.invoke_error check]
    exact checkArguments_ordinary booked'.get check
  | ok =>
    rw [Machine.invoke_ok check]
    refine (bindAll_orderly shipped safeOpened booked' n other _).andThen ?_
    rintro _ s' ⟨safe', later⟩
    rw [bodyValue]
    split
    · exact trivial
    · next e found =>
      obtain ⟨m, isMethod, isBody⟩ := Option.bind_eq_some_iff.mp found
      have sound := (method m isMethod).mono (new.later.trans later)
      exact (body safe' (later.inside new.inside) (.of_method sound isBody)).imp
        fun _ _ _ => trivial

/-- The recursion yields boxes of safe stores and fails for ordinary causes. -/
theorem eval_orderly (shipped : host.natives = shippedRoutines) (n : Nat) (safe : s.Safe)
    (inside : target < s.heap.size) (runnable : e.Runnable s.heap) :
    Orderly s.Yields (eval host n target e s) := by
  induction n generalizing s target e with
  | zero => trivial
  | succ n ih =>
    refine .of_value ?_ fun v s' => eval_yields shipped safe inside (.runnable runnable)
    -- Parts are evaluated against one target, in stores that stay safe.
    let I : Store σ → Prop := fun s => s.Safe ∧ target < s.heap.size
    have part : ∀ {e}, Parsed e → ∀ s, I s → Orderly (fun _ => I) (eval host n target e s) := by
      rintro e parsed s ⟨safe, inside⟩
      refine (ih safe inside (.parsed parsed)).imp fun v s' yields => ?_
      exact ⟨yields.safe, yields.later.inside inside⟩
    cases runnable with
    | sequence all =>
      rw [eval]
      exact (last_orderly (fun e member => part (all e member)) _ ⟨safe, inside⟩).imp
        fun _ _ _ => trivial
    | native known =>
      obtain ⟨x, routine, rfl⟩ := known.isNative
      rw [eval]
      exact (runNative_orderly shipped safe known target).imp fun _ _ _ => trivial
    | parsed parsed =>
      cases parsed with
      | name => exact found_orderly _ _ _ s
      | member parsed =>
        exact (part parsed s ⟨safe, inside⟩).andThen fun r s' _ => found_orderly _ _ _ s'
      | assign _ parsed =>
        exact (part parsed s ⟨safe, inside⟩).andThen fun v s' _ =>
          store_orderly _ target _ v s' trivial
      | assignMember parsedTarget _ parsedValue =>
        refine (part parsedTarget s ⟨safe, inside⟩).andThen fun r s' holds => ?_
        exact (part parsedValue s' holds).andThen fun v s'' _ => store_orderly _ r _ v s'' trivial
      | call parsed all =>
        refine (ih safe inside (.parsed parsed)).andThen fun callee s' yields => ?_
        have inside' := yields.later.inside inside
        have list := ih yields.safe inside' (.parsed (.list all))
        refine (list.and_value fun book s'' => booked_of_list).andThen ?_
        rintro book s'' ⟨yields', getter, booked⟩
        exact invoke_orderly shipped yields'.safe (yields'.later.inside yields.inside)
          yields'.inside booked ih
      | @box body es folded all =>
        have new := Heap.made_newBox safe.heap
        cases body with
        | none => exact trivial
        | some e =>
          change Orderly _ ((eval host n _ e _).andThen _)
          have body := ih (safe.grow new.sound new.later) new.inside (.of_ofList all folded.symm)
          exact body.andThen fun _ _ _ => trivial
      | method => exact trivial
      | text => exact trivial
      | integer => exact trivial
      | real => exact trivial
      | list all =>
        rw [eval]
        refine (each_orderly (fun e member => part (all e member)) ⟨safe, inside⟩).andThen ?_
        exact fun _ _ _ => trivial

end Recursive

end BoxScript
