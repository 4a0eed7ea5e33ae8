import BoxScript.Proofs.Machine.Turns
import BoxScript.Proofs.Heap.Delegation
import BoxScript.Proofs.Heap.Nulls
import BoxScript.Proofs.Safety.Natives

/-!
# Effects that stay in the target

A program without member assignments has only its target to assign to. The
targets of all frames that a run pushes are the program's target, for the parts
of the program outside its literals, or else boxes that the run has made: those
of box literals and the scopes of calls. So a run changes no other box, and the
target only at the names that these parts assign, wherever the run is and however
it ends.

That a scope is a new box has to be known when the body of the method begins,
which is long after the scope was made. Until then it lies at the floor of the
call, and the frames above, those that bind the parameters and whatever their
getters call, have higher floors and do not touch it.
-/

set_option autoImplicit false

namespace BoxScript

/-! ## Programs and heaps -/

namespace Expr

/-- Whether an expression changes a box that is not its target: a binding on a
value, or a function of the embedding program. -/
def isOutward : Expr → Bool
  | .assignMember _ _ _ => true
  | .native _ (some (.host _)) => true
  | _ => false

/-- No such expression stands anywhere in it, its literals included. -/
def Inward (e : Expr) : Prop := ∀ g, Occurs g e → g.isOutward = false

/-- A name is assigned on the target of an expression: by an assignment that
stands in it outside the literals of boxes and methods. -/
inductive Assigns (x : String) : Expr → Prop where
  | here (value : Expr) : Assigns x (.assign x value)
  | operand {e g : Expr} (member : g ∈ e.operands) (assigns : Assigns x g) : Assigns x e

theorem Inward.part {e g : Expr} (inward : e.Inward) (part : g ∈ e.parts) : g.Inward :=
  fun other occurs => inward other (.inside part occurs)

theorem Inward.of_parts {e : Expr} (plain : e.isOutward = false) (all : ∀ g ∈ e.parts, g.Inward) :
    e.Inward := by
  intro g occurs
  cases occurs with
  | here => exact plain
  | inside part occurs => exact all _ part g occurs

theorem inward_of_leaf {e : Expr} (plain : e.isOutward = false) (leaf : e.parts = []) :
    e.Inward :=
  .of_parts plain (by simp [leaf])

end Expr

def Method.Inward (method : Method) : Prop := ∀ e ∈ method.body, e.Inward

namespace Heap

/-- The bodies of all methods are inward. -/
def Inward (h : Heap) : Prop := ∀ r, ∀ method ∈ (h.box r).method, method.Inward

/-- A later state of a heap in which no box has changed but one, and this one in
its variables of some names at most. -/
structure ChangesOnly (h : Heap) (t : Ref) (names : String → Prop) (h' : Heap) : Prop
    extends h.Extends h' where
  others : ∀ r < h.size, r ≠ t → h'.box r = h.box r
  vars : t < h.size → ∀ x, ¬ names x → h'.get? t x = h.get? t x

namespace ChangesOnly

variable {h h' h'' : Heap} {t r v : Ref} {x : String} {names : String → Prop}

theorem refl (h : Heap) (t : Ref) (names : String → Prop) : h.ChangesOnly t names h :=
  ⟨.refl h, fun _ _ _ => rfl, fun _ _ _ => rfl⟩

/-- New boxes are no changes. -/
theorem keeps (changes : h.ChangesOnly t names h') (keeps : h'.Keeps h'') :
    h.ChangesOnly t names h'' := by
  refine ⟨changes.toExtends.trans keeps.later, fun r inside other => ?_, fun inside x free => ?_⟩
  · rw [keeps.same r (changes.inside inside), changes.others r inside other]
  · rw [get?, keeps.same t (changes.inside inside), ← changes.vars inside x free, get?]

/-- Nor are variables of new boxes. -/
theorem assign_new (changes : h.ChangesOnly t names h') (new : h.size ≤ r) (x : String) (v : Ref) :
    h.ChangesOnly t names (h'.assign r x v) := by
  have old : ∀ q < h.size, (h'.assign r x v).box q = h'.box q := by
    intro q inside
    exact box_assign_of_ne (Nat.ne_of_lt (Nat.lt_of_lt_of_le inside new)) x v
  refine ⟨changes.toExtends.trans (h'.extends_assign r x v), fun q inside other => ?_,
    fun inside y free => ?_⟩
  · rw [old q inside, changes.others q inside other]
  · rw [get?, old t inside, ← changes.vars inside y free, get?]

theorem assign_target (changes : h.ChangesOnly t names h') (named : names x) (v : Ref) :
    h.ChangesOnly t names (h'.assign t x v) := by
  refine ⟨changes.toExtends.trans (h'.extends_assign t x v), fun q inside other => ?_,
    fun inside y free => ?_⟩
  · rw [box_assign_of_ne other, changes.others q inside other]
  · have other : y ≠ x := by
      rintro rfl
      exact free named
    rw [get?_assign_of_ne t v t other, changes.vars inside y free]

end ChangesOnly

namespace Inward

variable {h : Heap}

/-- What comes with other boxes has no method but getters, whose bodies are
routines of the language. -/
theorem usual : Usual fun method _ => ∀ x ∈ method, x.Inward where
  empty := nofun
  list _ := nofun
  getter list := by
    intro x isGetter e isBody
    cases isGetter
    cases isBody
    exact Expr.inward_of_leaf rfl rfl
  integer _ := nofun

/-- The method of a box is that of some box. -/
theorem method? (inward : h.Inward) (r : Ref) : ∀ method ∈ h.method? r, method.Inward := by
  intro method found
  rcases h.method?_cases r with ⟨last, -, -, same⟩ | ⟨-, -, -, none⟩
  · rw [same] at found
    exact inward last method found
  · rw [none] at found
    cases found

end Inward

end Heap

/-! ## The frames of a run -/

/-- A frame belongs to the program's own target and assigns only some names on
it, or its target is a new box. -/
structure Frame.Confined (base : Nat) (t : Ref) (names : String → Prop) (f : Frame) : Prop where
  expr : f.expr.Inward
  method : ∀ method ∈ f.method, method.Inward
  target : base ≤ f.target ∨ f.target = t ∧ ∀ x, f.expr.Assigns x → names x

namespace Machine

/-- Calls that were entered have new boxes as their scopes, out of reach of the
frames above them. -/
structure Scopes (base : Nat) (values : Array Ref) (frames : List Frame) : Prop where
  new : ∀ f ∈ frames, f.entered = true → ∃ scope, values[f.floor]? = some scope ∧ base ≤ scope
  below : frames.Pairwise fun newer older => older.entered = true → older.floor < newer.floor

section Turn

variable {heap : Heap} {values after : Array Ref} {f : Frame} {frames frames' : List Frame}
  {base : Nat}

/-- The values below the floor of the newest frame hold the scopes of the calls
below it. -/
theorem Scopes.untouched {kept : Array Ref} (scopes : Scopes base values (f :: frames))
    (untouched : Untouched f.floor values kept) : Scopes base kept frames := by
  obtain ⟨lower, below⟩ := List.pairwise_cons.mp scopes.below
  refine ⟨fun g member entered => ?_, below⟩
  obtain ⟨scope, found, young⟩ := scopes.new g (List.mem_cons_of_mem _ member) entered
  exact ⟨scope, (untouched.same _ (lower g member entered)).trans found, young⟩

/-- A frame may be pushed on calls whose scopes lie below its floor. -/
theorem Scopes.cons {g : Frame} (scopes : Scopes base values frames) (outside : g.entered = false)
    (lower : ∀ older ∈ frames, older.entered = true → older.floor < g.floor) :
    Scopes base values (g :: frames) := by
  refine ⟨fun f member entered => ?_, .cons lower scopes.below⟩
  rcases List.mem_cons.mp member with rfl | member
  · rw [outside] at entered
    cases entered
  · exact scopes.new f member entered

/-- So may several at once that are no calls. -/
theorem Scopes.append {binding : List Frame} (scopes : Scopes base values frames)
    (outside : ∀ g ∈ binding, g.entered = false)
    (lower : ∀ g ∈ binding, ∀ older ∈ frames, older.entered = true → older.floor < g.floor) :
    Scopes base values (binding ++ frames) := by
  induction binding with
  | nil => exact scopes
  | cons g binding ih =>
    have rest := ih (fun b member => outside b (List.mem_cons_of_mem g member))
      fun b member => lower b (List.mem_cons_of_mem g member)
    refine rest.cons (outside g List.mem_cons_self) fun older member entered => ?_
    rcases List.mem_append.mp member with member | member
    · rw [outside older (List.mem_cons_of_mem g member)] at entered
      cases entered
    · exact lower g List.mem_cons_self older member entered

theorem Turn.scopes (turn : Turn heap values f frames after frames')
    (scopes : Scopes base values (f :: frames)) (young : base ≤ heap.size) :
    Scopes base after frames' := by
  obtain ⟨lower, below⟩ := List.pairwise_cons.mp scopes.below
  cases turn with
  | pop => exact ⟨fun g member => scopes.new g (List.mem_cons_of_mem _ member), below⟩
  | stay untouched outside => exact (scopes.untouched untouched).cons outside lower
  | wait untouched outside begins =>
    have waiting := (scopes.untouched untouched).cons outside lower
    refine waiting.cons (by simp [Frame.entered]) fun g member entered => ?_
    rcases List.mem_cons.mp member with rfl | member
    · rw [outside] at entered
      cases entered
    · exact Nat.lt_of_lt_of_le (lower g member entered) untouched.size
  | @enter _ callee binding untouched scope binds =>
    -- The call itself, whose scope is the next box of the heap.
    have call : Scopes base after ({ f.again with method := heap.method? callee } :: frames) := by
      have kept := scopes.untouched untouched
      refine ⟨fun g member entered => ?_, .cons lower below⟩
      rcases List.mem_cons.mp member with rfl | member
      · exact ⟨heap.size, scope, young⟩
      · exact kept.new g member entered
    refine call.append (fun g member => ?_) fun g member older isOlder entered => ?_
    · obtain ⟨_, _, _, rfl⟩ := binds g member
      rfl
    · obtain ⟨_, _, _, rfl⟩ := binds g member
      rcases List.mem_cons.mp isOlder with rfl | isOlder
      · exact Nat.lt_succ_self _
      · exact Nat.lt_succ_of_lt (lower older isOlder entered)

/-- What a frame waits for is confined as the frame is. -/
theorem Begins.confined {t target : Ref} {names : String → Prop} {e : Expr} {floor : Nat}
    (begins : Begins heap values f target e) (scopes : Scopes base values (f :: frames))
    (young : base ≤ heap.size) (confined : f.Confined base t names) :
    Frame.Confined base t names ⟨target, e, 0, floor, none⟩ := by
  cases begins with
  | operand member =>
    refine ⟨confined.expr.part (Expr.parts_of_operands member), by simp, ?_⟩
    rcases confined.target with new | ⟨same, named⟩
    · exact .inl new
    · exact .inr ⟨same, fun x assigns => named x (.operand member assigns)⟩
  | box literal =>
    refine ⟨confined.expr.part ?_, by simp, .inl young⟩
    rw [literal]
    exact List.mem_singleton_self e
  | body entered kept found body =>
    obtain ⟨scope, same, new⟩ := scopes.new f List.mem_cons_self entered
    cases kept.symm.trans same
    exact ⟨confined.method _ found e body, by simp, .inl new⟩

/-- The assignment that binds a parameter is one on the scope. -/
theorem confined_binding {t scope : Ref} {names : String → Prop} {floor : Nat} {g : Frame}
    (new : base ≤ scope) (binds : g.Binds scope floor) : g.Confined base t names := by
  obtain ⟨param, getter, book, rfl⟩ := binds
  have held : ∀ r, (Expr.held r).Inward := fun r => Expr.inward_of_leaf rfl rfl
  have call : (Expr.call (.held getter) (.held book)).Inward :=
    .of_parts rfl (by simpa [Expr.parts] using ⟨held getter, held book⟩)
  exact ⟨.of_parts rfl (by simpa [Expr.parts] using call), by simp, .inl new⟩

/-- A turn leaves the frames confined. -/
theorem Turn.confined {t : Ref} {names : String → Prop}
    (turn : Turn heap values f frames after frames') (scopes : Scopes base values (f :: frames))
    (young : base ≤ heap.size) (methods : heap.Inward)
    (confined : ∀ g ∈ f :: frames, g.Confined base t names) :
    ∀ g ∈ frames', g.Confined base t names := by
  obtain ⟨newest, older⟩ := List.forall_mem_cons.mp confined
  have again : f.again.Confined base t names := ⟨newest.expr, newest.method, newest.target⟩
  cases turn with
  | pop => exact older
  | stay untouched outside => exact List.forall_mem_cons.mpr ⟨again, older⟩
  | wait untouched outside begins =>
    refine List.forall_mem_cons.mpr ⟨?_, List.forall_mem_cons.mpr ⟨again, older⟩⟩
    exact begins.confined scopes young newest
  | @enter _ callee binding untouched scope binds =>
    intro g member
    rcases List.mem_append.mp member with member | member
    · exact confined_binding young (binds g member)
    · rcases List.mem_cons.mp member with rfl | member
      · exact ⟨newest.expr, methods.method? callee, newest.target⟩
      · exact older g member

end Turn

/-! ## Runs -/

variable {σ : Type} {host : Host σ} {h : Heap} {t : Ref} {names : String → Prop}

/-- The state of a run that began on a heap and may assign some names on one of
its boxes. -/
structure Confined (h : Heap) (t : Ref) (names : String → Prop) (m : Machine σ) : Prop where
  disciplined : Disciplined m
  heap : h.ChangesOnly t names m.heap
  methods : m.heap.Inward
  scopes : Scopes h.size m.values m.frames
  frames : ∀ f ∈ m.frames, f.Confined h.size t names

/-- A frame that binds a variable does so on its target. -/
theorem binding?_of_inward {m : Machine σ} {f : Frame} {r v : Ref} {x : String}
    (inward : f.expr.Inward) (binds : m.binding? f = some (r, x, v)) :
    r = f.target ∧ f.expr.Assigns x := by
  rw [binding?] at binds
  split at binds
  · next kind _ =>
    obtain ⟨w, -, same⟩ := Option.map_eq_some_iff.mp binds
    cases same
    exact ⟨rfl, kind ▸ .here _⟩
  · next kind _ =>
    have outward := inward _ .here
    rw [kind] at outward
    cases outward
  · cases binds

theorem Change.changesOnly {m : Machine σ} {f : Frame} {h' : Heap} (change : Change m f h')
    (heap : h.ChangesOnly t names m.heap) (confined : f.Confined h.size t names) :
    h.ChangesOnly t names h' := by
  cases change with
  | none => exact heap
  | bind binds _ =>
    obtain ⟨rfl, assigns⟩ := binding?_of_inward confined.expr binds
    rcases confined.target with new | ⟨same, named⟩
    · exact heap.assign_new new _ _
    · rw [same]
      exact heap.assign_target (named _ assigns) _
  | bare method _ => exact heap.keeps (Heap.keeps_push _ _)
  | list _ => exact heap.keeps (Heap.keeps_newList _ _)
  | value _ _ _ => exact heap.keeps (Heap.keeps_newWith _ _ _)
  | enter _ _ getter params =>
    exact heap.keeps ((Heap.keeps_scope _ _ _).trans (Heap.keeps_bindings _ getter 0 params))

theorem Change.inward {m : Machine σ} {f : Frame} {h' : Heap} (change : Change m f h')
    (methods : m.heap.Inward) (confined : f.Confined h.size t names) : h'.Inward := by
  refine change.throughout Heap.Inward.usual ?_ (fun _ _ _ => nofun) methods
  intro method literal x isMethod e isBody
  cases isMethod
  apply confined.expr.part
  rw [literal]
  exact Option.mem_toList.mpr isBody

/-- An inward expression calls routines of the language only. -/
theorem not_hostCall (shipped : host.natives = shippedRoutines) {m : Machine σ} {f : Frame}
    {h' : Heap} (inward : f.expr.Inward) : ¬ HostCall host m f h' := by
  rintro ⟨x, routine, key, args, kind, found, -⟩
  cases routine with
  | some r =>
    cases found
    have outward := inward _ .here
    rw [kind] at outward
    cases outward
  | none =>
    rw [shipped] at found
    exact Routine.safe_shipped (h := m.heap) found

section Steps

variable (shipped : host.natives = shippedRoutines)

include shipped

/-- One dispatch, whether it goes on or stops. -/
theorem Confined.heapAfter {m : Machine σ} (confined : m.Confined h t names) :
    h.ChangesOnly t names (heapAfter host m) ∧ (heapAfter host m).Inward := by
  cases newest : m.frames with
  | nil =>
    rw [heapAfter_nil host newest]
    exact ⟨confined.heap, confined.methods⟩
  | cons f frames =>
    have own := confined.frames f (newest ▸ List.mem_cons_self)
    rcases heapAfter_change host newest with change | called
    · exact ⟨change.changesOnly confined.heap own, change.inward confined.methods own⟩
    · exact absurd called (not_hostCall shipped own.expr)

theorem Confined.step {m next : Machine σ} (confined : m.Confined h t names)
    (one : step host m = .ok next) : next.Confined h t names := by
  have after := confined.heapAfter shipped
  rw [Machine.heapAfter, one] at after
  cases newest : m.frames with
  | nil =>
    obtain ⟨heap, world, values, _⟩ := m
    cases newest
    cases one
    exact confined
  | cons f frames =>
    have turn := step_turn confined.disciplined newest one
    have scopes := confined.scopes
    have all := confined.frames
    rw [newest] at scopes all
    exact ⟨step_disciplined confined.disciplined one, after.1, after.2,
      turn.scopes scopes confined.heap.size,
      turn.confined scopes confined.heap.size confined.methods all⟩

theorem Confined.steps {n : Nat} {m last : Machine σ} (steps : Steps host 0 n m last)
    (confined : m.Confined h t names) : last.Confined h t names := by
  induction steps with
  | stay => exact confined
  | dispatch _ one _ ih => exact ih (confined.step shipped one)

theorem Confined.run {m : Machine σ} (confined : m.Confined h t names) (fuel : Nat) :
    h.ChangesOnly t names (run host fuel m).heap := by
  refine run_related (R := fun a b => h.ChangesOnly t names a → h.ChangesOnly t names b)
    (fun _ => id) (fun first second => second ∘ first) (fun m confined _ => ?_)
    (fun m next confined one => confined.step shipped one) fuel confined confined.heap
  exact (confined.heapAfter shipped).1

end Steps

theorem confined_start {e : Expr} (methods : h.Inward) (inward : e.Inward) (world : σ) (t : Ref) :
    (start h world t e).Confined h t (Expr.Assigns · e) where
  disciplined := start_disciplined h world t e
  heap := .refl h t _
  methods := methods
  scopes := ⟨by simp [start, Frame.entered], by simp [start]⟩
  frames := by
    intro f member
    rw [List.mem_singleton.mp member]
    exact ⟨inward, by simp, .inr ⟨rfl, fun x assigns => assigns⟩⟩

end Machine

/-! ## Evaluations -/

/-- Without member assignments, effects stay in the target. Neither the program
nor a method of the heap has one, nor a function of the embedding program. Then in
every state that the evaluation reaches, and however it ends or is given up, all
boxes are as they were but the target, and the target is as it was but for the
names that the program assigns outside its box and method literals. -/
theorem effects_stay_in_target {σ : Type} {host : Host σ}
    (shipped : host.natives = shippedRoutines) {h : Heap} (methods : h.Inward) {e : Expr}
    (inward : e.Inward) (target : Option Ref) (world : σ) :
    (∀ n m, Machine.Steps host 0 n
        (.start (h.target target).1 world (h.target target).2 e) m →
      (h.target target).1.ChangesOnly (h.target target).2 (Expr.Assigns · e) m.heap) ∧
    ∀ fuel, (h.target target).1.ChangesOnly (h.target target).2 (Expr.Assigns · e)
        (evaluate host fuel h world target (some e)).heap ∧
      ∀ r < h.size, target ≠ some r →
        (evaluate host fuel h world target (some e)).heap.box r = h.box r := by
  have start := Machine.confined_start (Heap.Throughout.target Heap.Inward.usual target methods)
    inward world (h.target target).2
  refine ⟨fun n m steps => (start.steps shipped steps).heap, fun fuel => ?_⟩
  have changes := start.run shipped fuel
  rw [← heap_evaluate] at changes
  refine ⟨changes, fun r inside other => ?_⟩
  cases target with
  | none =>
    have old : r < (h.push {}).size := by
      rw [Heap.size_push]
      exact Nat.lt_succ_of_lt inside
    exact (changes.others r old (Nat.ne_of_lt inside)).trans (Heap.box_push_of_lt {} inside)
  | some t => exact changes.others r inside fun same => other (congrArg some same.symm)

/-- The methods that come with the language are routines. -/
theorem Heap.inward_initial : Heap.initial.Inward := by
  have size : Heap.initial.size = 31 := by decide +kernel
  have plain : ∀ r < 31, ((Heap.initial.box r).method.all fun method =>
      method.body.all fun e => !e.isOutward && e.parts.isEmpty) = true := by decide +kernel
  intro r method found e body
  by_cases inside : r < 31
  · have checked := plain r inside
    rw [Option.mem_def.mp found, Option.all_some, Option.mem_def.mp body, Option.all_some,
      Bool.and_eq_true, Bool.not_eq_true', List.isEmpty_iff] at checked
    exact Expr.inward_of_leaf checked.1 checked.2
  · have outside : Heap.initial.size ≤ r := by
      rw [size]
      exact Nat.le_of_not_lt inside
    rw [Heap.box_of_le outside] at found
    cases found

namespace Expr

/-- The call of a method that assigns a name that the target has. -/
def shadowing : Expr :=
  .call (.method ["p"] (some (.assign "true" (.name "p")))) (.list [.integer 1])

theorem inward_shadowing : shadowing.Inward := by
  have body : (assign "true" (.name "p")).Inward :=
    .of_parts rfl (by simpa [parts] using inward_of_leaf rfl rfl)
  have method : (method ["p"] (some (.assign "true" (.name "p")))).Inward :=
    .of_parts rfl (by simpa [parts] using body)
  have argument : (list [.integer 1]).Inward :=
    .of_parts rfl (by simpa [parts] using inward_of_leaf rfl rfl)
  exact .of_parts rfl (by simpa [shadowing, parts] using ⟨method, argument⟩)

/-- The only assignment stands in the literal. -/
theorem not_assigns_shadowing (x : String) : ¬ shadowing.Assigns x := by
  intro assigns
  cases assigns with
  | operand member assigns =>
    rcases List.mem_pair.mp member with rfl | rfl
    · cases assigns with
      | operand member _ => cases member
    · cases assigns with
      | operand member assigns =>
        rw [List.mem_singleton.mp member] at assigns
        cases assigns with
        | operand member _ => cases member

end Expr

/-- The method has run and assigned `true` on its scope, and `true` of the globals
is what it was. -/
theorem effects_stay_in_target_shadowing :
    let result := evaluate Host.plain 100 Heap.initial () (some Canon.globals) (some .shadowing)
    result.outcome matches .value _ ∧
      result.heap.get? Canon.globals "true" = some Canon.trueValue := by
  have start : Heap.initial.get? Canon.globals "true" = some Canon.trueValue := by decide +kernel
  have inside : Canon.globals < Heap.initial.size := by decide +kernel
  have shipped : Host.plain.natives = shippedRoutines := rfl
  obtain ⟨-, ends⟩ := effects_stay_in_target shipped Heap.inward_initial Expr.inward_shadowing
    (some Canon.globals) ()
  refine ⟨by decide +kernel, ?_⟩
  exact ((ends 100).1.vars inside "true" (Expr.not_assigns_shadowing "true")).trans start

end BoxScript
