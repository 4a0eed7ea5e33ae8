import Mathlib.Algebra.GroupWithZero.Nat
import BoxScript.Heap.Initial
import BoxScript.Proofs.Expr.Occurrence
import BoxScript.Proofs.Machine.Allowance
import BoxScript.Proofs.Machine.Balance

/-!
# Only calls can loop

The number of dispatches that an expression without calls takes can be read off
it. Every frame still has a number of dispatches to come, its own and those of
the frames for its parts, which depends on its expression and its step alone. A
dispatch lowers the sum over all frames by exactly one: what a frame no longer
owes itself is owed by the frame that it has pushed. The sum starts at the cost
of the expression and is zero only when no frame is left, so an evaluation that
does not fail takes just that many dispatches, and one that fails takes no more.
-/

set_option autoImplicit false

namespace BoxScript

namespace Expr

mutual

/-- The number of dispatches that an expression takes if none of them fails.
What a call runs does not stand in it, so calls have no cost to read off. -/
def cost : Expr → Nat
  | .sequence es => if es.isEmpty then 2 else es.length + 1 + costAll es
  | .name _ => 2
  | .member target _ => 3 + target.cost
  | .assign _ value => 3 + value.cost
  | .assignMember target _ value => 4 + target.cost + value.cost
  | .call _ _ => 0
  | .box body => 3 + costBody body
  | .method _ _ => 3
  | .text _ => 2
  | .integer _ => 2
  | .real _ => 2
  | .list items => items.length + 2 + costAll items
  | .native _ _ => 2
  | .held _ => 2
  | .foreign _ _ => 1
  | .hole => 1

def costAll : List Expr → Nat
  | [] => 0
  | e :: es => e.cost + costAll es

def costBody : Option Expr → Nat
  | none => 0
  | some e => e.cost

end

/-- No call stands anywhere in an expression. -/
def CallFree (e : Expr) : Prop := ∀ target argument, ¬ (Expr.call target argument).Occurs e

theorem CallFree.part {e g : Expr} (free : e.CallFree) (part : g ∈ e.parts) : g.CallFree :=
  fun target argument occurs => free target argument (.inside part occurs)

theorem CallFree.of_parts {e : Expr} (plain : ∀ target argument, e ≠ .call target argument)
    (all : ∀ g ∈ e.parts, g.CallFree) : e.CallFree := by
  intro target argument occurs
  cases occurs with
  | here => exact plain target argument rfl
  | inside part occurs => exact all _ part target argument occurs

theorem CallFree.not_call {target argument : Expr} : ¬ (Expr.call target argument).CallFree :=
  fun free => free target argument .here

/-- The next of several expressions, and those behind it. -/
theorem costAll_drop {es : List Expr} {k : Nat} {e : Expr} (next : es[k]? = some e) :
    (es.drop k).length = (es.drop (k + 1)).length + 1 ∧
      costAll (es.drop k) = e.cost + costAll (es.drop (k + 1)) := by
  obtain ⟨inside, rfl⟩ := List.getElem?_eq_some_iff.mp next
  rw [List.drop_eq_getElem_cons inside]
  exact ⟨rfl, rfl⟩

end Expr

/-! ## What frames still take -/

/-- The dispatches to come of a frame and of the frames for its parts. -/
def Frame.left (f : Frame) : Nat :=
  match f.step with
  | 0 => f.expr.cost
  | k + 1 =>
    match f.expr with
    | .sequence es => (es.drop (k + 1)).length + 1 + Expr.costAll (es.drop (k + 1))
    | .member _ _ => if k = 0 then 2 else 1
    | .assign _ _ => if k = 0 then 2 else 1
    | .assignMember _ _ value => if k = 0 then 3 + value.cost else if k = 1 then 2 else 1
    | .box _ => if k = 0 then 2 else 1
    | .method _ _ => if k = 0 then 2 else 1
    | .list items =>
      if k < items.length then
        (items.drop (k + 1)).length + 2 + Expr.costAll (items.drop (k + 1))
      else 1
    | _ => 1

theorem Expr.CallFree.cost_pos {e : Expr} (free : e.CallFree) : 0 < e.cost := by
  cases e with
  | call target argument => exact absurd free CallFree.not_call
  | sequence es =>
    unfold cost
    split <;> omega
  | _ =>
    unfold cost
    omega

theorem Frame.left_pos {f : Frame} (free : f.expr.CallFree) : 0 < f.left := by
  unfold left
  split
  · exact free.cost_pos
  · split
    · omega
    · split <;> omega
    · split <;> omega
    · split
      · omega
      · split <;> omega
    · split <;> omega
    · split <;> omega
    · split <;> omega
    · omega

namespace Machine

variable {σ : Type} {host : Host σ}

/-- The dispatches to come of all frames. -/
def left (frames : List Frame) : Nat := (frames.map Frame.left).sum

theorem left_cons (f : Frame) (frames : List Frame) : left (f :: frames) = f.left + left frames :=
  rfl

/-- No frame evaluates an expression with a call in it. -/
def CallFree (frames : List Frame) : Prop := ∀ f ∈ frames, f.expr.CallFree

theorem left_pos {frames : List Frame} (free : CallFree frames) (busy : 0 < frames.length) :
    0 < left frames := by
  cases frames with
  | nil => exact absurd busy (Nat.lt_irrefl 0)
  | cons f frames =>
    have := Frame.left_pos (free f (by simp))
    rw [left_cons]
    omega

/-- What a dispatch leads to has one dispatch less to come, and no calls. -/
def Spends (f : Frame) (frames : List Frame) : Next σ → Prop
  | .ok m => left m.frames + 1 = left (f :: frames) ∧ CallFree m.frames
  | .error _ => True

section Kinds

variable {heap : Heap} {world : σ} {values : Array Ref} {f : Frame} {frames : List Frame}
  (free : CallFree (f :: frames))

include free

theorem Spends.pop (last : f.left = 1) :
    Spends f frames (.ok (counted heap world values f frames).pop) := by
  constructor
  · rw [left_cons, last, Nat.add_comm]
    rfl
  · intro g member
    exact free g (List.mem_cons_of_mem _ member)

/-- The frame does something itself. -/
theorem Spends.stay (one : ({ f with step := f.step + 1 } : Frame).left + 1 = f.left) :
    Spends f frames (.ok (counted heap world values f frames)) := by
  constructor
  · simp only [left_cons]
    omega
  · intro g member
    rcases List.mem_cons.mp member with rfl | member
    · exact free f (List.mem_cons_self ..)
    · exact free g (List.mem_cons_of_mem _ member)

/-- The frame pushes one for a part of its expression. -/
theorem Spends.part {target : Ref} {e : Expr} (part : e ∈ f.expr.parts)
    (one : e.cost + ({ f with step := f.step + 1 } : Frame).left + 1 = f.left) :
    Spends f frames (.ok ((counted heap world values f frames).push target e)) := by
  have new : ∀ floor, Frame.left ⟨target, e, 0, floor, none⟩ = e.cost := fun _ => rfl
  constructor
  · simp only [push, left_cons, new]
    omega
  · intro g member
    rcases List.mem_cons.mp member with rfl | member
    · exact (free f (List.mem_cons_self ..)).part part
    · rcases List.mem_cons.mp member with rfl | member
      · exact free f (List.mem_cons_self ..)
      · exact free g (List.mem_cons_of_mem _ member)

omit free in
theorem Spends.withValue {next : Ref → Machine σ → Next σ}
    (spends : ∀ v kept, Spends f frames (next v (counted heap world kept f frames))) :
    Spends f frames ((counted heap world values f frames).withValue next) := by
  unfold Machine.withValue
  split
  · trivial
  · exact spends _ _

theorem Spends.store {r v : Ref} {x : String}
    (one : ({ f with step := f.step + 1 } : Frame).left + 1 = f.left) :
    Spends f frames ((counted heap world values f frames).store r x v) := by
  unfold Machine.store
  split
  · trivial
  · exact .stay free one

theorem sequence_spends {es : List Expr} (kind : f.expr = .sequence es) :
    Spends f frames ((counted heap world values f frames).sequence f es) := by
  obtain ⟨target, _, step, floor, method⟩ := f
  cases kind
  cases es with
  | nil =>
    cases step with
    | zero => exact .stay free rfl
    | succ k => exact .pop free rfl
  | cons e es =>
    have whole : Frame.left ⟨target, .sequence (e :: es), step, floor, method⟩ =
        ((e :: es).drop step).length + 1 + Expr.costAll ((e :: es).drop step) := by
      cases step <;> rfl
    rw [Machine.sequence.eq_2 _ _ _ (by simp)]
    split
    · next part now =>
      obtain ⟨length, costs⟩ := Expr.costAll_drop now
      refine .part free (List.mem_of_getElem? now) ?_
      rw [whole, length, costs]
      simp only [Frame.left]
      omega
    · next gone =>
      have none : (e :: es).drop step = [] :=
        List.drop_eq_nil_of_le (List.getElem?_eq_none_iff.mp gone)
      exact .pop free (by rw [whole, none]; rfl)

theorem list_spends {items : List Expr} (kind : f.expr = .list items) :
    Spends f frames ((counted heap world values f frames).list f items) := by
  obtain ⟨target, _, step, floor, method⟩ := f
  cases kind
  have whole (k : Nat) (le : k ≤ items.length) :
      Frame.left ⟨target, .list items, k, floor, method⟩ =
        (items.drop k).length + 2 + Expr.costAll (items.drop k) := by
    cases k with
    | zero => rfl
    | succ k => exact if_pos le
  unfold Machine.list
  simp only
  split
  · next part now =>
    obtain ⟨inside, -⟩ := List.getElem?_eq_some_iff.mp now
    obtain ⟨length, costs⟩ := Expr.costAll_drop now
    refine .part free (List.mem_of_getElem? now) ?_
    rw [whole step (Nat.le_of_lt inside), whole (step + 1) inside, length, costs]
    omega
  · next gone =>
    have beyond := List.getElem?_eq_none_iff.mp gone
    split
    · next here =>
      -- All items are there, and the list is made of them.
      have last : Frame.left ⟨target, .list items, step + 1, floor, method⟩ = 1 :=
        if_neg (by omega)
      refine .stay free ?_
      rw [last, whole step (Nat.le_of_eq here), List.drop_eq_nil_of_le beyond]
      rfl
    · next behind =>
      obtain ⟨k, rfl⟩ : ∃ k, step = k + 1 := ⟨step - 1, by omega⟩
      exact .pop free (if_neg (by omega))

theorem name_spends {x : String} (kind : f.expr = .name x) :
    Spends f frames ((counted heap world values f frames).name f x) := by
  obtain ⟨target, _, step, floor, method⟩ := f
  cases kind
  unfold Machine.name
  cases step with
  | zero =>
    simp only
    split
    · exact .stay free rfl
    · trivial
  | succ k => exact .pop free rfl

theorem member_spends {t : Expr} {x : String} (kind : f.expr = .member t x) :
    Spends f frames ((counted heap world values f frames).member f t x) := by
  obtain ⟨target, _, step, floor, method⟩ := f
  cases kind
  unfold Machine.member
  match step with
  | 0 =>
    apply Spends.part free (by simp [Expr.parts])
    change t.cost + 2 + 1 = 3 + t.cost
    omega
  | 1 =>
    simp only
    apply Spends.withValue
    intro v kept
    simp only
    split
    · exact .stay free rfl
    · trivial
  | k + 2 => exact .pop free rfl

theorem assign_spends {x : String} {value : Expr} (kind : f.expr = .assign x value) :
    Spends f frames ((counted heap world values f frames).assign f x value) := by
  obtain ⟨target, _, step, floor, method⟩ := f
  cases kind
  unfold Machine.assign
  match step with
  | 0 =>
    apply Spends.part free (by simp [Expr.parts])
    change value.cost + 2 + 1 = 3 + value.cost
    omega
  | 1 =>
    simp only
    apply Spends.withValue
    intro v kept
    exact .store free rfl
  | k + 2 => exact .pop free rfl

theorem assignMember_spends {t value : Expr} {x : String}
    (kind : f.expr = .assignMember t x value) :
    Spends f frames ((counted heap world values f frames).assignMember f t x value) := by
  obtain ⟨target, _, step, floor, method⟩ := f
  cases kind
  unfold Machine.assignMember
  match step with
  | 0 =>
    apply Spends.part free (by simp [Expr.parts])
    change t.cost + (3 + value.cost) + 1 = 4 + t.cost + value.cost
    omega
  | 1 =>
    apply Spends.part free (by simp [Expr.parts])
    change value.cost + 2 + 1 = 3 + value.cost
    omega
  | 2 =>
    simp only
    apply Spends.withValue
    intro v kept
    apply Spends.withValue
    intro r kept
    exact .store free rfl
  | k + 3 => exact .pop free rfl

theorem box_spends {body : Option Expr} (kind : f.expr = .box body) :
    Spends f frames ((counted heap world values f frames).box f body) := by
  obtain ⟨target, _, step, floor, method⟩ := f
  cases kind
  match step with
  | 0 =>
    cases body with
    | none => exact .stay free rfl
    | some e =>
      apply Spends.part free (by simp [Expr.parts])
      change e.cost + 2 + 1 = 3 + e.cost
      omega
  | 1 => exact .stay free rfl
  | k + 2 => exact .pop free rfl

theorem method_spends {params : List String} {body : Option Expr}
    (kind : f.expr = .method params body) :
    Spends f frames ((counted heap world values f frames).method f params body) := by
  obtain ⟨target, _, step, floor, method⟩ := f
  cases kind
  match step with
  | 0 => exact .stay free rfl
  | 1 => exact .stay free rfl
  | k + 2 => exact .pop free rfl

/-- Literals and boxes that are there. -/
theorem leaf_spends (value : Heap → Heap × Ref) (first : f.step = 0 → f.left = 2)
    (later : ∀ k, ({ f with step := k + 1 } : Frame).left = 1) :
    Spends f frames ((counted heap world values f frames).leaf f value) := by
  obtain ⟨target, e, step, floor, method⟩ := f
  cases step with
  | zero =>
    refine .stay free ?_
    rw [first rfl, later 0]
  | succ k => exact .pop free (later k)

theorem native_spends {x : String} {routine : Option Routine} (kind : f.expr = .native x routine) :
    Spends f frames (native host (counted heap world values f frames) f x routine) := by
  obtain ⟨target, _, step, floor, method⟩ := f
  cases kind
  unfold Machine.native
  cases step with
  | zero =>
    simp only
    split
    · trivial
    · split
      · trivial
      · exact .stay free rfl
  | succ k => exact .pop free rfl

/-- A dispatch of the newest frame, one kind of expression after the other. -/
theorem dispatch_spends :
    Spends f frames (dispatch host (counted heap world values f frames) f) := by
  unfold Machine.dispatch
  cases kind : f.expr with
  | sequence es => exact sequence_spends free kind
  | name x => exact name_spends free kind
  | member t x => exact member_spends free kind
  | assign x value => exact assign_spends free kind
  | assignMember t x value => exact assignMember_spends free kind
  | call t argument =>
    have none := free f (List.mem_cons_self ..)
    rw [kind] at none
    exact absurd none Expr.CallFree.not_call
  | box body => exact box_spends free kind
  | method params body => exact method_spends free kind
  | text bytes =>
    exact leaf_spends free _ (fun now => by simp [Frame.left, kind, now, Expr.cost])
      (fun k => by simp [Frame.left, kind])
  | integer n =>
    exact leaf_spends free _ (fun now => by simp [Frame.left, kind, now, Expr.cost])
      (fun k => by simp [Frame.left, kind])
  | real x =>
    exact leaf_spends free _ (fun now => by simp [Frame.left, kind, now, Expr.cost])
      (fun k => by simp [Frame.left, kind])
  | list items => exact list_spends free kind
  | native x routine => exact native_spends free kind
  | held r =>
    exact leaf_spends free _ (fun now => by simp [Frame.left, kind, now, Expr.cost])
      (fun k => by simp [Frame.left, kind])
  | foreign kind shown => trivial
  | hole => trivial

end Kinds

/-! ## Chains and runs -/

/-- Every dispatch lowers what is to come by exactly one. -/
theorem step_spends {m next : Machine σ} (free : CallFree m.frames) (busy : 0 < m.frames.length)
    (one : step host m = .ok next) : left next.frames + 1 = left m.frames ∧ CallFree next.frames := by
  obtain ⟨heap, world, values, frames⟩ := m
  cases frames with
  | nil => exact absurd busy (Nat.lt_irrefl 0)
  | cons f frames =>
    have spends : Spends f frames (dispatch host (counted heap world values f frames) f) :=
      dispatch_spends free
    rw [step] at one
    split at one
    · next dispatched =>
      cases one
      rwa [dispatched] at spends
    · cases one

theorem Steps.spend {n : Nat} {m last : Machine σ} (steps : Steps host 0 n m last)
    (free : CallFree m.frames) : left last.frames + n = left m.frames ∧ CallFree last.frames := by
  induction steps with
  | stay => exact ⟨rfl, free⟩
  | dispatch deep one _ ih =>
    obtain ⟨now, free⟩ := step_spends free deep one
    obtain ⟨later, free⟩ := ih free
    exact ⟨by omega, free⟩

section Runs

variable (patient : ∀ w, host.done w = false) (h : Heap) (world : σ) (target : Ref) {e : Expr}
  (free : e.CallFree)

include patient free

/-- A run from one frame takes what is to come of it if it comes to a value, and
no more if it fails. -/
theorem run_takes_cost :
    ∃ n r, Takes (fun fuel => run host fuel (start h world target e)) n r ∧
      ((∃ v, r.outcome = .value v) ∧ n = e.cost ∨
        (∃ halted place, r = stopped halted place) ∧ n ≤ e.cost) := by
  let empty : Machine σ := ⟨h, world, #[Canon.nullValue], []⟩
  have unasked : ∀ k, Unasked host (start h world target e) k :=
    fun _ _ _ between _ => patient between.world
  have alone : CallFree (start h world target e).frames := by
    intro f member
    rw [List.mem_singleton.mp member]
    exact free
  have whole : left (start h world target e).frames = e.cost := Nat.add_zero _
  rcases @run_cases σ host e.cost (start h world target e) with
    ⟨n, last, steps, none, -⟩ | ⟨halted, place, ⟨n, last, steps, deep, failing⟩, -⟩ |
    ⟨_, last, -, asked, -⟩ | ⟨last, steps, busy, -⟩
  · obtain ⟨spent, -⟩ := steps.spend alone
    obtain ⟨v, s, -, same⟩ := value_of_steps (m := empty) (.inl rfl) steps (by simp [none])
    have newest : last.answer = .value v := by simp [same, answer]
    rw [none, whole] at spent
    have all : n = e.cost := (Nat.zero_add n).symm.trans spent
    exact ⟨n, _, takes_of_chain steps (unasked n) fun fuel => run_done fuel last none,
      .inl ⟨⟨v, newest⟩, all⟩⟩
  · obtain ⟨spent, rest⟩ := steps.spend alone
    have := left_pos rest deep
    exact ⟨n + 1, _, takes_of_failing steps (unasked (n + 1)) deep failing,
      .inr ⟨⟨halted, place, rfl⟩, by omega⟩⟩
  · rw [patient] at asked
    cases asked
  · -- After as many dispatches as the cost no frame can be left.
    obtain ⟨spent, rest⟩ := steps.spend alone
    have := left_pos rest busy
    omega

end Runs

end Machine

/-- Only calls can loop. An expression without calls is evaluated to its end on
every heap and against every target. It takes exactly the dispatches of its cost
if it comes to a value, and no more than these if it fails. -/
theorem evaluate_takes_cost {σ : Type} (host : Host σ) (h : Heap) (world : σ)
    (target : Option Ref) {e : Expr} (free : e.CallFree) :
    ∃ n r, Takes (fun fuel => evaluate host.patient fuel h world target (some e)) n r ∧
      ((∃ v, r.outcome = .value v) ∧ n = e.cost ∨
        ((∃ error, r.outcome = .failed error) ∨ r.outcome = .fatal) ∧ n ≤ e.cost) := by
  have patient : ∀ w, host.patient.done w = false := fun _ => rfl
  obtain ⟨n, r, takes, ends⟩ :=
    Machine.run_takes_cost patient (h.target target).1 world (h.target target).2 free
  refine ⟨n, r.reported e, takes.reported e, ?_⟩
  rcases ends with ⟨⟨v, value⟩, all⟩ | ⟨⟨halted, place, rfl⟩, most⟩
  · left
    rw [Result.reported_of_not_failed (by simp [value])]
    exact ⟨⟨v, value⟩, all⟩
  · right
    exact ⟨Result.reported_fails (Machine.stopped_outcome halted place) e, most⟩

/-- The box `{x=(1,true)}`. -/
def Expr.boxed : Expr := .box (some (.assign "x" (.list [.integer 1, .name "true"])))

theorem Expr.callFree_boxed : boxed.CallFree := by
  have one : (Expr.integer 1).CallFree := .of_parts (by simp) (by simp [parts])
  have two : (Expr.name "true").CallFree := .of_parts (by simp) (by simp [parts])
  have items : (Expr.list [.integer 1, .name "true"]).CallFree :=
    .of_parts (by simp) (by simpa [parts] using ⟨one, two⟩)
  have body : (Expr.assign "x" (.list [.integer 1, .name "true"])).CallFree :=
    .of_parts (by simp) (by simpa [parts] using items)
  exact .of_parts (by simp [boxed]) (by simpa [boxed, parts] using body)

/-- It takes fourteen dispatches. -/
theorem evaluate_takes_cost_boxed :
    Expr.boxed.cost = 14 ∧
      ∃ r, Takes (fun fuel => evaluate Host.plain.patient fuel Heap.initial () none
        (some .boxed)) 14 r ∧ ∃ v, r.outcome = .value v := by
  have cost : Expr.boxed.cost = 14 := by decide +kernel
  have value : (evaluate Host.plain.patient 100 Heap.initial () none
      (some .boxed)).outcome.isValue = true := by decide +kernel
  obtain ⟨n, r, takes, ends⟩ := evaluate_takes_cost Host.plain Heap.initial () none
    Expr.callFree_boxed
  rcases ends with ⟨isValue, all⟩ | ⟨fails, most⟩
  · rw [all, cost] at takes
    exact ⟨cost, r, takes, isValue⟩
  · -- It does not fail, since it comes to a value when it has dispatches enough.
    rw [takes.enough 100 (by omega)] at value
    rcases fails with ⟨error, failed⟩ | fatal
    · rw [failed] at value
      cases value
    · rw [fatal] at value
      cases value

end BoxScript
