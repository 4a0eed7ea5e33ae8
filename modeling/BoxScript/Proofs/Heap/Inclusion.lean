import Mathlib.Logic.Relation
import Mathlib.Data.List.Perm.Basic
import BoxScript.Proofs.Safety.Heap

/-!
# Inclusion is reachability

A box includes what can be reached from it by going to components again and
again. The search keeps every box that it has met, meets a box once, and has
been given one turn more than there are boxes, so it looks at all that can be
reached before it gives up. `Searches` is the same search with nothing to stop
it early; it ends as well, and with the same answer.
-/

set_option autoImplicit false

namespace BoxScript.Heap

open Relation (ReflTransGen TransGen)

/-- A box is listed among the components of another. -/
def Component (h : Heap) (r p : Ref) : Prop := p < h.size ∧ some p ∈ (h.components? r).getD []

variable {h : Heap} {goal : Ref}

theorem mem_unmet {met : List Ref} {r p : Ref} :
    p ∈ h.unmet met r ↔ h.Component r p ∧ p ∉ met := by
  simp only [unmet, Component, List.mem_eraseDups, List.mem_filter, List.mem_filterMap, id_eq,
    exists_eq_right, Bool.and_eq_true, decide_eq_true_eq, Bool.not_eq_true', List.contains_eq_mem,
    decide_eq_false_iff_not]
  tauto

theorem nodup_eraseDups (l : List Ref) : l.eraseDups.Nodup := by
  cases l with
  | nil => simp
  | cons a l =>
    rw [List.eraseDups_cons, List.nodup_cons]
    refine ⟨?_, nodup_eraseDups _⟩
    simp [List.mem_eraseDups, List.mem_filter]
termination_by l.length
decreasing_by exact Nat.lt_succ_of_le (List.length_filter_le _ _)

/-- What is found can be reached from a box that waits. -/
theorem search_sound (n : Nat) (waiting met : List Ref) (found : h.search goal n waiting met = true) :
    ∃ r ∈ waiting, ReflTransGen h.Component r goal := by
  induction n generalizing waiting met with
  | zero => cases found
  | succ n ih =>
    cases waiting with
    | nil => cases found
    | cons r waiting =>
      rw [search] at found
      split at found
      · next same =>
        subst same
        exact ⟨r, by simp, .refl⟩
      · obtain ⟨q, member, reached⟩ := ih _ _ found
        rcases List.mem_append.mp member with member | fresh
        · exact ⟨q, by simp [member], reached⟩
        · exact ⟨r, by simp, reached.head (mem_unmet.mp fresh).1⟩

/-- The state of a search: what has been met is done or waits, and what is done
is not what is looked for and has had its components met. -/
structure Searching (h : Heap) (goal start : Ref) (done waiting met : List Ref) : Prop where
  split : met.Perm (done ++ waiting)
  once : met.Nodup
  inside : ∀ r ∈ met, r = start ∨ r < h.size
  closed : ∀ r ∈ done, r ≠ goal ∧ ∀ p, h.Component r p → p ∈ met

namespace Searching

theorem start (h : Heap) (goal r : Ref) : Searching h goal r [] [r] [r] where
  split := .refl _
  once := by simp
  inside _ member := .inl (List.mem_singleton.mp member)
  closed := nofun

variable {start : Ref} {done waiting met : List Ref}

/-- Nothing is met twice, so no more is met than there are boxes. -/
theorem length_le (state : Searching h goal start done waiting met) :
    done.length + waiting.length ≤ h.size + 1 := by
  have within : met ⊆ start :: List.range h.size := by
    intro r member
    rcases state.inside r member with rfl | inside
    · simp
    · simp [inside]
  have bound := (List.subperm_of_subset state.once within).length_le
  rw [state.split.length_eq, List.length_append] at bound
  simpa using bound

theorem next {r : Ref} (state : Searching h goal start done (r :: waiting) met) (other : r ≠ goal) :
    Searching h goal start (r :: done) (waiting ++ h.unmet met r) (h.unmet met r ++ met) where
  split := by
    have moved : (done ++ r :: waiting).Perm (r :: done ++ waiting) := List.perm_middle
    have fresh : (h.unmet met r ++ met).Perm (met ++ h.unmet met r) := List.perm_append_comm
    refine fresh.trans ?_
    rw [← List.append_assoc]
    exact (state.split.trans moved).append_right _
  once := by
    rw [List.nodup_append]
    refine ⟨nodup_eraseDups _, state.once, ?_⟩
    rintro p fresh q member rfl
    exact (mem_unmet.mp fresh).2 member
  inside p member := by
    rcases List.mem_append.mp member with fresh | member
    · exact .inr (mem_unmet.mp fresh).1.1
    · exact state.inside p member
  closed q member := by
    rcases List.mem_cons.mp member with rfl | member
    · refine ⟨other, fun p component => ?_⟩
      by_cases known : p ∈ met
      · exact List.mem_append_right _ known
      · exact List.mem_append_left _ (mem_unmet.mpr ⟨component, known⟩)
    · obtain ⟨different, all⟩ := state.closed q member
      exact ⟨different, fun p component => List.mem_append_right _ (all p component)⟩

/-- When nothing waits any more, what is looked for cannot be reached. -/
theorem unreachable (state : Searching h goal start done [] met) {r : Ref} (member : r ∈ met)
    (reached : ReflTransGen h.Component r goal) : False := by
  have all : ∀ r ∈ met, r ∈ done := by
    intro r member
    simpa using state.split.mem_iff.mp member
  induction reached using ReflTransGen.head_induction_on with
  | refl => exact (state.closed goal (all goal member)).1 rfl
  | head component _ ih => exact ih ((state.closed _ (all _ member)).2 _ component)

/-- A search that has a turn for each box that may still be met finds what can
be reached. -/
theorem complete (n : Nat) (state : Searching h goal start done waiting met)
    (enough : h.size + 1 ≤ n + done.length) {r : Ref} (member : r ∈ met)
    (reached : ReflTransGen h.Component r goal) : h.search goal n waiting met = true := by
  induction n generalizing done waiting met with
  | zero =>
    have none : waiting = [] := by
      have := state.length_le
      exact List.length_eq_zero_iff.mp (by omega)
    subst none
    exact (state.unreachable member reached).elim
  | succ n ih =>
    cases waiting with
    | nil => exact (state.unreachable member reached).elim
    | cons q waiting =>
      rw [search]
      split
      · rfl
      · next other =>
        refine ih (state.next other) ?_ (List.mem_append_right _ member)
        rw [List.length_cons]
        omega

end Searching

/-- A box includes what can be reached from it through components. -/
theorem includes_iff {r : Ref} :
    h.includes r goal = true ↔ ReflTransGen h.Component r goal := by
  constructor
  · intro found
    obtain ⟨q, member, reached⟩ := search_sound _ _ _ found
    rwa [List.mem_singleton.mp member] at reached
  · intro reached
    exact (Searching.start h goal r).complete (h.size + 1) (by simp) (by simp) reached

theorem isNull_iff {r : Ref} : h.isNull r = true ↔ ReflTransGen h.Component r Canon.null :=
  includes_iff

/-- A box is another one, or one of its components includes that one. -/
theorem includes_iff_component {r : Ref} :
    h.includes r goal = true ↔ r = goal ∨ ∃ p, h.Component r p ∧ h.includes p goal = true := by
  simp only [includes_iff]
  exact ReflTransGen.cases_head_iff

/-! ## The search as a loop -/

/-- The search with no bound on its turns, how many it takes, and its answer. It
ends at the turn of the box that is looked for, or when nothing waits. -/
inductive Searches (h : Heap) (goal : Ref) : Nat → (waiting met : List Ref) → Bool → Prop where
  | found {waiting met : List Ref} : Searches h goal 1 (goal :: waiting) met true
  | exhausted {met : List Ref} : Searches h goal 0 [] met false
  | turn {n : Nat} {r : Ref} {waiting met : List Ref} {answer : Bool} (other : r ≠ goal)
      (rest : Searches h goal n (waiting ++ h.unmet met r) (h.unmet met r ++ met) answer) :
      Searches h goal (n + 1) (r :: waiting) met answer

/-- A search that has a turn for each box that may still be met is never cut
short. -/
theorem Searching.searches {start : Ref} {done waiting met : List Ref} (n : Nat)
    (state : Searching h goal start done waiting met) (enough : h.size + 1 ≤ n + done.length) :
    ∃ turns ≤ n, h.Searches goal turns waiting met (h.search goal n waiting met) := by
  induction n generalizing done waiting met with
  | zero =>
    have none : waiting = [] := by
      have := state.length_le
      exact List.length_eq_zero_iff.mp (by omega)
    subst none
    exact ⟨0, Nat.le_refl 0, .exhausted⟩
  | succ n ih =>
    cases waiting with
    | nil => exact ⟨0, Nat.zero_le _, .exhausted⟩
    | cons r waiting =>
      rw [search]
      split
      · next same =>
        subst same
        exact ⟨1, Nat.succ_le_succ (Nat.zero_le n), .found⟩
      · next other =>
        obtain ⟨turns, le, rest⟩ := ih (state.next other) (by rw [List.length_cons]; omega)
        exact ⟨turns + 1, Nat.succ_le_succ le, .turn other rest⟩

/-- Inclusion decides reachability, on every heap and for any two of its boxes.
The search ends after at most one turn more than there are boxes, it says yes
exactly if the box is the other one or leads to it by one or more steps to
components, and so the null values are the boxes that lead to the null
prototype. -/
theorem includes_decides_reachability (h : Heap) (r goal : Ref) :
    (∃ turns ≤ h.size + 1, h.Searches goal turns [r] [r] (h.includes r goal)) ∧
    (h.includes r goal = true ↔ goal = r ∨ TransGen h.Component r goal) ∧
    (h.isNull r = true ↔ Canon.null = r ∨ TransGen h.Component r Canon.null) := by
  have reaches : ∀ goal, h.includes r goal = true ↔ goal = r ∨ TransGen h.Component r goal := by
    intro goal
    rw [includes_iff, Relation.reflTransGen_iff_eq_or_transGen]
  refine ⟨?_, reaches goal, reaches Canon.null⟩
  exact (Searching.start h goal r).searches (h.size + 1) (by simp)

/-! ## Heaps with the same components -/

/-- What is included depends on the components of the boxes that are included. -/
theorem includes_congr {h' : Heap} {P : Ref → Prop}
    (same : ∀ r p, P r → (h'.Component r p ↔ h.Component r p))
    (closed : ∀ r p, P r → h.Component r p → P p) {r : Ref} (start : P r) :
    h'.includes r goal = h.includes r goal := by
  rw [Bool.eq_iff_iff, includes_iff, includes_iff]
  constructor
  · intro reached
    induction reached using ReflTransGen.head_induction_on with
    | refl => exact .refl
    | head component _ ih =>
      have old := (same _ _ start).mp component
      exact .head old (ih (closed _ _ start old))
  · intro reached
    induction reached using ReflTransGen.head_induction_on with
    | refl => exact .refl
    | head component _ ih =>
      exact .head ((same _ _ start).mpr component) (ih (closed _ _ start component))

end BoxScript.Heap
