import BoxScript.Heap.Display
import BoxScript.Proofs.Heap.Inclusion

/-!
# Orders that do not show

The variables of a box and the entries of a dictionary are kept in some order,
which is no part of what they are. Two heaps are reorderings of each other if
they differ in these orders only, in as many boxes as one likes. Whatever is
asked about a box has then the same answer in both: what its variables hold,
what it includes, whether it is null, which method it has, which boxes it equals
and which text it has, where names and entries are sorted.
-/

set_option autoImplicit false

namespace BoxScript

/-- The same payload, with the entries of a dictionary in any order. -/
inductive Payload.Reordered : Payload → Payload → Prop where
  | same (p : Payload) : Reordered p p
  | dictionary {entries entries' : List (Ref × Option Ref)} (perm : entries.Perm entries') :
      Reordered (.dictionary entries) (.dictionary entries')

/-- The same box, with its variables in any order. -/
structure Box.Reordered (b b' : Box) : Prop where
  vars : b.vars.Perm b'.vars
  get? : ∀ x, b'.get? x = b.get? x
  method : b'.method = b.method
  payload : b.payload.Reordered b'.payload

theorem Box.Reordered.refl (b : Box) : b.Reordered b :=
  ⟨.refl _, fun _ => rfl, rfl, .same _⟩

structure Heap.Reordered (h h' : Heap) : Prop where
  size : h'.size = h.size
  box : ∀ r, (h.box r).Reordered (h'.box r)

/-- Sorting texts forgets the order that they were in. -/
theorem mergeSort_eq_of_perm {texts texts' : List String} (perm : texts.Perm texts') :
    (texts.mergeSort fun a b => a ≤ b) = texts'.mergeSort fun a b => a ≤ b := by
  have sorted : ∀ texts : List String,
      (texts.mergeSort fun a b => a ≤ b).Pairwise fun a b => decide (a ≤ b) = true := by
    intro texts
    refine List.pairwise_mergeSort (fun a b c first second => ?_) (fun a b => ?_) texts
    · rw [decide_eq_true_eq] at first second ⊢
      exact String.le_trans first second
    · rw [Bool.or_eq_true, decide_eq_true_eq, decide_eq_true_eq]
      exact String.le_total a b
  refine List.Perm.eq_of_pairwise (fun a b _ _ first second => ?_) (sorted texts) (sorted texts')
    ((List.mergeSort_perm texts _).trans (perm.trans (List.mergeSort_perm texts' _).symm))
  rw [decide_eq_true_eq] at first second
  exact String.le_antisymm first second

/-- Dictionaries have no value of their own that could be compared. -/
theorem Payload.Reordered.equalPayloads {p p' q q' : Payload} (first : p.Reordered p')
    (second : q.Reordered q') : Heap.equalPayloads p' q' = Heap.equalPayloads p q := by
  cases first with
  | dictionary => rfl
  | same =>
    cases second with
    | same => rfl
    | dictionary => cases p <;> rfl

theorem Box.Reordered.items? {b b' : Box} (reordered : b.Reordered b') : b'.items? = b.items? := by
  have payload := reordered.payload
  rw [Box.items?, Box.items?]
  generalize b.payload = p, b'.payload = p' at payload
  cases payload with
  | same => rfl
  | dictionary => rfl

theorem Heap.Reordered.refl (h : Heap) : h.Reordered h := ⟨rfl, fun r => .refl (h.box r)⟩

namespace Heap.Reordered

variable {h h' : Heap} (reordered : h.Reordered h')

include reordered

theorem get? (r : Ref) (x : String) : h'.get? r x = h.get? r x := (reordered.box r).get? x

theorem components? (r : Ref) : h'.components? r = h.components? r := by
  rw [Heap.components?, Heap.components?, reordered.get?]
  cases h.get? r componentsName with
  | none => rfl
  | some c => exact (reordered.box c).items?

theorem component (r p : Ref) : h'.Component r p ↔ h.Component r p := by
  rw [Component, Component, reordered.size, reordered.components?]

theorem includes (r goal : Ref) : h'.includes r goal = h.includes r goal :=
  includes_congr (P := fun _ => True) (fun r p _ => reordered.component r p)
    (fun _ _ _ _ => trivial) trivial

theorem isNull (r : Ref) : h'.isNull r = h.isNull r := reordered.includes r Canon.null

theorem methodFrom (n : Nat) (met : List Ref) (r : Ref) :
    h'.methodFrom n met r = h.methodFrom n met r := by
  induction n generalizing met r with
  | zero => rfl
  | succ n ih =>
    rw [Heap.methodFrom, Heap.methodFrom, reordered.get?, (reordered.box r).method]
    cases h.get? r callName with
    | none => rfl
    | some next => simp only [reordered.isNull, ih]

theorem method? (r : Ref) : h'.method? r = h.method? r := by
  rw [Heap.method?, Heap.method?, reordered.size, reordered.methodFrom]

theorem equal (x y : Ref) : h'.equal x y = h.equal x y := by
  rw [Heap.equal, Heap.equal,
    (reordered.box x).payload.equalPayloads (reordered.box y).payload]

theorem showPlain (r : Ref) : h'.showPlain r = h.showPlain r := by
  have names : (h'.box r).vars.sortedNames = (h.box r).vars.sortedNames :=
    mergeSort_eq_of_perm ((reordered.box r).vars.map Prod.fst).symm
  rw [Heap.showPlain, Heap.showPlain, reordered.method?, names]

/-- The text of a box, by the levels that may still be shown. -/
theorem showTo (n : Nat) (x : Option Ref) : h'.showTo n x = h.showTo n x := by
  induction n generalizing x with
  | zero =>
    cases x with
    | none => rfl
    | some r => rw [Heap.showTo, Heap.showTo, reordered.isNull]
  | succ n ih =>
    cases x with
    | none => rfl
    | some r =>
      have payload := (reordered.box r).payload
      rw [Heap.showTo, Heap.showTo, reordered.isNull, reordered.showPlain]
      generalize (h.box r).payload = p, (h'.box r).payload = p' at payload
      split
      · rfl
      · cases payload with
        | same => simp only [ih]
        | dictionary perm =>
          simp only [ih]
          rw [mergeSort_eq_of_perm (perm.symm.map _)]

theorem display (r : Ref) : h'.display r = h.display r := reordered.showTo shownLevels (some r)

end Heap.Reordered

end BoxScript
