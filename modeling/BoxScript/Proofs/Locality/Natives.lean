import BoxScript.Proofs.Locality.Heap
import BoxScript.Proofs.Machine.Effects
import BoxScript.Proofs.Safety.Natives

/-!
# Native routines on heaps that are alike

A routine of the language that is given boxes of the set reads these, what they
hold, and the list or dictionary that it is the getter of. So it answers the
same on both heaps, failures and their messages included, and a box that it
answers with is in the set.
-/

set_option autoImplicit false

namespace BoxScript

namespace Native

variable {α β : Type}

/-- Two computations that come to the same, and to a result as `Q` says if they
come to one. -/
def Same (Q : α → Prop) (x x' : Except Failure α) : Prop := x' = x ∧ ∀ a, x = .ok a → Q a

namespace Same

theorem refl {Q : α → Prop} {x : Except Failure α} (holds : ∀ a, x = .ok a → Q a) : Same Q x x :=
  ⟨rfl, holds⟩

theorem ok {Q : α → Prop} {a : α} (holds : Q a) : Same Q (.ok a) (.ok a) := by
  refine refl fun b same => ?_
  cases same
  exact holds

theorem error {Q : α → Prop} (failure : Failure) : Same Q (.error failure) (.error failure) :=
  refl nofun

theorem bind {Q : α → Prop} {R : β → Prop} {x x' : Except Failure α}
    {f f' : α → Except Failure β} (first : Same Q x x')
    (second : ∀ a, Q a → Same R (f a) (f' a)) : Same R (x >>= f) (x' >>= f') := by
  obtain ⟨rfl, holds⟩ := first
  cases x' with
  | error failure => exact error failure
  | ok a => exact second a (holds a rfl)

end Same

/-- An argument that is missing or in the set. -/
def Within (P : Ref → Prop) (x : Option Ref) : Prop := ∀ v ∈ x, P v

/-- An answer names no box outside the set. -/
def Answer.Local (P : Ref → Prop) : Answer → Prop
  | .box r => P r
  | _ => True

variable {P : Ref → Prop} {h h' : Heap} {args : List (Option Ref)} {routine : String}

theorem Answer.local_passed {x : Option Ref} (within : Within P x) : (Answer.passed x).Local P := by
  cases x with
  | none => exact trivial
  | some v => exact within v rfl

/-! ## Arguments -/

section Arguments

variable (all : ∀ x ∈ args, Within P x)

include all

theorem same_one : Same (Within P) (one routine args) (one routine args) := by
  match args with
  | [x] => exact .ok (all x (by simp))
  | [] | _ :: _ :: _ => exact .error _

theorem same_two :
    Same (fun p => Within P p.1 ∧ Within P p.2) (two routine args) (two routine args) := by
  match args with
  | [x, y] => exact .ok ⟨all x (by simp), all y (by simp)⟩
  | [] | [_] | _ :: _ :: _ :: _ => exact .error _

theorem same_three :
    Same (fun p => Within P p.1 ∧ Within P p.2.1 ∧ Within P p.2.2) (three routine args)
      (three routine args) := by
  match args with
  | [x, y, z] => exact .ok ⟨all x (by simp), all y (by simp), all z (by simp)⟩
  | [] | [_] | [_, _] | _ :: _ :: _ :: _ :: _ => exact .error _

end Arguments

section Heaps

variable (alike : Heap.Alike P h h')

include alike

theorem Answer.local_bool (b : Bool) : (Answer.bool b).Local P := by
  cases b
  · exact alike.canon
  · exact alike.canon

/-! ## Payloads -/

section Payloads

variable {x : Option Ref} (within : Within P x) (position : Nat)

include within

theorem same_payload :
    Same (fun p => ∀ items, p = .list items → ∀ x ∈ items, Within P x) (payload h x)
      (payload h' x) := by
  cases x with
  | none => exact .error _
  | some r =>
    have inside := within r rfl
    rw [payload, payload, alike.payload inside]
    refine .ok fun items isList x member v isSome => ?_
    cases isSome
    exact (alike.closed r inside).items items isList v member

theorem same_integerAt :
    Same (fun _ => True) (integerAt h routine position x) (integerAt h' routine position x) := by
  refine (same_payload alike within).bind fun p _ => ?_
  cases p with
  | integer => exact .ok trivial
  | _ => exact .error _

theorem same_textAt :
    Same (fun _ => True) (textAt h routine position x) (textAt h' routine position x) := by
  refine (same_payload alike within).bind fun p _ => ?_
  cases p with
  | text => exact .ok trivial
  | _ => exact .error _

theorem same_numberAt :
    Same (fun _ => True) (numberAt h routine position x) (numberAt h' routine position x) := by
  refine (same_payload alike within).bind fun p _ => ?_
  cases p with
  | integer | real => exact .ok trivial
  | _ => exact .error _

theorem same_listAt :
    Same (fun items => ∀ x ∈ items, Within P x) (listAt h routine position x)
      (listAt h' routine position x) := by
  refine (same_payload alike within).bind fun p all => ?_
  cases p with
  | list items => exact .ok (all items rfl)
  | _ => exact .error _

end Payloads

section Answers

variable (all : ∀ x ∈ args, Within P x)

include all

theorem same_textsFrom (position : Nat) :
    Same (fun _ => True) (textsFrom h routine position args) (textsFrom h' routine position args) := by
  induction args generalizing position with
  | nil => exact .ok trivial
  | cons x rest ih =>
    have text : Same (fun _ => True) (textAt h routine position x) (textAt h' routine position x) :=
      same_textAt alike (all x (by simp)) position
    obtain ⟨others, -⟩ := ih (fun x member => all x (by simp [member])) (position + 1)
    rw [textsFrom, textsFrom, text.1, others]
    exact .refl fun _ _ => trivial

/-! ## The answers of the routines -/

theorem same_operands :
    Same (fun _ => True) (operands h routine args) (operands h' routine args) := by
  refine (same_two all).bind ?_
  rintro ⟨x, y⟩ ⟨withinX, withinY⟩
  refine (same_numberAt alike withinX 0).bind fun _ _ => ?_
  exact (same_numberAt alike withinY 1).bind fun _ _ => .ok trivial

theorem same_arithmetic (onIntegers : Int64 → Int64 → Except Failure Int64)
    (onReals : Float → Float → Float) :
    Same (Answer.Local P) (arithmetic routine onIntegers onReals h args)
      (arithmetic routine onIntegers onReals h' args) := by
  refine (same_operands alike all).bind ?_
  rintro (⟨x, y⟩ | ⟨x, y⟩) -
  · exact (Same.refl fun _ _ => trivial : Same (fun _ => True) (onIntegers x y) _).bind
      fun _ _ => .ok trivial
  · exact .ok trivial

theorem same_less : Same (Answer.Local P) (less h args) (less h' args) := by
  refine (same_operands alike all).bind ?_
  rintro (⟨x, y⟩ | ⟨x, y⟩) -
  · exact .ok (Answer.local_bool alike _)
  · exact .ok (Answer.local_bool alike _)

omit all in
theorem same_areEqual {x y : Option Ref} (withinX : Within P x) (withinY : Within P y) :
    Same (fun _ => True) (areEqual h x y) (areEqual h' x y) := by
  match x, y with
  | some x, some y =>
    rw [areEqual, areEqual, alike.equal (withinX x rfl) (withinY y rfl)]
    exact .ok trivial
  | none, none => exact .ok trivial
  | none, some _ => exact .error _
  | some x, none =>
    rw [areEqual, areEqual, alike.payload (withinX x rfl)]
    exact .refl fun _ _ => trivial

theorem same_equal : Same (Answer.Local P) (equal h args) (equal h' args) := by
  refine (same_two all).bind ?_
  rintro ⟨x, y⟩ ⟨withinX, withinY⟩
  exact (same_areEqual alike withinX withinY).bind fun b _ => .ok (Answer.local_bool alike b)

theorem same_select : Same (Answer.Local P) (select h args) (select h' args) := by
  refine (same_three all).bind ?_
  rintro ⟨condition, yes, no⟩ ⟨within, withinYes, withinNo⟩
  cases condition with
  | none => exact .error _
  | some v =>
    simp only [alike.isTruthy (within v rfl)]
    split
    · exact .ok (Answer.local_passed withinYes)
    · exact .ok (Answer.local_passed withinNo)

theorem same_concat : Same (Answer.Local P) (concat h args) (concat h' args) :=
  (same_textsFrom alike all 0).bind fun _ _ => .ok trivial

theorem same_length : Same (Answer.Local P) (length h args) (length h' args) := by
  refine (same_one all).bind fun x within => ?_
  refine (same_payload alike within).bind fun p _ => ?_
  cases p with
  | text | list => exact .ok trivial
  | _ => exact .error _

theorem same_join : Same (Answer.Local P) (join h args) (join h' args) := by
  refine (same_two all).bind ?_
  rintro ⟨list, separator⟩ ⟨withinList, withinSeparator⟩
  refine (same_listAt alike withinList 0).bind fun items within => ?_
  refine (same_textAt alike withinSeparator 1).bind fun _ _ => ?_
  exact (same_textsFrom alike within 0).bind fun _ _ => .ok trivial

theorem same_upper : Same (Answer.Local P) (upper h args) (upper h' args) := by
  refine (same_one all).bind fun x within => ?_
  exact (same_textAt alike within 0).bind fun _ _ => .ok trivial

theorem same_lower : Same (Answer.Local P) (lower h args) (lower h' args) := by
  refine (same_one all).bind fun x within => ?_
  exact (same_textAt alike within 0).bind fun _ _ => .ok trivial

theorem same_item {list : Ref} (inside : P list) :
    Same (Answer.Local P) (item h list args) (item h' list args) := by
  refine (same_one all).bind fun x within => ?_
  refine (same_integerAt alike within 0).bind fun k _ => ?_
  simp only [alike.payload inside]
  cases isList : (h.box list).payload with
  | list items =>
    simp only
    split
    · next x found =>
      split at found
      · refine .ok (Answer.local_passed fun v isSome => ?_)
        cases isSome
        exact (alike.closed list inside).items items isList v (List.mem_of_getElem? found)
      · cases found
    · exact .error _
  | _ => exact .error _

omit all in
theorem find?_alike {entries : List (Ref × Option Ref)} (keys : ∀ p ∈ entries, P p.1) {key : Ref}
    (inside : P key) : find? h' entries key = find? h entries key := by
  have same : entries.find? (fun p => h'.equal p.1 key) =
      entries.find? fun p => h.equal p.1 key := by
    induction entries with
    | nil => rfl
    | cons p entries ih =>
      rw [List.find?_cons, List.find?_cons, alike.equal (keys p (by simp)) inside,
        ih fun p member => keys p (by simp [member])]
  rw [find?, find?, same]

theorem same_entry {dictionary : Ref} (inside : P dictionary) :
    Same (Answer.Local P) (entry h dictionary args) (entry h' dictionary args) := by
  refine (same_one all).bind fun x within => ?_
  simp only [alike.payload inside]
  cases isDictionary : (h.box dictionary).payload with
  | dictionary entries =>
    have keys : ∀ p ∈ entries, P p.1 := fun p member =>
      ((alike.closed dictionary inside).entries entries isDictionary p member).1
    cases x with
    | some key =>
      simp only [find?_alike alike keys (within key rfl), alike.display (within key rfl)]
      split
      · next value found =>
        obtain ⟨key', member, -⟩ := mem_of_find? found
        exact .ok (Answer.local_passed
          ((alike.closed dictionary inside).entries entries isDictionary _ member).2)
      · exact .error _
    | none =>
      have primitive : entries.any (fun p => (h'.box p.1).payload.isPrimitive) =
          entries.any fun p => (h.box p.1).payload.isPrimitive := by
        rw [Bool.eq_iff_iff]
        simp only [List.any_eq_true]
        refine exists_congr fun p => and_congr_right fun member => ?_
        rw [alike.payload (keys p member)]
      simp only [primitive, alike.showTo (x := none) Heap.shownLevels nofun]
      split
      · exact .error _
      · exact .error _
  | _ => exact .error _

end Answers

end Heaps

end Native

/-! ## Running a routine -/

namespace Routine

variable {P : Ref → Prop} {routine : Routine} {h h' : Heap}

theorem local_shipped {x : String} (found : shippedRoutines.lookup x = some routine) :
    routine.Local P := by
  have all : ∀ p ∈ shippedRoutines, p.2.Local P := by
    simp [shippedRoutines, Local]
  obtain ⟨front, back, whole, -⟩ := List.lookup_eq_some_iff.mp found
  exact all (x, routine) (by rw [whole]; simp)

/-- What a native call finds, if its own routine is of the language. -/
theorem local_found {σ : Type} {host : Host σ} (shipped : host.natives = shippedRoutines)
    {own : Option Routine} (local_ : ∀ r ∈ own, r.Local P) {x : String}
    (found : own.or (host.natives.lookup x) = some routine) : routine.Local P := by
  rcases Option.or_eq_some_iff.mp found with given | ⟨-, named⟩
  · exact local_ routine given
  · rw [shipped] at named
    exact local_shipped named

section Answers

variable (alike : Heap.Alike P h h') {args : List (Option Ref)}

include alike

theorem same_answer (local_ : routine.Local P) (all : ∀ x ∈ args, Native.Within P x) :
    Native.Same (Native.Answer.Local P) (routine.answer h args) (routine.answer h' args) := by
  cases routine with
  | add => exact Native.same_arithmetic alike all _ _
  | sub => exact Native.same_arithmetic alike all _ _
  | mul => exact Native.same_arithmetic alike all _ _
  | div => exact Native.same_arithmetic alike all _ _
  | less => exact Native.same_less alike all
  | equal => exact Native.same_equal alike all
  | select => exact Native.same_select alike all
  | concat => exact Native.same_concat alike all
  | length => exact Native.same_length alike all
  | upper => exact Native.same_upper alike all
  | lower => exact Native.same_lower alike all
  | join => exact Native.same_join alike all
  | item list => exact Native.same_item alike all local_
  | entry dictionary => exact Native.same_entry alike all local_
  | host key => exact local_.elim

theorem alike_realize {answer : Native.Answer} (local_ : answer.Local P) :
    Heap.Alike P (answer.realize h).1 (answer.realize h').1 ∧
      (answer.realize h').2 = (answer.realize h).2 ∧ Native.Within P (answer.realize h).2 := by
  have made : ∀ {new new' : Heap × Ref}, Heap.AlikeMade P new new' →
      Heap.Alike P new.1 new'.1 ∧ some new'.2 = some new.2 ∧ Native.Within P (some new.2) := by
    intro new new' made
    refine ⟨made.heap, by rw [made.same], ?_⟩
    rintro v ⟨⟩
    exact made.inside
  cases answer with
  | box r =>
    refine ⟨alike, rfl, ?_⟩
    rintro v ⟨⟩
    exact local_
  | nothing => exact ⟨alike, rfl, nofun⟩
  | integer n => exact made (alike.newInteger n)
  | real x => exact made (alike.newReal x)
  | text bytes => exact made (alike.newText bytes)

/-- A routine fails in the same way on both heaps and leaves them alone, or
answers with the same box of the set and leaves them alike. -/
theorem run_alike {σ : Type} (host : Host σ) (local_ : routine.Local P)
    (all : ∀ x ∈ args, Native.Within P x) (world : σ) :
    (∃ failure, routine.run host args h world = ⟨.error failure, h, world⟩ ∧
      routine.run host args h' world = ⟨.error failure, h', world⟩) ∨
    ∃ g g' r, routine.run host args h world = ⟨.ok r, g, world⟩ ∧
      routine.run host args h' world = ⟨.ok r, g', world⟩ ∧ Heap.Alike P g g' ∧
      Native.Within P r := by
  have shipped : ∀ key, routine ≠ .host key := by
    rintro key rfl
    exact local_
  obtain ⟨same, holds⟩ := same_answer alike local_ all
  rw [Machine.run_routine shipped, Machine.run_routine shipped, same]
  cases reply : routine.answer h args with
  | error failure => exact .inl ⟨failure, rfl, rfl⟩
  | ok answer =>
    obtain ⟨heap, sameRef, within⟩ := alike_realize alike (holds answer reply)
    exact .inr ⟨_, _, _, rfl, by simp only [sameRef], heap, within⟩

end Answers

end Routine

end BoxScript
