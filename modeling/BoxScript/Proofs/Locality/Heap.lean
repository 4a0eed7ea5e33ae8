import BoxScript.Proofs.Heap.Inclusion
import BoxScript.Proofs.Heap.Made

/-!
# Heaps that are alike on a set of boxes

Fix a set of boxes that contains those every heap starts with and all that are
still to be made. Two heaps of one size are alike on it if they have the same
boxes in it, and these refer to boxes in it only. The boxes outside may be
anything.

Whatever evaluation reads of a box in the set is then the same in both heaps:
its variables, its components and whether it is null, its method and its text.
What evaluation makes, or binds on a box in the set, leaves the heaps alike.
-/

set_option autoImplicit false

namespace BoxScript

/-- The boxes that every evaluation can get hold of: the prototypes, the
components of lists, the singletons and the globals. -/
def Canon.shared : List Ref :=
  [null, boolean, integer, real, text, list, dictionary, listTag, nullValue, trueValue, falseValue,
    globals]

/-! ## What refers to boxes of a set only -/

/-- A routine of the language that reads a box of the set, or none of its own. -/
def Routine.Local (P : Ref → Prop) : Routine → Prop
  | .item list => P list
  | .entry dictionary => P dictionary
  | .host _ => False
  | _ => True

/-- An expression in which no function of the embedding program stands, and no
box outside the set. -/
inductive Expr.Local (P : Ref → Prop) : Expr → Prop where
  | sequence {es : List Expr} (all : ∀ e ∈ es, Local P e) : Local P (.sequence es)
  | name {x : String} : Local P (.name x)
  | member {t : Expr} {x : String} (target : Local P t) : Local P (.member t x)
  | assign {x : String} {v : Expr} (value : Local P v) : Local P (.assign x v)
  | assignMember {t v : Expr} {x : String} (target : Local P t) (value : Local P v) :
      Local P (.assignMember t x v)
  | call {t a : Expr} (target : Local P t) (argument : Local P a) : Local P (.call t a)
  | box {body : Option Expr} (inner : ∀ e ∈ body, Local P e) : Local P (.box body)
  | method {params : List String} {body : Option Expr} (inner : ∀ e ∈ body, Local P e) :
      Local P (.method params body)
  | text {bytes : Bytes} : Local P (.text bytes)
  | integer {n : Int64} : Local P (.integer n)
  | real {x : Float} : Local P (.real x)
  | list {es : List Expr} (all : ∀ e ∈ es, Local P e) : Local P (.list es)
  | native {x : String} {routine : Option Routine} (own : ∀ r ∈ routine, r.Local P) :
      Local P (.native x routine)
  | held {r : Ref} (inside : P r) : Local P (.held r)
  | foreign {kind shown : String} : Local P (.foreign kind shown)
  | hole : Local P .hole

def Method.Local (P : Ref → Prop) (m : Method) : Prop := ∀ e ∈ m.body, e.Local P

structure Box.Local (P : Ref → Prop) (b : Box) : Prop where
  vars : ∀ p ∈ b.vars, P p.2
  items : ∀ items, b.payload = .list items → ∀ v, some v ∈ items → P v
  entries : ∀ entries, b.payload = .dictionary entries →
    ∀ p ∈ entries, P p.1 ∧ ∀ v ∈ p.2, P v
  method : ∀ m ∈ b.method, m.Local P

section Inclusion

variable {P Q : Ref → Prop} (sub : ∀ r, P r → Q r)

include sub

theorem Routine.Local.mono {r : Routine} (local_ : r.Local P) : r.Local Q := by
  cases r with
  | item list => exact sub list local_
  | entry dictionary => exact sub dictionary local_
  | host key => exact local_
  | _ => trivial

theorem Expr.Local.mono {e : Expr} (local_ : e.Local P) : e.Local Q := by
  induction local_ with
  | sequence _ ih => exact .sequence ih
  | name => exact .name
  | member _ ih => exact .member ih
  | assign _ ih => exact .assign ih
  | assignMember _ _ ihTarget ihValue => exact .assignMember ihTarget ihValue
  | call _ _ ihTarget ihArgument => exact .call ihTarget ihArgument
  | box _ ih => exact .box ih
  | method _ ih => exact .method ih
  | text => exact .text
  | integer => exact .integer
  | real => exact .real
  | list _ ih => exact .list ih
  | native own => exact .native fun r isRoutine => (own r isRoutine).mono sub
  | held inside => exact .held (sub _ inside)
  | foreign => exact .foreign
  | hole => exact .hole

end Inclusion

/-- A box that holds no others. -/
theorem Box.local_method {P : Ref → Prop} {method : Option Method}
    (local_ : ∀ m ∈ method, m.Local P) : Box.Local P { method } where
  vars p member := by cases member
  items items isList := by cases isList
  entries entries isDictionary := by cases isDictionary
  method := local_

theorem Box.local_empty (P : Ref → Prop) : ({} : Box).Local P :=
  Box.local_method fun m none => by cases none

theorem Box.local_native {P : Ref → Prop} {x : String} {routine : Routine}
    (local_ : routine.Local P) : (Box.native x (some routine)).Local P := by
  refine Box.local_method fun m isMethod e isBody => ?_
  cases isMethod
  cases isBody
  refine .native fun r isRoutine => ?_
  cases isRoutine
  exact local_

theorem Box.Local.item {P : Ref → Prop} {b : Box} (local_ : b.Local P) {items : List (Option Ref)}
    (isList : b.items? = some items) {v : Ref} (member : some v ∈ items) : P v := by
  rw [Box.items?] at isList
  split at isList
  · next payload =>
    cases isList
    exact local_.items _ payload v member
  · cases isList

namespace Heap

/-- Heaps of one size that have the same boxes in a set. -/
structure Alike (P : Ref → Prop) (h h' : Heap) : Prop where
  size : h'.size = h.size
  same : ∀ r, P r → h'.box r = h.box r
  closed : ∀ r, P r → (h.box r).Local P
  fresh : ∀ r, h.size ≤ r → P r
  shared : ∀ r ∈ Canon.shared, P r

namespace Alike

variable {P : Ref → Prop} {h h' : Heap} (alike : Alike P h h') {r : Ref} (inside : P r)

include alike

theorem canon {r : Ref} (member : r ∈ Canon.shared := by decide) : P r := alike.shared r member

/-! ## Reading -/

section Reading

include inside

theorem get? (x : String) : h'.get? r x = h.get? r x := by
  rw [Heap.get?, Heap.get?, alike.same r inside]

theorem local_get? {x : String} {v : Ref} (found : h.get? r x = some v) : P v := by
  obtain ⟨front, back, vars, -⟩ := List.lookup_eq_some_iff.mp found
  exact (alike.closed r inside).vars (x, v) (by rw [vars]; simp)

theorem components? : h'.components? r = h.components? r := by
  rw [Heap.components?, Heap.components?, alike.get? inside]
  cases held : h.get? r componentsName with
  | none => rfl
  | some c => simp only [alike.same c (alike.local_get? inside held)]

theorem local_component {p : Ref} (component : h.Component r p) : P p := by
  have listed := component.2
  rw [Heap.components?] at listed
  cases held : h.get? r componentsName with
  | none =>
    rw [held] at listed
    cases listed
  | some c =>
    rw [held] at listed
    have inside' := alike.local_get? inside held
    cases isList : (h.box c).items? with
    | none =>
      simp only [isList] at listed
      cases listed
    | some items =>
      simp only [isList] at listed
      exact (alike.closed c inside').item isList listed

/-- The search for a box goes the same way. -/
theorem includes (goal : Ref) : h'.includes r goal = h.includes r goal := by
  refine includes_congr (P := P) (fun r p inside => ?_)
    (fun r p inside => alike.local_component inside) inside
  rw [Component, Component, alike.size, alike.components? inside]

theorem isNull : h'.isNull r = h.isNull r := alike.includes inside Canon.null

theorem payload : (h'.box r).payload = (h.box r).payload := by rw [alike.same r inside]

theorem methodFrom (n : Nat) (met : List Ref) : h'.methodFrom n met r = h.methodFrom n met r := by
  induction n generalizing met r with
  | zero => rfl
  | succ n ih =>
    rw [Heap.methodFrom, Heap.methodFrom, alike.get? inside, alike.same r inside]
    cases held : h.get? r callName with
    | none => rfl
    | some next =>
      have inside' := alike.local_get? inside held
      simp only [alike.isNull inside', ih inside']

theorem method? : h'.method? r = h.method? r := by
  rw [Heap.method?, Heap.method?, alike.size, alike.methodFrom inside]

theorem local_methodFrom {n : Nat} {met : List Ref} {m : Method}
    (found : h.methodFrom n met r = some m) : m.Local P := by
  induction n generalizing met r with
  | zero => cases found
  | succ n ih =>
    have own := (alike.closed r inside).method
    rw [Heap.methodFrom] at found
    split at found
    · exact own m found
    · next next held =>
      split at found
      · exact own m found
      · split at found
        · cases found
        · exact ih (alike.local_get? inside held) found

theorem local_method? : ∀ m ∈ h.method? r, m.Local P :=
  fun _ found => alike.local_methodFrom inside found

theorem isTruthy : h'.isTruthy r = h.isTruthy r := by
  rw [Heap.isTruthy, Heap.isTruthy, alike.isNull inside, alike.same r inside]

theorem equal {q : Ref} (inside' : P q) : h'.equal r q = h.equal r q := by
  rw [Heap.equal, Heap.equal, alike.same r inside, alike.same q inside']

theorem showPlain : h'.showPlain r = h.showPlain r := by
  rw [Heap.showPlain, Heap.showPlain, alike.method? inside, alike.same r inside]

end Reading

theorem showTo (n : Nat) {x : Option Ref} (inside : ∀ r ∈ x, P r) :
    h'.showTo n x = h.showTo n x := by
  induction n generalizing x with
  | zero =>
    cases x with
    | none => rfl
    | some r => rw [Heap.showTo, Heap.showTo, alike.isNull (inside r rfl)]
  | succ n ih =>
    cases x with
    | none => rfl
    | some r =>
      have here := inside r rfl
      rw [Heap.showTo, Heap.showTo, alike.isNull here, alike.same r here]
      split
      · rfl
      · cases payload : (h.box r).payload with
        | list items =>
          have shown : ∀ item ∈ items, h'.showTo n item = h.showTo n item := by
            intro item member
            refine ih fun v isSome => ?_
            cases isSome
            exact (alike.closed r here).items items payload v member
          simp only
          rw [List.map_congr_left shown]
        | dictionary entries =>
          have shown : ∀ p ∈ entries, h'.showTo n (some p.1) ++ ": " ++ h'.showTo n p.2 =
              h.showTo n (some p.1) ++ ": " ++ h.showTo n p.2 := by
            intro p member
            obtain ⟨key, value⟩ := (alike.closed r here).entries entries payload p member
            rw [ih (x := some p.1) (by simpa using key), ih value]
          simp only
          rw [List.map_congr_left shown]
        | none => exact alike.showPlain here
        | _ => rfl

theorem display {r : Ref} (inside : P r) : h'.display r = h.display r :=
  alike.showTo shownLevels (by simpa using inside)

theorem lookup {target : Ref} (inside : P target) (x : String) :
    h'.lookup target x = h.lookup target x := by
  rw [Heap.lookup, Heap.lookup, alike.get? inside, alike.get? alike.canon]

theorem local_lookup {target v : Ref} (inside : P target) {x : String}
    (found : h.lookup target x = some v) : P v := by
  rw [Heap.lookup] at found
  split at found
  · next own =>
    cases found
    exact alike.local_get? inside own
  · split at found
    · cases found
      exact alike.canon
    · exact alike.local_get? alike.canon found

theorem arguments {scope : Ref} (inside : P scope) : h'.arguments scope = h.arguments scope := by
  rw [Heap.arguments, Heap.arguments, alike.get? inside]
  cases held : h.get? scope argumentsName with
  | none => rfl
  | some book => simp only [alike.same book (alike.local_get? inside held)]

theorem local_arguments {scope v : Ref} (inside : P scope)
    (member : some v ∈ h.arguments scope) : P v := by
  rw [Heap.arguments] at member
  split at member
  · cases member
  · next book held =>
    have inside' := alike.local_get? inside held
    cases isList : (h.box book).items? with
    | none =>
      rw [isList] at member
      cases List.mem_singleton.mp member
      exact inside'
    | some items =>
      rw [isList] at member
      exact (alike.closed book inside').item isList member

theorem checkArguments {book : Ref} (inside : P book) (method : Option Method) :
    checkArguments h' method book = checkArguments h method book := by
  have getter : ∀ params, checkGetter h' params book = checkGetter h params book := by
    intro params
    simp only [checkGetter, alike.get? inside, alike.display inside]
  simp only [BoxScript.checkArguments, getter, alike.same book inside]

/-! ## Making and binding -/

theorem push {b : Box} (local_ : b.Local P) : Alike P (h.push b) (h'.push b) where
  size := by rw [size_push, size_push, alike.size]
  same r inside := by
    rcases Nat.lt_trichotomy r h.size with old | rfl | outside
    · rw [box_push_of_lt b old, box_push_of_lt b (by rwa [alike.size]), alike.same r inside]
    · rw [box_push_size, ← alike.size, box_push_size]
    · have outside' : h'.size < r := by rwa [alike.size]
      rw [box_of_le (h := h.push b) (by rw [size_push]; omega),
        box_of_le (h := h'.push b) (by rw [size_push]; omega)]
  closed r inside := by
    rcases Nat.lt_trichotomy r h.size with old | rfl | outside
    · rw [box_push_of_lt b old]
      exact alike.closed r inside
    · rwa [box_push_size]
    · rw [box_of_le (by rw [size_push]; omega)]
      exact Box.local_empty P
  fresh r outside := by
    rw [size_push] at outside
    exact alike.fresh r (by omega)
  shared := alike.shared

theorem updateVars (r : Ref) (f : Vars → Vars)
    (kept : P r → ∀ p ∈ f (h.box r).vars, P p.2) :
    Alike P (h.updateVars r f) (h'.updateVars r f) := by
  -- Only a box that was made changes, and the heaps have made the same ones.
  have cases_ : ∀ q, (q = r ∧ r < h.size) ∨
      ((h.updateVars r f).box q = h.box q ∧ (h'.updateVars r f).box q = h'.box q) := by
    intro q
    by_cases other : q = r
    · subst other
      by_cases inside : q < h.size
      · exact .inl ⟨rfl, inside⟩
      · have outside : h.size ≤ q := Nat.le_of_not_lt inside
        have outside' : h'.size ≤ q := by rwa [alike.size]
        refine .inr ⟨?_, ?_⟩
        · rw [box_of_le outside, box_of_le (by simpa using outside)]
        · rw [box_of_le outside', box_of_le (by simpa using outside')]
    · exact .inr ⟨box_updateVars_of_ne other f, box_updateVars_of_ne other f⟩
  refine ⟨by simpa using alike.size, fun q inside => ?_, fun q inside => ?_, fun q => ?_,
    alike.shared⟩
  · rcases cases_ q with ⟨rfl, made⟩ | ⟨first, second⟩
    · rw [box_updateVars_self made, box_updateVars_self (by rwa [alike.size]),
        alike.same q inside]
    · rw [first, second, alike.same q inside]
  · have old := alike.closed q inside
    rcases cases_ q with ⟨rfl, made⟩ | ⟨first, -⟩
    · rw [box_updateVars_self made]
      exact ⟨kept inside, old.items, old.entries, old.method⟩
    · rw [first]
      exact old
  · rw [size_updateVars]
    exact alike.fresh q

theorem assign (r : Ref) (x : String) {v : Ref} (inside : P v) :
    Alike P (h.assign r x v) (h'.assign r x v) := by
  rw [Heap.assign, Heap.assign, alike.isNull inside]
  split
  · refine alike.updateVars r _ fun here p member => ?_
    exact (alike.closed r here).vars p (List.mem_filter.mp member).1
  · refine alike.updateVars r _ fun here p member => ?_
    rcases Vars.mem_set member with old | isValue
    · exact (alike.closed r here).vars p old
    · rwa [isValue]

end Alike

/-- Both heaps got the same new box. -/
structure AlikeMade (P : Ref → Prop) (made made' : Heap × Ref) : Prop where
  heap : Alike P made.1 made'.1
  same : made'.2 = made.2
  inside : P made.2

namespace Alike

variable {P : Ref → Prop} {h h' : Heap} (alike : Alike P h h')

include alike

theorem alloc {b : Box} (local_ : b.Local P) : AlikeMade P (h.alloc b) (h'.alloc b) where
  heap := alike.push local_
  same := alike.size
  inside := alike.fresh _ (Nat.le_refl _)

theorem newList {items : List Ref} (all : ∀ v ∈ items, P v) :
    AlikeMade P (h.newList items) (h'.newList items) := by
  have list : (listBox h.size items).Local P := by
    refine ⟨fun p member => ?_, fun found isList v member => ?_,
      fun entries isDictionary => (by cases isDictionary), fun m none => by cases none⟩
    · simp only [listBox, List.mem_cons, List.not_mem_nil, or_false] at member
      rcases member with rfl | rfl
      · exact alike.canon
      · exact alike.fresh _ (Nat.le_succ _)
    · cases isList
      obtain ⟨w, isItem, same⟩ := List.mem_map.mp member
      cases same
      exact all v isItem
  have getter : (Box.native "List.get" (some (.item h.size))).Local P :=
    Box.local_native (alike.fresh _ (Nat.le_refl _))
  refine ⟨?_, alike.size, alike.fresh _ (Nat.le_refl _)⟩
  rw [newList_eq, newList_eq, alike.size]
  exact (alike.push list).push getter

theorem newWith {component : Ref} (inside : P component) {payload : Payload}
    (plain : Plain payload) :
    AlikeMade P (h.newWith [component] payload) (h'.newWith [component] payload) := by
  have box : Box.Local P { vars := [(componentsName, h.size + 1)], payload } := by
    refine ⟨fun p member => ?_, fun items isList => absurd isList (plain.1 items),
      fun entries isDictionary => absurd isDictionary (plain.2 entries),
      fun m none => by cases none⟩
    rw [List.mem_singleton.mp member]
    exact alike.fresh _ (Nat.le_succ _)
  refine ⟨?_, alike.size, alike.fresh _ (Nat.le_refl _)⟩
  rw [newWith_eq, newWith_eq, alike.size]
  exact ((alike.push box).newList (by simpa using inside)).heap

theorem newInteger (n : Int64) : AlikeMade P (h.newInteger n) (h'.newInteger n) :=
  alike.newWith alike.canon (plain_integer n)

theorem newReal (x : Float) : AlikeMade P (h.newReal x) (h'.newReal x) :=
  alike.newWith alike.canon (plain_real x)

theorem newText (bytes : Bytes) : AlikeMade P (h.newText bytes) (h'.newText bytes) :=
  alike.newWith alike.canon (plain_text bytes)

theorem scope {callee book : Ref} (insideCallee : P callee) (insideBook : P book) :
    AlikeMade P (h.scope callee book) (h'.scope callee book) := by
  have made : AlikeMade P (h.newWith [callee] .none) (h'.newWith [callee] .none) :=
    alike.newWith insideCallee plain_none
  refine ⟨?_, made.same, made.inside⟩
  rw [Heap.scope, Heap.scope, made.same]
  exact made.heap.assign _ _ insideBook

end Alike

end Heap

end BoxScript
