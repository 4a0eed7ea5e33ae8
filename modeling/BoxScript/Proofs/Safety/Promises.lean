import BoxScript.Proofs.Expr.Occurrence
import BoxScript.Proofs.Heap.Delegation
import BoxScript.Proofs.Machine.Effects
import BoxScript.Proofs.Machine.Turns

/-!
# Trees of any shape

The embedding program may put together any tree of expressions, with holes and
expressions of foreign kinds in it. A few things are up to it: no list has an
item missing, a getter reads a list or dictionary, a method that takes any
arguments has no parameters to bind from them, and its own functions answer or
fail. Evaluation relies on nothing else. As long as these promises are kept, and
whatever the tree looks like, no dispatch ends the evaluation for good.

Whether there are no holes at all is left open, to be promised too.
-/

set_option autoImplicit false

namespace BoxScript

/-- What is promised: the functions of the embedding program, by their keys, and
whether no expression is missing. -/
structure Promise where
  known : String → Prop
  whole : Bool

variable {p : Promise}

/-- A routine that can be run. -/
def Routine.Ready (p : Promise) (h : Heap) : Routine → Prop
  | .item list => ∃ items, (h.box list).payload = .list items
  | .entry dictionary => ∃ entries, (h.box dictionary).payload = .dictionary entries
  | .host key => p.known key
  | _ => True

/-- What is promised of an expression apart from its parts. -/
def Expr.Standing (p : Promise) (h : Heap) : Expr → Prop
  | .native _ (some routine) => routine.Ready p h
  | .hole => p.whole = false
  | _ => True

/-- What is promised of a tree. -/
def Expr.Sturdy (p : Promise) (h : Heap) (e : Expr) : Prop := ∀ g, Occurs g e → g.Standing p h

structure Method.Sturdy (p : Promise) (h : Heap) (method : Method) : Prop where
  body : ∀ e ∈ method.body, e.Sturdy p h
  variadic : method.variadic = true → method.params = []

structure Box.Sturdy (p : Promise) (h : Heap) (b : Box) : Prop where
  items : ∀ items, b.payload = .list items → none ∉ items
  method : ∀ method ∈ b.method, method.Sturdy p h

def Heap.Sturdy (p : Promise) (h : Heap) : Prop := ∀ r, (h.box r).Sturdy p h

/-- What could be run before can be run after. -/
def Heap.Serves (p : Promise) (h h' : Heap) : Prop :=
  ∀ routine : Routine, routine.Ready p h → routine.Ready p h'

/-- What is promised of the embedding program. Its functions keep the promises
about the heap, and they answer or fail if no argument is missing. -/
structure Host.Sturdy {σ : Type} (p : Promise) (host : Host σ) : Prop where
  natives : ∀ x routine, host.natives.lookup x = some routine → ∀ h, routine.Ready p h
  keeps : ∀ key args h world, p.known key → h.Sturdy p →
    h.Serves p (host.call key args h world).heap ∧ (host.call key args h world).heap.Sturdy p
  answers : ∀ key args h world, p.known key → h.Sturdy p → none ∉ args →
    (host.call key args h world).result ≠ .error .fatal

/-! ## Trees -/

namespace Expr.Sturdy

variable {h h' : Heap} {e g : Expr}

theorem here (sturdy : e.Sturdy p h) : e.Standing p h := sturdy e .here

theorem part (sturdy : e.Sturdy p h) (part : g ∈ e.parts) : g.Sturdy p h :=
  fun f occurs => sturdy f (.inside part occurs)

theorem of_parts (standing : e.Standing p h) (parts : ∀ g ∈ e.parts, g.Sturdy p h) :
    e.Sturdy p h := by
  intro f occurs
  cases occurs with
  | here => exact standing
  | inside part occurs => exact parts _ part f occurs

theorem mono (serves : h.Serves p h') (sturdy : e.Sturdy p h) : e.Sturdy p h' := by
  intro f occurs
  have standing := sturdy f occurs
  cases f with
  | native x routine =>
    cases routine with
    | none => exact trivial
    | some routine => exact serves routine standing
  | hole => exact standing
  | _ => exact trivial

/-- The assignment that binds a parameter keeps all promises. -/
theorem binding (param : String) (getter book : Ref) :
    (Expr.assign param (.call (.held getter) (.held book))).Sturdy p h := by
  have held : ∀ r, (Expr.held r).Sturdy p h := fun r => .of_parts trivial nofun
  have call : (Expr.call (.held getter) (.held book)).Sturdy p h :=
    .of_parts trivial (by simpa [Expr.parts] using ⟨held getter, held book⟩)
  exact .of_parts trivial (by simpa [Expr.parts] using call)

end Expr.Sturdy

/-! ## Heaps -/

namespace Heap

variable {h h' : Heap}

theorem Extends.serves (later : h.Extends h') : h.Serves p h' := by
  have inside : ∀ {r : Ref}, (h.box r).payload ≠ .none → r < h.size := by
    intro r holds
    apply Nat.lt_of_not_le
    intro outside
    rw [box_of_le outside] at holds
    exact holds rfl
  intro routine ready
  cases routine with
  | item list =>
    obtain ⟨items, payload⟩ := ready
    exact ⟨items, (later.payload list (inside (by simp [payload]))).trans payload⟩
  | entry dictionary =>
    obtain ⟨entries, payload⟩ := ready
    exact ⟨entries, (later.payload dictionary (inside (by simp [payload]))).trans payload⟩
  | host key => exact ready
  | _ => exact trivial

theorem extends_target (h : Heap) (target : Option Ref) : h.Extends (h.target target).1 := by
  cases target with
  | none => exact h.extends_push {}
  | some t => exact .refl h

end Heap

theorem Method.Sturdy.mono {h h' : Heap} {method : Method} (serves : h.Serves p h')
    (sturdy : method.Sturdy p h) : method.Sturdy p h' :=
  ⟨fun e body => (sturdy.body e body).mono serves, sturdy.variadic⟩

theorem Box.Sturdy.mono {h h' : Heap} {b : Box} (serves : h.Serves p h') (sturdy : b.Sturdy p h) :
    b.Sturdy p h' :=
  ⟨sturdy.items, fun method own => (sturdy.method method own).mono serves⟩

/-- A box without a method that is no list. -/
theorem Box.Sturdy.plain {h : Heap} {b : Box} (bare : b.method = none)
    (plain : ∀ items, b.payload ≠ .list items) : b.Sturdy p h :=
  ⟨fun items isList => absurd isList (plain items), by simp [bare]⟩

namespace Heap.Sturdy

variable {h : Heap}

theorem push {b : Box} (sturdy : h.Sturdy p) (new : b.Sturdy p (h.push b)) :
    (h.push b).Sturdy p := by
  intro r
  rcases Nat.lt_trichotomy r h.size with old | rfl | outside
  · rw [box_push_of_lt b old]
    exact (sturdy r).mono (extends_push h b).serves
  · rwa [box_push_size]
  · rw [box_of_le (by rw [size_push]; exact outside)]
    exact .plain rfl nofun

theorem assign (sturdy : h.Sturdy p) (r : Ref) (x : String) (v : Ref) :
    (h.assign r x v).Sturdy p := by
  have later := h.extends_assign r x v
  intro q
  by_cases inside : q < h.size
  · have old := (sturdy q).mono later.serves
    refine ⟨fun items isList => old.items items ?_, fun method own => old.method method ?_⟩
    · rw [← later.payload q inside]
      exact isList
    · rw [← later.method q inside]
      exact own
  · rw [box_of_le (by rw [size_assign]; exact Nat.le_of_not_lt inside)]
    exact .plain rfl nofun

/-- The getter of a new list reads that list. -/
theorem newList (sturdy : h.Sturdy p) (items : List Ref) : (h.newList items).1.Sturdy p := by
  rw [newList_eq]
  have list : (h.push (listBox h.size items)).Sturdy p := by
    refine sturdy.push ⟨?_, nofun⟩
    rintro items ⟨⟩
    simp
  refine list.push ⟨nofun, ?_⟩
  rintro method ⟨⟩
  refine ⟨?_, fun _ => rfl⟩
  rintro e ⟨⟩
  refine .of_parts ⟨items.map some, ?_⟩ nofun
  rw [box_push_of_lt _ (by simp), box_push_size]
  rfl

theorem newWith (sturdy : h.Sturdy p) (component : Ref) (payload : Payload)
    (plain : ∀ items, payload ≠ .list items) : (h.newWith [component] payload).1.Sturdy p := by
  rw [newWith_eq]
  exact (sturdy.push (.plain rfl plain)).newList _

theorem scope (sturdy : h.Sturdy p) (callee book : Ref) : (h.scope callee book).1.Sturdy p :=
  (sturdy.newWith callee .none nofun).assign _ _ _

theorem bindings (sturdy : h.Sturdy p) (getter : Ref) (i : Nat) (params : List String) :
    (Recursive.bindings getter h i params).1.Sturdy p := by
  induction params generalizing h i with
  | nil => exact sturdy
  | cons param params ih =>
    exact ih ((sturdy.newWith Canon.integer (.integer (Int64.ofNat i)) nofun).newList _) (i + 1)

theorem target (sturdy : h.Sturdy p) (target : Option Ref) : (h.target target).1.Sturdy p := by
  cases target with
  | none => exact sturdy.push (.plain rfl nofun)
  | some t => exact sturdy

theorem method? (sturdy : h.Sturdy p) (r : Ref) : ∀ method ∈ h.method? r, method.Sturdy p h := by
  intro method found
  rcases h.method?_cases r with ⟨last, -, -, same⟩ | ⟨-, -, -, none⟩
  · rw [same] at found
    exact (sturdy last).method method found
  · rw [none] at found
    cases found

/-- No argument of a native call is missing. -/
theorem arguments (sturdy : h.Sturdy p) (scope : Ref) : none ∉ h.arguments scope := by
  rw [Heap.arguments]
  split
  · simp
  · next book _ =>
    cases items : (h.box book).items? with
    | none => simp
    | some items' =>
      have isList : (h.box book).payload = .list items' := by
        rw [Box.items?] at items
        split at items
        · next payload => rw [payload, Option.some.inj items]
        · cases items
      exact (sturdy book).items items' isList

end Heap.Sturdy

/-! ## Routines -/

namespace Native

variable {α β : Type}

/-- A computation that answers or fails for a cause. -/
def Spares (P : α → Prop) : Except Failure α → Prop
  | .ok a => P a
  | .error failure => failure ≠ .fatal

theorem Spares.bind {P : α → Prop} {Q : β → Prop} {x : Except Failure α}
    {f : α → Except Failure β} (first : Spares P x) (second : ∀ a, P a → Spares Q (f a)) :
    Spares Q (x >>= f) := by
  cases x with
  | error failure => exact first
  | ok a => exact second a first

theorem spares_fails {P : α → Prop} (cause : Cause) : Spares P (fails cause) := by
  rintro ⟨⟩

variable {h : Heap} {args : List (Option Ref)} {routine : String}

section Arguments

variable (present : none ∉ args)

include present

theorem spares_one : Spares (fun x => x ≠ none) (one routine args) := by
  match args with
  | [x] =>
    rintro rfl
    exact present (by simp)
  | [] | _ :: _ :: _ => exact spares_fails _

theorem spares_two : Spares (fun p => p.1 ≠ none ∧ p.2 ≠ none) (two routine args) := by
  match args with
  | [x, y] =>
    constructor
    · rintro rfl
      exact present (by simp)
    · rintro rfl
      exact present (by simp)
  | [] | [_] | _ :: _ :: _ :: _ => exact spares_fails _

theorem spares_three : Spares (fun p => p.1 ≠ none) (three routine args) := by
  match args with
  | [x, y, z] =>
    rintro rfl
    exact present (by simp)
  | [] | [_] | [_, _] | _ :: _ :: _ :: _ :: _ => exact spares_fails _

end Arguments

theorem spares_payload (sturdy : h.Sturdy p) {x : Option Ref} (present : x ≠ none) :
    Spares (fun payload => ∀ items, payload = .list items → none ∉ items) (payload h x) := by
  cases x with
  | none => exact absurd rfl present
  | some r => exact (sturdy r).items

section Payloads

variable (sturdy : h.Sturdy p) {x : Option Ref} (present : x ≠ none) (position : Nat)

include sturdy present

theorem spares_integerAt : Spares (fun _ => True) (integerAt h routine position x) := by
  refine (spares_payload sturdy present).bind fun payload _ => ?_
  cases payload with
  | integer => exact trivial
  | _ => exact spares_fails _

theorem spares_textAt : Spares (fun _ => True) (textAt h routine position x) := by
  refine (spares_payload sturdy present).bind fun payload _ => ?_
  cases payload with
  | text => exact trivial
  | _ => exact spares_fails _

theorem spares_numberAt : Spares (fun _ => True) (numberAt h routine position x) := by
  refine (spares_payload sturdy present).bind fun payload _ => ?_
  cases payload with
  | integer | real => exact trivial
  | _ => exact spares_fails _

theorem spares_listAt : Spares (fun items => none ∉ items) (listAt h routine position x) := by
  refine (spares_payload sturdy present).bind fun payload full => ?_
  cases payload with
  | list items => exact full items rfl
  | _ => exact spares_fails _

end Payloads

theorem spares_textsFrom (sturdy : h.Sturdy p) (present : none ∉ args) (position : Nat) :
    Spares (fun _ => True) (textsFrom h routine position args) := by
  induction args generalizing position with
  | nil => exact trivial
  | cons x rest ih =>
    rw [List.mem_cons, not_or] at present
    have first : Spares (fun _ => True) (textAt h routine position x) :=
      spares_textAt sturdy (Ne.symm present.1) position
    have others := ih present.2 (position + 1)
    rw [textsFrom]
    cases text : textAt h routine position x with
    | error failure =>
      rw [text] at first
      exact first
    | ok bytes =>
      cases texts : textsFrom h routine (position + 1) rest with
      | error failure =>
        rw [texts] at others
        exact others
      | ok texts => exact trivial

section Answers

variable (sturdy : h.Sturdy p) (present : none ∉ args)

include sturdy present

theorem spares_operands : Spares (fun _ => True) (operands h routine args) := by
  refine (spares_two present).bind ?_
  rintro ⟨x, y⟩ ⟨presentX, presentY⟩
  refine (spares_numberAt sturdy presentX 0).bind fun _ _ => ?_
  exact (spares_numberAt sturdy presentY 1).bind fun _ _ => trivial

theorem spares_arithmetic {onIntegers : Int64 → Int64 → Except Failure Int64}
    {onReals : Float → Float → Float}
    (spares : ∀ x y, Spares (fun _ => True) (onIntegers x y)) :
    Spares (fun _ => True) (arithmetic routine onIntegers onReals h args) := by
  refine (spares_operands sturdy present).bind ?_
  rintro (⟨x, y⟩ | ⟨x, y⟩) -
  · exact (spares x y).bind fun _ _ => trivial
  · exact trivial

theorem spares_div : Spares (fun _ => True) (div h args) := by
  refine spares_arithmetic sturdy present fun x y => ?_
  split
  · exact spares_fails _
  · exact trivial

theorem spares_less : Spares (fun _ => True) (less h args) := by
  refine (spares_operands sturdy present).bind ?_
  rintro (⟨x, y⟩ | ⟨x, y⟩) -
  · exact trivial
  · exact trivial

omit sturdy in
theorem spares_equal : Spares (fun _ => True) (equal h args) := by
  refine (spares_two present).bind ?_
  rintro ⟨_ | x, _ | y⟩ ⟨presentX, presentY⟩
  · exact absurd rfl presentX
  · exact absurd rfl presentX
  · exact absurd rfl presentY
  · exact trivial

omit sturdy in
theorem spares_select : Spares (fun _ => True) (select h args) := by
  refine (spares_three present).bind ?_
  rintro ⟨_ | condition, yes, no⟩ isThere
  · exact absurd rfl isThere
  · exact trivial

theorem spares_concat : Spares (fun _ => True) (concat h args) :=
  (spares_textsFrom sturdy present 0).bind fun _ _ => trivial

theorem spares_length : Spares (fun _ => True) (length h args) := by
  refine (spares_one present).bind fun x isThere => ?_
  refine (spares_payload sturdy isThere).bind fun payload _ => ?_
  cases payload with
  | text | list => exact trivial
  | _ => exact spares_fails _

theorem spares_join : Spares (fun _ => True) (join h args) := by
  refine (spares_two present).bind ?_
  rintro ⟨list, separator⟩ ⟨presentList, presentSeparator⟩
  refine (spares_listAt sturdy presentList 0).bind fun items full => ?_
  refine (spares_textAt sturdy presentSeparator 1).bind fun _ _ => ?_
  exact (spares_textsFrom sturdy full 0).bind fun _ _ => trivial

theorem spares_upper : Spares (fun _ => True) (upper h args) := by
  refine (spares_one present).bind fun x isThere => ?_
  exact (spares_textAt sturdy isThere 0).bind fun _ _ => trivial

theorem spares_lower : Spares (fun _ => True) (lower h args) := by
  refine (spares_one present).bind fun x isThere => ?_
  exact (spares_textAt sturdy isThere 0).bind fun _ _ => trivial

theorem spares_item {list : Ref} {items : List (Option Ref)}
    (isList : (h.box list).payload = .list items) : Spares (fun _ => True) (item h list args) := by
  refine (spares_one present).bind fun x isThere => ?_
  refine (spares_integerAt sturdy isThere 0).bind fun k _ => ?_
  simp only [isList]
  split
  · exact trivial
  · exact spares_fails _

omit sturdy in
theorem spares_entry {dictionary : Ref} {entries : List (Ref × Option Ref)}
    (isDictionary : (h.box dictionary).payload = .dictionary entries) :
    Spares (fun _ => True) (entry h dictionary args) := by
  refine (spares_one present).bind ?_
  rintro (_ | key) isThere
  · exact absurd rfl isThere
  · simp only [isDictionary]
    split
    · exact trivial
    · exact spares_fails _

end Answers

end Native

theorem Routine.spares_answer {h : Heap} {routine : Routine} (ready : routine.Ready p h)
    (shipped : ∀ key, routine ≠ .host key) (sturdy : h.Sturdy p) {args : List (Option Ref)}
    (present : none ∉ args) : Native.Spares (fun _ => True) (routine.answer h args) := by
  cases routine with
  | add => exact Native.spares_arithmetic sturdy present fun _ _ => trivial
  | sub => exact Native.spares_arithmetic sturdy present fun _ _ => trivial
  | mul => exact Native.spares_arithmetic sturdy present fun _ _ => trivial
  | div => exact Native.spares_div sturdy present
  | less => exact Native.spares_less sturdy present
  | equal => exact Native.spares_equal present
  | select => exact Native.spares_select present
  | concat => exact Native.spares_concat sturdy present
  | length => exact Native.spares_length sturdy present
  | upper => exact Native.spares_upper sturdy present
  | lower => exact Native.spares_lower sturdy present
  | join => exact Native.spares_join sturdy present
  | item list =>
    obtain ⟨items, isList⟩ := ready
    exact Native.spares_item sturdy present isList
  | entry dictionary =>
    obtain ⟨entries, isDictionary⟩ := ready
    exact Native.spares_entry present isDictionary
  | host key => exact absurd rfl (shipped key)

/-- A routine answers or fails for a cause. -/
theorem Routine.run_spares {σ : Type} {host : Host σ} (friendly : host.Sturdy p) {h : Heap}
    {routine : Routine} (ready : routine.Ready p h) (sturdy : h.Sturdy p)
    {args : List (Option Ref)} (present : none ∉ args) (world : σ) :
    (routine.run host args h world).result ≠ .error .fatal := by
  by_cases hosted : ∃ key, routine = .host key
  · obtain ⟨key, rfl⟩ := hosted
    exact friendly.answers key args h world ready sturdy present
  · have shipped : ∀ key, routine ≠ .host key := fun key same => hosted ⟨key, same⟩
    have spares := Routine.spares_answer ready shipped sturdy present
    rw [Machine.run_routine shipped]
    cases reply : routine.answer h args with
    | error failure =>
      rw [reply] at spares
      rintro ⟨⟩
      exact spares rfl
    | ok answer => nofun

end BoxScript
