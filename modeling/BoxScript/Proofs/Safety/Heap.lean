import BoxScript.Heap.Initial
import BoxScript.Proofs.Source.Shape

/-!
# Sound heaps

In a sound heap every reference denotes a box that was made: those in
variables, the items of lists, the keys and values of dictionaries, and the
lists and dictionaries inside getters, which moreover are what the getter takes
them for. A method is the body of a source, a getter, or a native call that
names a routine of the language.

Boxes are never removed and keep their payloads and methods, so what is sound
stays so while the heap grows; the lemmas below say that every operation of
evaluation extends the heap and leaves it sound.
-/

set_option autoImplicit false

namespace BoxScript

open Source (Parsed)

namespace Heap

/-- A later state of a heap. -/
structure Extends (h h' : Heap) : Prop where
  size : h.size ≤ h'.size
  payload : ∀ r < h.size, (h'.box r).payload = (h.box r).payload
  method : ∀ r < h.size, (h'.box r).method = (h.box r).method

namespace Extends

variable {h h' h'' : Heap}

theorem refl (h : Heap) : Extends h h := ⟨Nat.le_refl _, fun _ _ => rfl, fun _ _ => rfl⟩

theorem trans (first : Extends h h') (second : Extends h' h'') : Extends h h'' where
  size := Nat.le_trans first.size second.size
  payload r inside :=
    (second.payload r (Nat.lt_of_lt_of_le inside first.size)).trans (first.payload r inside)
  method r inside :=
    (second.method r (Nat.lt_of_lt_of_le inside first.size)).trans (first.method r inside)

theorem inside (extends_ : Extends h h') {r : Ref} (inside : r < h.size) : r < h'.size :=
  Nat.lt_of_lt_of_le inside extends_.size

end Extends

/-- A later state of a heap in which no box has changed. -/
structure Keeps (h h' : Heap) : Prop where
  size : h.size ≤ h'.size
  same : ∀ r < h.size, h'.box r = h.box r

namespace Keeps

variable {h h' h'' : Heap}

theorem refl (h : Heap) : Keeps h h := ⟨Nat.le_refl _, fun _ _ => rfl⟩

theorem trans (first : Keeps h h') (second : Keeps h' h'') : Keeps h h'' where
  size := Nat.le_trans first.size second.size
  same r inside :=
    (second.same r (Nat.lt_of_lt_of_le inside first.size)).trans (first.same r inside)

theorem later (keeps : Keeps h h') : Extends h h' where
  size := keeps.size
  payload r inside := by rw [keeps.same r inside]
  method r inside := by rw [keeps.same r inside]

end Keeps

end Heap

/-- The native calls that may stand in a method: getters of lists and
dictionaries, and calls that name a routine of the language. -/
inductive Expr.Native (h : Heap) : Expr → Prop where
  | item {x : String} {list : Ref} {items : List (Option Ref)} (inside : list < h.size)
      (payload : (h.box list).payload = .list items) : Native h (.native x (some (.item list)))
  | entry {x : String} {dictionary : Ref} {entries : List (Ref × Option Ref)}
      (inside : dictionary < h.size)
      (payload : (h.box dictionary).payload = .dictionary entries) :
      Native h (.native x (some (.entry dictionary)))
  | shipped {x : String} (known : (shippedRoutines.lookup x).isSome) : Native h (.native x none)

inductive Method.Sound (h : Heap) : Method → Prop where
  | parsed {params : List String} {body : Option Expr} {es : List Expr}
      (folded : body = Expr.ofList es) (all : ∀ e ∈ es, Parsed e) :
      Method.Sound h ⟨params, body, false⟩
  | native {e : Expr} (known : e.Native h) : Method.Sound h ⟨[], some e, true⟩

structure Box.Sound (h : Heap) (b : Box) : Prop where
  vars : ∀ p ∈ b.vars, p.2 < h.size
  items : ∀ items, b.payload = .list items → ∀ x ∈ items, ∃ v, x = some v ∧ v < h.size
  entries : ∀ entries, b.payload = .dictionary entries →
    ∀ p ∈ entries, p.1 < h.size ∧ ∀ v ∈ p.2, v < h.size
  method : ∀ m, b.method = some m → m.Sound h

/-- The prototypes are there, and all boxes are sound. -/
structure Heap.Sound (h : Heap) : Prop where
  prototypes : Canon.listTagGetter < h.size
  box : ∀ r, (h.box r).Sound h

section Growth

variable {h h' : Heap} (later : h.Extends h')

include later

theorem Expr.Native.mono {e : Expr} (known : e.Native h) : e.Native h' := by
  cases known with
  | item inside payload =>
    exact .item (later.inside inside) ((later.payload _ inside).trans payload)
  | entry inside payload =>
    exact .entry (later.inside inside) ((later.payload _ inside).trans payload)
  | shipped known => exact .shipped known

theorem Method.Sound.mono {m : Method} (sound : m.Sound h) : m.Sound h' := by
  cases sound with
  | parsed folded all => exact .parsed folded all
  | native known => exact .native (known.mono later)

theorem Box.Sound.mono {b : Box} (sound : b.Sound h) : b.Sound h' where
  vars p member := later.inside (sound.vars p member)
  items items isList x member := by
    obtain ⟨v, isSome, inside⟩ := sound.items items isList x member
    exact ⟨v, isSome, later.inside inside⟩
  entries entries isDictionary p member := by
    obtain ⟨key, value⟩ := sound.entries entries isDictionary p member
    exact ⟨later.inside key, fun v isSome => later.inside (value v isSome)⟩
  method m isMethod := (sound.method m isMethod).mono later

end Growth

theorem Box.sound_empty (h : Heap) : ({} : Box).Sound h :=
  ⟨nofun, nofun, nofun, nofun⟩

/-! ## Reading and growing a heap -/

namespace Heap

variable {h : Heap}

@[simp] theorem size_push (h : Heap) (b : Box) : (h.push b).size = h.size + 1 := by
  simp [size, push]

theorem box_push_of_lt (b : Box) {r : Nat} (inside : r < h.size) : (h.push b).box r = h.box r := by
  simp only [box, push]
  rw [Array.getElem?_push_lt inside, Array.getElem?_eq_getElem inside]

@[simp] theorem box_push_size (h : Heap) (b : Box) : (h.push b).box h.size = b := by
  simp [box, push, size]

theorem box_of_le {r : Nat} (outside : h.size ≤ r) : h.box r = {} := by
  simp [box, Array.getElem?_eq_none_iff.mpr outside]

theorem keeps_push (h : Heap) (b : Box) : h.Keeps (h.push b) where
  size := by simp
  same _ inside := box_push_of_lt b inside

theorem extends_push (h : Heap) (b : Box) : h.Extends (h.push b) := (keeps_push h b).later

theorem Sound.push {b : Box} (sound : h.Sound) (new : b.Sound (h.push b)) : (h.push b).Sound where
  prototypes := (extends_push h b).inside sound.prototypes
  box r := by
    rcases Nat.lt_trichotomy r h.size with inside | rfl | outside
    · rw [box_push_of_lt b inside]
      exact (sound.box r).mono (extends_push h b)
    · rwa [box_push_size]
    · rw [box_of_le (by rw [size_push]; omega)]
      exact Box.sound_empty _

@[simp] theorem size_updateVars (h : Heap) (r : Nat) (f : Vars → Vars) :
    (h.updateVars r f).size = h.size := by
  simp [size, updateVars]

theorem box_updateVars_self {r : Nat} (inside : r < h.size) (f : Vars → Vars) :
    (h.updateVars r f).box r = { h.box r with vars := f (h.box r).vars } := by
  simp only [box, updateVars]
  rw [Array.getElem?_modify]
  simp [Array.getElem?_eq_getElem inside]

theorem box_updateVars_of_ne {r q : Nat} (other : q ≠ r) (f : Vars → Vars) :
    (h.updateVars r f).box q = h.box q := by
  simp only [box, updateVars]
  rw [Array.getElem?_modify]
  simp [Ne.symm other]

/-! ## Variables -/

theorem extends_updateVars (h : Heap) (r : Nat) (f : Vars → Vars) :
    h.Extends (h.updateVars r f) where
  size := by simp
  payload q inside := by
    by_cases same : q = r
    · subst same
      rw [box_updateVars_self inside]
    · rw [box_updateVars_of_ne same]
  method q inside := by
    by_cases same : q = r
    · subst same
      rw [box_updateVars_self inside]
    · rw [box_updateVars_of_ne same]

theorem Sound.updateVars (sound : h.Sound) (r : Nat) {f : Vars → Vars}
    (kept : ∀ p ∈ f (h.box r).vars, p.2 < h.size) : (h.updateVars r f).Sound where
  prototypes := by simpa using sound.prototypes
  box q := by
    have later := extends_updateVars h r f
    by_cases changed : q = r ∧ r < h.size
    · obtain ⟨rfl, inside⟩ := changed
      have old := (sound.box q).mono later
      rw [box_updateVars_self inside]
      exact ⟨fun p member => later.inside (kept p member), old.items, old.entries, old.method⟩
    · have same : (h.updateVars r f).box q = h.box q := by
        by_cases other : q = r
        · subst other
          have outside : h.size ≤ q := Nat.le_of_not_lt fun inside => changed ⟨rfl, inside⟩
          rw [box_of_le outside, box_of_le (by simpa using outside)]
        · exact box_updateVars_of_ne other f
      rw [same]
      exact (sound.box q).mono later

end Heap

theorem Vars.mem_set {x : String} {v : Nat} {vars : Vars} {p : String × Ref}
    (member : p ∈ Vars.set x v vars) : p ∈ vars ∨ p.2 = v := by
  induction vars with
  | nil =>
    rw [Vars.set, List.mem_singleton] at member
    exact .inr (by rw [member])
  | cons q vars ih =>
    obtain ⟨y, w⟩ := q
    rw [Vars.set] at member
    split at member
    · rcases List.mem_cons.mp member with rfl | member
      · exact .inr rfl
      · exact .inl (List.mem_cons_of_mem _ member)
    · rcases List.mem_cons.mp member with rfl | member
      · exact .inl (by simp)
      · exact (ih member).imp_left (List.mem_cons_of_mem _)

namespace Heap

variable {h : Heap}

theorem mem_vars_of_get? {r v : Nat} {x : String} (found : h.get? r x = some v) :
    (x, v) ∈ (h.box r).vars := by
  simp only [Heap.get?, Box.get?] at found
  obtain ⟨front, back, vars, -⟩ := List.lookup_eq_some_iff.mp found
  rw [vars]
  simp

/-- A variable holds a box that was made. -/
theorem Sound.get? (sound : h.Sound) {r v : Nat} {x : String} (found : h.get? r x = some v) :
    v < h.size :=
  (sound.box r).vars _ (mem_vars_of_get? found)

theorem extends_assign (h : Heap) (r : Nat) (x : String) (v : Nat) :
    h.Extends (h.assign r x v) := by
  rw [assign]
  split <;> exact extends_updateVars h r _

@[simp] theorem size_assign (h : Heap) (r : Nat) (x : String) (v : Nat) :
    (h.assign r x v).size = h.size := by
  rw [assign]
  split <;> exact size_updateVars h r _

theorem box_assign_of_ne {r q : Nat} (other : q ≠ r) (x : String) (v : Nat) :
    (h.assign r x v).box q = h.box q := by
  rw [assign]
  split <;> exact box_updateVars_of_ne other _

theorem Sound.assign (sound : h.Sound) (r : Nat) (x : String) {v : Nat} (inside : v < h.size) :
    (h.assign r x v).Sound := by
  rw [Heap.assign]
  split
  · refine sound.updateVars r ?_
    intro p member
    exact (sound.box r).vars p (List.mem_filter.mp member).1
  · refine sound.updateVars r ?_
    intro p member
    rcases Vars.mem_set member with member | same
    · exact (sound.box r).vars p member
    · rwa [same]

/-! ## New boxes -/

/-- A box was made, which no older box is. -/
structure Made (h : Heap) (made : Heap × Ref) : Prop where
  keeps : h.Keeps made.1
  fresh : made.2 = h.size
  inside : made.2 < made.1.size
  sound : made.1.Sound

theorem Made.later {made : Heap × Ref} (new : Made h made) : h.Extends made.1 := new.keeps.later

theorem made_alloc (sound : h.Sound) {b : Box} (new : b.Sound (h.push b)) : Made h (h.alloc b) where
  keeps := keeps_push h b
  fresh := rfl
  inside := by simp [alloc]
  sound := sound.push new

theorem made_newBox (sound : h.Sound) : Made h h.newBox := made_alloc sound (Box.sound_empty _)

theorem made_newMethod (sound : h.Sound) {m : Method} (proper : m.Sound (h.push { method := m })) :
    Made h (h.newMethod m) := by
  refine made_alloc sound ⟨nofun, nofun, nofun, ?_⟩
  intro m' isMethod
  cases isMethod
  exact proper

/-- Several boxes at once, which may refer to one another. -/
theorem Sound.grow {h' : Heap} (sound : h.Sound) (keeps : h.Keeps h')
    (new : ∀ r, h.size ≤ r → r < h'.size → (h'.box r).Sound h') : h'.Sound where
  prototypes := keeps.later.inside sound.prototypes
  box r := by
    by_cases old : r < h.size
    · rw [keeps.same r old]
      exact (sound.box r).mono keeps.later
    · by_cases inside : r < h'.size
      · exact new r (Nat.le_of_not_lt old) inside
      · rw [box_of_le (Nat.le_of_not_lt inside)]
        exact Box.sound_empty _

/-- The box of a list whose getter comes next. -/
def listBox (r : Nat) (items : List Ref) : Box :=
  { vars := [(componentsName, Canon.listTag), (getName, r + 1)], payload := .list (items.map some) }

theorem newList_eq (h : Heap) (items : List Ref) :
    h.newList items = ((h.push (listBox h.size items)).push
      (.native "List.get" (some (.item h.size))), h.size) := rfl

@[simp] theorem size_newList (h : Heap) (items : List Ref) :
    (h.newList items).1.size = h.size + 2 := by
  simp [newList_eq]

theorem keeps_newList (h : Heap) (items : List Ref) : h.Keeps (h.newList items).1 := by
  rw [newList_eq]
  exact (keeps_push h _).trans (keeps_push _ _)

theorem box_newList (h : Heap) (items : List Ref) :
    (h.newList items).1.box h.size = listBox h.size items := by
  rw [newList_eq, box_push_of_lt _ (by rw [size_push]; omega), box_push_size]

theorem box_newList_getter (h : Heap) (items : List Ref) :
    (h.newList items).1.box (h.size + 1) = .native "List.get" (some (.item h.size)) := by
  rw [newList_eq, ← size_push h (listBox h.size items), box_push_size]

theorem get?_newList (h : Heap) (items : List Ref) :
    (h.newList items).1.get? h.size getName = some (h.size + 1) := by
  rw [get?, box_newList]
  rfl

/-- A list and its getter are sound in every heap that holds them. -/
theorem sound_listBox {h' : Heap} {r : Nat} {items : List Ref} (tag : Canon.listTag < h'.size)
    (getter : r + 1 < h'.size) (all : ∀ v ∈ items, v < h'.size) : (listBox r items).Sound h' where
  vars p member := by
    simp only [listBox, List.mem_cons, List.not_mem_nil, or_false] at member
    rcases member with rfl | rfl
    · exact tag
    · exact getter
  items found isList x member := by
    cases isList
    obtain ⟨v, isItem, rfl⟩ := List.mem_map.mp member
    exact ⟨v, rfl, all v isItem⟩
  entries := nofun
  method := nofun

theorem sound_getter {h' : Heap} {x : String} {r : Nat} {items : List Ref} (inside : r < h'.size)
    (isList : h'.box r = listBox r items) : (Box.native x (some (.item r))).Sound h' where
  vars := nofun
  items := nofun
  entries := nofun
  method m isMethod := by
    cases isMethod
    exact .native (.item inside (by rw [isList]; rfl))

theorem Sound.listTag (sound : h.Sound) : Canon.listTag < h.size :=
  Nat.lt_trans (by decide) sound.prototypes

theorem made_newList (sound : h.Sound) {items : List Ref} (all : ∀ v ∈ items, v < h.size) :
    Made h (h.newList items) := by
  have keeps := keeps_newList h items
  have later := keeps.later
  have getter : h.size < (h.newList items).1.size := by
    rw [size_newList]
    omega
  refine ⟨keeps, rfl, getter, sound.grow keeps ?_⟩
  intro r old inside
  rw [size_newList] at inside
  rcases (by omega : r = h.size ∨ r = h.size + 1) with rfl | rfl
  · rw [box_newList]
    refine sound_listBox (later.inside sound.listTag) (by rw [size_newList]; omega) ?_
    exact fun v member => later.inside (all v member)
  · rw [box_newList_getter]
    exact sound_getter (by rw [size_newList]; omega) (box_newList h items)

/-- A payload that holds no boxes. -/
def Plain (payload : Payload) : Prop :=
  (∀ items, payload ≠ .list items) ∧ ∀ entries, payload ≠ .dictionary entries

/-- A box with components and a payload of its own, with the list of the
components and its getter behind it. -/
theorem made_newWith (sound : h.Sound) {component : Nat} {payload : Payload}
    (inside : component < h.size) (plain : Plain payload) :
    Made h (h.newWith [component] payload) := by
  let b : Box := { vars := [(componentsName, h.size + 1)], payload }
  have whole : h.newWith [component] payload =
      (((h.push b).newList [component]).1, h.size) := rfl
  have size : (h.newWith [component] payload).1.size = h.size + 3 := by
    rw [whole, size_newList, size_push]
  have keeps : h.Keeps (h.newWith [component] payload).1 :=
    (keeps_push h b).trans (keeps_newList _ _)
  have inside' : h.size < (h.newWith [component] payload).1.size := by omega
  refine ⟨keeps, rfl, inside', sound.grow keeps ?_⟩
  intro r old new
  rw [size] at new
  rcases (by omega : r = h.size ∨ r = h.size + 1 ∨ r = h.size + 2) with rfl | rfl | rfl
  · rw [whole, (keeps_newList _ _).same _ (by rw [size_push]; omega), box_push_size]
    refine ⟨?_, fun items isList => absurd isList (plain.1 items),
      fun entries isDictionary => absurd isDictionary (plain.2 entries), nofun⟩
    intro p member
    rw [List.mem_singleton.mp member, size_newList, size_push]
    exact Nat.lt_add_of_pos_right (by decide)
  · rw [whole, ← size_push h b, box_newList]
    refine sound_listBox ?_ (by simp) ?_
    · rw [size_newList, size_push]
      exact Nat.lt_add_right 3 sound.listTag
    · intro v member
      rw [List.mem_singleton.mp member, size_newList, size_push]
      exact Nat.lt_add_right 3 inside
  · rw [whole, show h.size + 2 = (h.push b).size + 1 by simp, box_newList_getter]
    exact sound_getter (by simp) (box_newList _ _)

theorem made_newInteger (sound : h.Sound) (n : Int64) : Made h (h.newInteger n) :=
  made_newWith sound (Nat.lt_trans (by decide) sound.prototypes) ⟨nofun, nofun⟩

/-- A list that holds a new integer only. -/
theorem made_listOfInteger (sound : h.Sound) (n : Int64) :
    Made (h.newInteger n).1 ((h.newInteger n).1.newList [(h.newInteger n).2]) := by
  have integer := made_newInteger sound n
  refine made_newList integer.sound ?_
  intro v member
  rw [List.mem_singleton.mp member]
  exact integer.inside

theorem made_newReal (sound : h.Sound) (x : Float) : Made h (h.newReal x) :=
  made_newWith sound (Nat.lt_trans (by decide) sound.prototypes) ⟨nofun, nofun⟩

theorem made_newText (sound : h.Sound) (bytes : Bytes) : Made h (h.newText bytes) :=
  made_newWith sound (Nat.lt_trans (by decide) sound.prototypes) ⟨nofun, nofun⟩

theorem made_newBool (sound : h.Sound) (b : Bool) : Made h (h.newBool b) :=
  made_newWith sound (Nat.lt_trans (by decide) sound.prototypes) ⟨nofun, nofun⟩

/-! ## The heap of a new interpreter -/

theorem sound_prototypes : prototypes.Sound := by
  have tag : prototypes.box Canon.listTag = listBox Canon.listTag [Canon.list] := rfl
  have getter : prototypes.box Canon.listTagGetter =
    .native "List.get" (some (.item Canon.listTag)) := rfl
  refine ⟨by decide, ?_⟩
  intro r
  match r with
  | 0 | 1 | 2 | 3 | 4 | 5 | 6 => exact Box.sound_empty _
  | 7 =>
    have sound : (listBox Canon.listTag [Canon.list]).Sound prototypes :=
      sound_listBox (by decide) (by decide) (by decide)
    rwa [← tag] at sound
  | 8 =>
    have sound : (Box.native "List.get" (some (.item Canon.listTag))).Sound prototypes :=
      sound_getter (by decide) tag
    rwa [← getter] at sound
  | r + 9 =>
    rw [box_of_le (Nat.le_add_left 9 r)]
    exact Box.sound_empty _

theorem sound_singletons : singletons.Sound := by
  have null : Made prototypes (prototypes.newWith [Canon.null] .none) :=
    made_newWith sound_prototypes (by decide) ⟨nofun, nofun⟩
  have yes := made_newBool null.sound true
  have no := made_newBool yes.sound false
  exact (made_newBox no.sound).sound

theorem define_sound (sound : h.Sound) {x : String} (known : (shippedRoutines.lookup x).isSome) :
    (h.define x).Sound ∧ h.Extends (h.define x) := by
  have new : Made h (h.alloc (.native x none)) := by
    refine made_alloc sound ⟨nofun, nofun, nofun, ?_⟩
    intro m isMethod
    cases isMethod
    exact .native (.shipped known)
  exact ⟨new.sound.assign _ _ new.inside, new.later.trans (extends_assign _ _ _ _)⟩

theorem define_all_sound (sound : h.Sound) {routines : List (String × Routine)}
    (known : ∀ p ∈ routines, (shippedRoutines.lookup p.1).isSome) :
    (routines.foldl (fun h p => h.define p.1) h).Sound ∧
      h.Extends (routines.foldl (fun h p => h.define p.1) h) := by
  induction routines generalizing h with
  | nil => exact ⟨sound, .refl h⟩
  | cons p routines ih =>
    obtain ⟨defined, later⟩ := define_sound sound (known p (by simp))
    obtain ⟨all, later'⟩ := ih defined fun p member => known p (by simp [member])
    exact ⟨all, later.trans later'⟩

/-- The heap of a new interpreter is sound and has the boxes that every heap
starts with. -/
theorem sound_initial : initial.Sound ∧ Canon.globals < initial.size := by
  have start := sound_singletons
  have size : singletons.size = 19 := rfl
  have first := start.assign Canon.globals "true" (by rw [size]; decide : Canon.trueValue < _)
  have second := first.assign Canon.globals "false"
    (by rw [size_assign, size]; decide : Canon.falseValue < _)
  have known : ∀ p ∈ shippedRoutines, (shippedRoutines.lookup p.1).isSome := by decide
  obtain ⟨sound, later⟩ := define_all_sound second known
  refine ⟨sound, later.inside ?_⟩
  rw [size_assign, size_assign, size]
  decide

end Heap

end BoxScript
