import BoxScript.Proofs.Heap.Inclusion
import BoxScript.Proofs.Heap.Permanence

/-!
# Null values in a changing heap

Whether a box is null depends on the components of all boxes that it includes.
New boxes change nothing about the old ones. An assignment does only if it binds
`components`, and then it makes null only boxes that include the assigned one,
and only if one of the new components is null already.

A heap is unspoiled if no variable of any box holds a null value. Making boxes
leaves it so, and so does every assignment but one: null components for a box
that a variable holds or that a held box includes.
-/

set_option autoImplicit false

namespace BoxScript

/-! ## Variables that were set or erased -/

namespace Vars

variable {x y : String} {v : Ref} {vars : Vars}

theorem lookup_set_of_ne (other : y ≠ x) : (Vars.set x v vars).lookup y = vars.lookup y := by
  induction vars with
  | nil => simp [Vars.set, List.lookup_cons, beq_false_of_ne other]
  | cons p vars ih =>
    obtain ⟨z, w⟩ := p
    rw [Vars.set]
    split
    · next same =>
      subst same
      simp [List.lookup_cons, beq_false_of_ne other]
    · simp [List.lookup_cons, ih]

theorem lookup_set_self : (Vars.set x v vars).lookup x = some v := by
  induction vars with
  | nil => simp [Vars.set]
  | cons p vars ih =>
    obtain ⟨z, w⟩ := p
    rw [Vars.set]
    split
    · next same => simp [same]
    · next other => simp [List.lookup_cons, beq_false_of_ne (Ne.symm other), ih]

theorem lookup_erase_of_ne (other : y ≠ x) : (Vars.erase x vars).lookup y = vars.lookup y := by
  induction vars with
  | nil => rfl
  | cons p vars ih =>
    obtain ⟨z, w⟩ := p
    by_cases same : z = x
    · subst same
      simpa [Vars.erase, List.lookup_cons, beq_false_of_ne other] using ih
    · have kept : Vars.erase x ((z, w) :: vars) = (z, w) :: Vars.erase x vars := by
        simp [Vars.erase, same]
      rw [kept]
      simp [List.lookup_cons, ih]

theorem lookup_erase_self : (Vars.erase x vars).lookup x = none := by
  rw [List.lookup_eq_none_iff]
  intro p member
  have other : p.1 ≠ x := bne_iff_ne.mp (List.mem_filter.mp member).2
  exact bne_iff_ne.mpr other.symm

end Vars

namespace Heap

variable {h h' : Heap}

/-! ## Components after an assignment -/

theorem items?_updateVars (h : Heap) (r : Ref) (f : Vars → Vars) (q : Ref) :
    ((h.updateVars r f).box q).items? = (h.box q).items? := by
  by_cases inside : q < h.size
  · rw [Box.items?, (h.extends_updateVars r f).payload q inside, ← Box.items?]
  · have outside : h.size ≤ q := Nat.le_of_not_lt inside
    rw [box_of_le outside, box_of_le (by simpa using outside)]

theorem items?_assign (h : Heap) (r : Ref) (x : String) (v q : Ref) :
    ((h.assign r x v).box q).items? = (h.box q).items? := by
  rw [assign]
  split <;> exact items?_updateVars h r _ q

theorem get?_updateVars (h : Heap) (r q : Ref) (f : Vars → Vars) (y : String) :
    (h.updateVars r f).get? q y = h.get? q y ∨
      (q = r ∧ (h.updateVars r f).get? q y = (f (h.box q).vars).lookup y) := by
  by_cases same : q = r
  · subst same
    by_cases inside : q < h.size
    · exact .inr ⟨rfl, by rw [get?, box_updateVars_self inside]; rfl⟩
    · have outside : h.size ≤ q := Nat.le_of_not_lt inside
      exact .inl (by rw [get?, get?, box_of_le outside, box_of_le (by simpa using outside)])
  · exact .inl (by rw [get?, get?, box_updateVars_of_ne same])

theorem get?_assign_of_ne (r v q : Ref) {x y : String} (other : y ≠ x) :
    (h.assign r x v).get? q y = h.get? q y := by
  rw [assign]
  split
  · rcases get?_updateVars h r q (Vars.erase x) y with same | ⟨-, found⟩
    · exact same
    · exact found.trans (Vars.lookup_erase_of_ne other)
  · rcases get?_updateVars h r q (Vars.set x v) y with same | ⟨-, found⟩
    · exact same
    · exact found.trans (Vars.lookup_set_of_ne other)

/-- A name that was assigned is as it was, unbound, or bound to the value. -/
theorem get?_assign_cases (h : Heap) (r q : Ref) (x : String) (v : Ref) :
    (h.assign r x v).get? q x = h.get? q x ∨ (h.assign r x v).get? q x = none ∨
      (h.assign r x v).get? q x = some v := by
  rw [assign]
  split
  · rcases get?_updateVars h r q (Vars.erase x) x with same | ⟨-, found⟩
    · exact .inl same
    · exact .inr (.inl (found.trans Vars.lookup_erase_self))
  · rcases get?_updateVars h r q (Vars.set x v) x with same | ⟨-, found⟩
    · exact .inl same
    · exact .inr (.inr (found.trans Vars.lookup_set_self))

/-- A variable after an assignment was there before, or holds the value. -/
theorem mem_vars_assign {r v q : Ref} {x : String} {p : String × Ref}
    (member : p ∈ ((h.assign r x v).box q).vars) :
    p ∈ (h.box q).vars ∨ (p.2 = v ∧ h.isNull v = false) := by
  by_cases other : q ≠ r
  · rw [box_assign_of_ne other] at member
    exact .inl member
  obtain rfl : q = r := not_not.mp other
  by_cases inside : q < h.size
  · rw [assign] at member
    split at member
    · rw [unbind, box_updateVars_self inside] at member
      exact .inl (List.mem_filter.mp member).1
    · next notNull =>
      rw [bind, box_updateVars_self inside] at member
      exact (Vars.mem_set member).imp_right fun isValue => ⟨isValue, by simpa using notNull⟩
  · rw [box_of_le (by simpa using inside)] at member
    cases member

/-- The components of a box, through the variable that holds them. -/
theorem components?_eq (h : Heap) (r : Ref) :
    h.components? r = (h.get? r componentsName).bind fun c => (h.box c).items? := by
  rw [components?]
  cases h.get? r componentsName with
  | none => rfl
  | some c => rfl

/-- A component after an assignment was one before, or is an item of the value
that was bound. -/
theorem component_assign {r v q p : Ref} {x : String} (listed : (h.assign r x v).Component q p) :
    h.Component q p ∨ (q = r ∧ x = componentsName ∧ some p ∈ (h.box v).items?.getD []) := by
  by_cases other : q ≠ r
  · have same : (h.assign r x v).get? q componentsName = h.get? q componentsName := by
      rw [get?, get?, box_assign_of_ne other]
    rw [Component, components?_eq, same] at listed
    simp only [items?_assign, ← components?_eq, size_assign] at listed
    exact .inl listed
  obtain rfl : q = r := not_not.mp other
  obtain ⟨inside, listed⟩ := listed
  rw [size_assign] at inside
  simp only [components?_eq, items?_assign] at listed
  by_cases isComponents : x = componentsName
  · subst isComponents
    rcases get?_assign_cases h q q componentsName v with same | none | bound
    · rw [same, ← components?_eq] at listed
      exact .inl ⟨inside, listed⟩
    · rw [none] at listed
      cases listed
    · rw [bound] at listed
      exact .inr ⟨rfl, rfl, listed⟩
  · rw [get?_assign_of_ne q v q (Ne.symm isComponents), ← components?_eq] at listed
    exact .inl ⟨inside, listed⟩

/-! ## Becoming null -/

/-- A box becomes null only through a new component that is null already. -/
theorem isNull_of_component
    (less : ∀ q p, h'.Component q p → h.Component q p ∨ h.isNull p = false) {r : Ref}
    (null : h'.isNull r = true) : h.isNull r = true := by
  rw [isNull_iff] at null
  induction null using Relation.ReflTransGen.head_induction_on with
  | refl => exact isNull_iff.mpr .refl
  | head listed _ ih =>
    rcases less _ _ listed with old | notNull
    · exact isNull_iff.mpr (.head old (isNull_iff.mp ih))
    · rw [notNull] at ih
      cases ih

/-- Nor through a box that it does not include. -/
theorem isNull_of_apart {r : Ref} (less : ∀ q p, q ≠ r → h'.Component q p → h.Component q p)
    {q : Ref} (apart : h'.includes q r = false) (null : h'.isNull q = true) :
    h.isNull q = true := by
  rw [isNull_iff] at null ⊢
  induction null using Relation.ReflTransGen.head_induction_on with
  | refl => exact .refl
  | head listed _ ih =>
    rw [Bool.eq_false_iff, ne_eq, includes_iff_component, not_or] at apart
    refine .head (less _ _ apart.1 listed) (ih ?_)
    rw [Bool.eq_false_iff]
    exact fun included => apart.2 ⟨_, listed, included⟩

/-- Whether a variable of any box holds a box that includes the given one. -/
def holds (h : Heap) (r : Ref) : Bool :=
  h.boxes.any fun b => b.vars.any fun p => h.includes p.2 r

theorem includes_of_holds {r q : Ref} (free : h.holds r = false) {p : String × Ref}
    (member : p ∈ (h.box q).vars) : h.includes p.2 r = false := by
  rw [Bool.eq_false_iff] at free ⊢
  intro included
  refine free (Array.any_eq_true'.mpr ⟨h.box q, ?_, List.any_eq_true.mpr ⟨p, member, included⟩⟩)
  by_cases inside : q < h.size
  · rw [box, Array.getElem?_eq_getElem inside]
    exact Array.getElem_mem inside
  · rw [box_of_le (Nat.le_of_not_lt inside)] at member
    cases member

/-- A binding that leaves no variable with a null value: if it gives a box
components that list a null value, then no variable holds a box that includes
that one. -/
def harmless (h : Heap) (r : Ref) (x : String) (v : Ref) : Bool :=
  x != componentsName ||
    ((h.box v).items?.getD []).all (fun item => item.all fun p => !h.isNull p) ||
    !(h.assign r x v).holds r

/-- A harmless binding makes no box null that a variable holds. -/
theorem isNull_of_isNull_assign {r v q : Ref} {x : String} (harmless : h.harmless r x v = true)
    {p : String × Ref} (member : p ∈ ((h.assign r x v).box q).vars)
    (null : (h.assign r x v).isNull p.2 = true) : h.isNull p.2 = true := by
  simp only [Heap.harmless, Bool.or_eq_true, bne_iff_ne, Bool.not_eq_true'] at harmless
  -- Either no component is new, or no new one is null, or no held box leads to them.
  rcases harmless with (other | plain) | free
  · refine isNull_of_component (fun q p listed => .inl ?_) null
    rcases component_assign listed with old | ⟨-, same, -⟩
    · exact old
    · exact absurd same other
  · refine isNull_of_component (fun q p listed => ?_) null
    rcases component_assign listed with old | ⟨-, -, item⟩
    · exact .inl old
    · exact .inr (by simpa using List.all_eq_true.mp plain _ item)
  · refine isNull_of_apart (r := r) (fun q p other listed => ?_) (includes_of_holds free member)
      null
    rcases component_assign listed with old | ⟨same, -⟩
    · exact old
    · exact absurd same other

theorem Keeps.get? (keeps : h.Keeps h') {r : Ref} (inside : r < h.size) (x : String) :
    h'.get? r x = h.get? r x := by
  rw [Heap.get?, Heap.get?, keeps.same r inside]

theorem components?_of_keeps (keeps : h.Keeps h') {r : Ref} (inside : r < h.size)
    (held : ∀ c, h.get? r componentsName = some c → c < h.size) :
    h'.components? r = h.components? r := by
  rw [components?_eq, components?_eq, keeps.get? inside]
  cases found : h.get? r componentsName with
  | none => rfl
  | some c => simp only [Option.bind_some, keeps.same c (held c found)]

/-- Every box that a variable holds or a list contains was made. -/
structure Closed (h : Heap) : Prop where
  vars : ∀ r, ∀ p ∈ (h.box r).vars, p.2 < h.size
  items : ∀ r items, (h.box r).payload = .list items → ∀ v, some v ∈ items → v < h.size

theorem Sound.closed (sound : h.Sound) : h.Closed where
  vars r := (sound.box r).vars
  items r items payload v member := by
    obtain ⟨w, isSome, inside⟩ := (sound.box r).items items payload _ member
    cases isSome
    exact inside

namespace Closed

variable (closed : h.Closed)

include closed

theorem get? {r v : Ref} {x : String} (found : h.get? r x = some v) : v < h.size :=
  closed.vars r _ (mem_vars_of_get? found)

theorem item {r p : Ref} (listed : some p ∈ (h.box r).items?.getD []) : p < h.size := by
  rw [Box.items?] at listed
  split at listed
  · next items payload => exact closed.items r items payload p listed
  · cases listed

theorem component {r p : Ref} (listed : some p ∈ (h.components? r).getD []) : p < h.size := by
  rw [components?_eq] at listed
  cases found : h.get? r componentsName with
  | none =>
    rw [found] at listed
    cases listed
  | some c =>
    rw [found, Option.bind_some] at listed
    exact closed.item listed

/-- What the boxes of a closed heap include is not changed by new boxes. -/
theorem includes_of_keeps (keeps : h.Keeps h') {r goal : Ref} (inside : r < h.size) :
    h'.includes r goal = h.includes r goal := by
  refine includes_congr (P := (· < h.size)) (fun r p inside => ?_) (fun r p _ listed => listed.1)
    inside
  rw [Component, Component, components?_of_keeps keeps inside fun c found => closed.get? found]
  exact ⟨fun listed => ⟨closed.component listed.2, listed.2⟩,
    fun listed => ⟨keeps.later.inside listed.1, listed.2⟩⟩

theorem isNull_of_keeps (keeps : h.Keeps h') {r : Ref} (inside : r < h.size) :
    h'.isNull r = h.isNull r :=
  closed.includes_of_keeps keeps inside

end Closed

theorem isNull_of_keeps (sound : h.Sound) (keeps : h.Keeps h') {r : Ref} (inside : r < h.size) :
    h'.isNull r = h.isNull r :=
  sound.closed.isNull_of_keeps keeps inside

/-- A box with one component includes itself and what that component includes. -/
theorem includes_single {r p goal : Ref} (only : h.components? r = some [some p])
    (inside : p < h.size) : h.includes r goal = true ↔ r = goal ∨ h.includes p goal = true := by
  rw [includes_iff_component]
  refine or_congr_right ⟨?_, fun included => ⟨p, ⟨inside, by rw [only]; simp⟩, included⟩⟩
  rintro ⟨q, ⟨-, listed⟩, included⟩
  rw [only] at listed
  have same : q = p := by simpa using listed
  rwa [← same]

theorem isNull_single {r p : Ref} (only : h.components? r = some [some p]) (inside : p < h.size)
    (other : r ≠ Canon.null) : h.isNull r = h.isNull p := by
  rw [Bool.eq_iff_iff]
  exact (includes_single only inside).trans (or_iff_right other)

theorem components?_newWith (h : Heap) (component : Ref) (payload : Payload) :
    (h.newWith [component] payload).1.components? h.size = some [some component] := by
  have held : (h.newWith [component] payload).1.get? h.size componentsName = some (h.size + 1) := by
    rw [get?, box_newWith]
    rfl
  rw [components?_eq, held, Option.bind_some, box_newWith_components]
  rfl

/-- A box without components is null only if it is the null prototype. -/
theorem isNull_of_no_components {r : Ref} (none : h.get? r componentsName = none)
    (other : r ≠ Canon.null) : h.isNull r = false := by
  rw [Bool.eq_false_iff]
  intro null
  rcases includes_iff_component.mp null with same | ⟨p, ⟨-, listed⟩, -⟩
  · exact other same
  · rw [components?_eq, none] at listed
    cases listed

/-! ## Lists -/

/-- The components shared by all lists are as they were made. -/
def Tagged (h : Heap) : Prop := h.box Canon.listTag = listBox Canon.listTag [Canon.list]

theorem Tagged.respected (tagged : h.Tagged) (respects : h.Respects h')
    (canon : Canon.globals < h.size) : h'.Tagged := by
  have inside : Canon.listTag < h.size := Nat.lt_trans (by decide) canon
  have vars := respects.vars Canon.listTag rfl
  have method := respects.method _ inside
  have payload := respects.payload _ inside
  rw [Tagged] at tagged ⊢
  rw [tagged] at vars method payload
  cases box : h'.box Canon.listTag with
  | mk vars' method' payload' =>
    rw [box] at vars method payload
    exact (Box.mk.injEq ..).mpr ⟨vars, method, payload⟩

theorem Tagged.components? (tagged : h.Tagged) {r : Ref}
    (isList : h.get? r componentsName = some Canon.listTag) :
    h.components? r = some [some Canon.list] := by
  rw [components?_eq, isList, Option.bind_some, tagged]
  rfl

/-- A list is null if the prototype of lists is. -/
theorem Tagged.isNull_list (tagged : h.Tagged) (canon : Canon.globals < h.size) {r : Ref}
    (isList : h.get? r componentsName = some Canon.listTag) (other : r ≠ Canon.null) :
    h.isNull r = h.isNull Canon.list :=
  isNull_single (tagged.components? isList) (Nat.lt_trans (by decide) canon) other

/-! ## Unspoiled heaps -/

/-- No variable holds a null value. -/
structure Unspoiled (h : Heap) : Prop where
  canon : Canon.globals < h.size
  tagged : h.Tagged
  vars : ∀ r, ∀ p ∈ (h.box r).vars, h.isNull p.2 = false

namespace Unspoiled

/-- Nor are lists null, since the components that they share are held by a
variable. -/
theorem isNull_list (unspoiled : h.Unspoiled) : h.isNull Canon.list = false := by
  have tag : h.get? Canon.listTag componentsName = some Canon.listTag := by
    rw [get?, unspoiled.tagged]
    rfl
  rw [← unspoiled.tagged.isNull_list unspoiled.canon tag (by decide)]
  refine unspoiled.vars Canon.listTag (componentsName, Canon.listTag) ?_
  rw [unspoiled.tagged]
  simp [listBox]

/-- New boxes may have the shared components of lists, new lists and new boxes
without variables as their variables. -/
theorem grow (unspoiled : h.Unspoiled) (sound : h.Sound) (keeps : h.Keeps h')
    (new : ∀ r, h.size ≤ r → r < h'.size → ∀ p ∈ (h'.box r).vars, p.2 = Canon.listTag ∨
      h.size ≤ p.2 ∧ ((h'.box p.2).vars = [] ∨
        h'.get? p.2 componentsName = some Canon.listTag)) : h'.Unspoiled := by
  have canon := keeps.later.inside unspoiled.canon
  have tagged : h'.Tagged := unspoiled.tagged.respected (keeps.respects unspoiled.canon)
    unspoiled.canon
  have insideList : Canon.list < h.size := Nat.lt_trans (by decide) unspoiled.canon
  have list : h'.isNull Canon.list = false := by
    rw [isNull_of_keeps sound keeps insideList, unspoiled.isNull_list]
  have young : ∀ {v}, h.size ≤ v → v ≠ Canon.null := by
    rintro v old rfl
    exact absurd (Nat.lt_of_lt_of_le unspoiled.canon old) (by decide)
  refine ⟨canon, tagged, fun r p member => ?_⟩
  by_cases old : r < h.size
  · rw [keeps.same r old] at member
    rw [isNull_of_keeps sound keeps ((sound.box r).vars p member)]
    exact unspoiled.vars r p member
  · by_cases inside : r < h'.size
    · rcases new r (Nat.le_of_not_lt old) inside p member with tag | ⟨fresh, bare | isList⟩
      · have isTag : h'.get? Canon.listTag componentsName = some Canon.listTag := by
          rw [get?, tagged]
          rfl
        rw [tag, tagged.isNull_list canon isTag (by decide), list]
      · refine isNull_of_no_components ?_ (young fresh)
        rw [get?, Box.get?, bare]
        rfl
      · rw [tagged.isNull_list canon isList (young fresh), list]
    · rw [box_of_le (Nat.le_of_not_lt inside)] at member
      cases member

theorem bare (unspoiled : h.Unspoiled) (sound : h.Sound) (method : Option Method) :
    (h.push { method }).Unspoiled := by
  refine unspoiled.grow sound (keeps_push h _) fun r old inside p member => ?_
  rw [size_push] at inside
  rw [(by omega : r = h.size), box_push_size] at member
  cases member

theorem newList (unspoiled : h.Unspoiled) (sound : h.Sound) (items : List Ref) :
    (h.newList items).1.Unspoiled := by
  refine unspoiled.grow sound (keeps_newList h items) fun r old inside p member => ?_
  rw [size_newList] at inside
  rcases (by omega : r = h.size ∨ r = h.size + 1) with rfl | rfl
  · rw [box_newList, listBox, List.mem_cons, List.mem_singleton] at member
    rcases member with rfl | rfl
    · exact .inl rfl
    · exact .inr ⟨Nat.le_succ _, .inl (by rw [box_newList_getter]; rfl)⟩
  · rw [box_newList_getter] at member
    cases member

theorem newWith (unspoiled : h.Unspoiled) (sound : h.Sound) (component : Ref) (payload : Payload) :
    (h.newWith [component] payload).1.Unspoiled := by
  refine unspoiled.grow sound (keeps_newWith h _ _) fun r old inside p member => ?_
  rw [size_newWith] at inside
  rcases (by omega : r = h.size ∨ r = h.size + 1 ∨ r = h.size + 2) with rfl | rfl | rfl
  · rw [box_newWith, List.mem_singleton] at member
    subst member
    exact .inr ⟨Nat.le_succ _, .inr (by rw [get?, box_newWith_components]; rfl)⟩
  · rw [box_newWith_components, listBox, List.mem_cons, List.mem_singleton] at member
    rcases member with rfl | rfl
    · exact .inl rfl
    · exact .inr ⟨Nat.le_add_right _ 2, .inl (by rw [box_newWith_getter]; rfl)⟩
  · rw [box_newWith_getter] at member
    cases member

/-- The variables after an assignment are old ones, or hold the value. -/
theorem assign (unspoiled : h.Unspoiled) {r v : Ref} {x : String}
    (free : Canon.isSealed r = false) (harmless : h.harmless r x v = true) :
    (h.assign r x v).Unspoiled := by
  refine ⟨by simpa using unspoiled.canon,
    unspoiled.tagged.respected (h.respects_assign free x v) unspoiled.canon, fun q p member => ?_⟩
  have before : h.isNull p.2 = false := by
    rcases mem_vars_assign member with old | ⟨isValue, notNull⟩
    · exact unspoiled.vars q p old
    · rwa [isValue]
  rw [Bool.eq_false_iff] at before ⊢
  exact fun null => before (isNull_of_isNull_assign harmless member null)

theorem scope (unspoiled : h.Unspoiled) (sound : h.Sound) (callee book : Ref) :
    (h.scope callee book).1.Unspoiled := by
  have free : Canon.isSealed h.size = false := by
    rw [Bool.eq_false_iff]
    intro isSealed
    exact absurd (Nat.lt_trans (lt_globals_of_isSealed isSealed) unspoiled.canon) (Nat.lt_irrefl _)
  exact (unspoiled.newWith sound callee .none).assign free rfl

theorem bindings (unspoiled : h.Unspoiled) (sound : h.Sound) (getter : Ref) (i : Nat)
    (params : List String) : (Recursive.bindings getter h i params).1.Unspoiled := by
  induction params generalizing h i with
  | nil => exact unspoiled
  | cons param params ih =>
    have integer := made_newInteger sound (Int64.ofNat i)
    have list := made_listOfInteger sound (Int64.ofNat i)
    have first := unspoiled.newWith sound Canon.integer (.integer (Int64.ofNat i))
    exact ih (first.newList integer.sound _) list.sound (i + 1)

end Unspoiled

end Heap

end BoxScript
