import BoxScript.Proofs.Calls.Binding

/-!
# Calls with lists of arguments

The argument book of a call that is written in a source is a list, and its
getter a native method that reads the list. As long as lists are not null, the
getter answers a position with the item there, and changes no box. So each
parameter is bound to its argument; since the first parameters are bound last,
the first of several with one name counts.
-/

set_option autoImplicit false

namespace BoxScript

open Recursive

/-! ## Lists as books -/

theorem Heap.isNull_of_components_eq {h : Heap} {r q : Ref} (same : h.components? r = h.components? q)
    (first : r ≠ Canon.null) (second : q ≠ Canon.null) : h.isNull r = h.isNull q := by
  rw [Bool.eq_iff_iff, isNull, isNull, includes_iff_component, includes_iff_component]
  simp only [first, second, Component, same, false_or]

theorem Heap.components?_list {h : Heap} {r : Nat} {items : List Ref}
    (isList : h.box r = listBox r items) : h.components? r = (h.box Canon.listTag).items? := by
  have tag : h.get? r componentsName = some Canon.listTag := by
    rw [get?, isList]
    rfl
  rw [components?_eq, tag, Option.bind_some]

/-- A list with its getter, as they were made. -/
structure Heap.Listed (h : Heap) (book : Nat) (items : List Ref) : Prop where
  list : h.box book = listBox book items
  getter : h.box (book + 1) = .native "List.get" (some (.item book))
  inside : book + 1 < h.size

namespace Heap.Listed

variable {h h' : Heap} {book : Nat} {items : List Ref}

theorem keep (listed : h.Listed book items) (keeps : h.Keeps h') : h'.Listed book items where
  list := by rw [keeps.same book (Nat.lt_of_succ_lt listed.inside), listed.list]
  getter := by rw [keeps.same _ listed.inside, listed.getter]
  inside := Nat.lt_of_lt_of_le listed.inside keeps.size

theorem get? (listed : h.Listed book items) : h.get? book getName = some (book + 1) := by
  rw [Heap.get?, listed.list]
  rfl

theorem payload (listed : h.Listed book items) : (h.box book).payload = .list (items.map some) := by
  rw [listed.list]
  rfl

end Heap.Listed

section Lists

variable {σ : Type} {host : Host σ}

theorem length_of_each {eval : Expr → Store σ → Trial σ Ref} {es : List Expr} {s s' : Store σ}
    {vs : List Ref} (found : each eval es s = some (.ok (vs, s'))) : vs.length = es.length := by
  induction es generalizing s vs with
  | nil =>
    cases found
    rfl
  | cons e es ih =>
    rw [each, Trial.andThen.eq_def] at found
    split at found
    · cases found
    · cases found
    · rw [Trial.andThen.eq_def] at found
      split at found
      · cases found
      · cases found
      · next rest =>
        cases found
        rw [List.length_cons, List.length_cons, ih rest]

/-- The value of a list expression. -/
theorem listed_of_ends {target : Ref} {es : List Expr} {book : Nat} {s s' : Store σ}
    (ends : Ends host target (.list es) s (.ok (book, s'))) :
    ∃ items, items.length = es.length ∧ s'.heap.Listed book items := by
  obtain ⟨n, found⟩ := ends
  cases n with
  | zero => cases found
  | succ n =>
    rw [eval, Trial.andThen.eq_def] at found
    split at found
    · cases found
    · cases found
    · next vs s₁ values =>
      cases found
      refine ⟨vs, length_of_each values, Heap.box_newList _ _, Heap.box_newList_getter _ _, ?_⟩
      change s₁.heap.size + 1 < (s₁.heap.newList vs).1.size
      rw [Heap.size_newList]
      exact Nat.lt_succ_self _

/-! ## What the getter answers -/

theorem item_of_position {h : Heap} {book k v : Ref} {items : List Ref} {i : Nat}
    (isList : (h.box book).payload = .list (items.map some))
    (isPosition : (h.box k).payload = .integer (Int64.ofNat i)) (few : i < Nat.pow 2 63)
    (found : items[i]? = some v) : Native.item h book [some k] = .ok (.box v) := by
  have position : Native.integerAt h "List.get" 0 (some k) = .ok (Int64.ofNat i) := by
    simp [Native.integerAt, Native.payload, isPosition, bind, Except.bind, pure, Except.pure]
  simp [Native.item, Native.one, position, isList, bind, Except.bind, pure, Except.pure,
    Int64.zero_le_ofNat_of_lt few, Int64.toNatClampNeg_ofNat_of_lt few, found, Native.Answer.passed]

/-- The getter of a list answers a position with the item there. It reads the
position from its scope, where a null book would be missing. -/
theorem ends_getter {h : Heap} {world : σ} {target book l first : Nat} {v : Ref} {items : List Ref}
    {i : Nat} (listed : h.Listed book items) (holds : h.HoldsPosition first l i)
    (lists : (h.newWith [book + 1] .none).1.isNull l = false) (few : i < Nat.pow 2 63)
    (found : items[i]? = some v) :
    Ends host target (.call (.held (book + 1)) (.held l)) ⟨h, world⟩
      (.ok (v, ⟨(h.scope (book + 1) l).1, world⟩)) := by
  obtain ⟨k, -, inside, isList, isPosition⟩ := holds.held
  have keeps := h.keeps_scope (book + 1) l
  have arguments : (h.scope (book + 1) l).1.arguments h.size = [some k] := by
    rw [Heap.arguments, Heap.get?_scope_arguments, lists]
    simp only [Bool.false_eq_true, if_false, keeps.same l holds.made, isList]
    rfl
  have answers : Native.item (h.scope (book + 1) l).1 book [some k] = .ok (.box v) := by
    refine item_of_position (listed.keep keeps).payload ?_ few found
    rw [keeps.same k inside, isPosition]
  have invoked : invoke (eval host 1) (.call (.held (book + 1)) (.held l)) (book + 1) l ⟨h, world⟩ =
      eval host 1 h.size (.native "List.get" (some (.item book))) ⟨(h.scope (book + 1) l).1, world⟩ := by
    rw [invoke, method?_native listed.getter]
    rfl
  refine ⟨2, invoked.trans ?_⟩
  simp only [eval, runNative, Option.some_or, arguments, Routine.run, Routine.answer, answers,
    Native.Answer.realize]
  rfl

end Lists

/-! ## Binding the parameters -/

theorem Served.append {σ : Type} {host : Host σ} {scope getter : Ref} {s s' s'' : Store σ}
    {front back : List (String × Ref)} {vs us : List Ref}
    (first : Served host scope getter front s vs s')
    (second : Served host scope getter back s' us s'') :
    Served host scope getter (front ++ back) s (vs ++ us) s'' := by
  induction first with
  | none s => exact second
  | next answers _ ih => exact .next answers (ih second)

section Binding

variable {σ : Type} {host : Host σ} {base : Heap} {book scope : Nat} {items : List Ref}
  (closed : base.Closed) (listed : base.Listed book items) (lists : base.isNull book = false)

include closed listed lists

/-- The list that holds a position is no more null than the book is. -/
theorem isNull_position {h : Heap} {l i : Nat} (keeps : base.Keeps h)
    (holds : h.HoldsPosition scope l i) : h.isNull l = false := by
  obtain ⟨k, -, -, isList, -⟩ := holds.held
  have young : l ≠ Canon.null :=
    Nat.ne_of_gt (Nat.lt_of_le_of_lt (Nat.zero_le scope) holds.younger)
  have other : book ≠ Canon.null := by
    rintro rfl
    rw [Heap.isNull, Heap.includes_iff_component.mpr (.inl rfl)] at lists
    cases lists
  -- All lists share their components, so one of them is null only if all are.
  have same : h.components? l = h.components? book := by
    rw [Heap.components?_list isList, Heap.components?_list (listed.keep keeps).list]
  rw [Heap.isNull_of_components_eq same young other, closed.isNull_of_keeps keeps
    (Nat.lt_of_succ_lt listed.inside), lists]

variable (few : items.length ≤ Nat.pow 2 63)

include few

/-- One parameter is bound to its argument, or to nothing if that is null. Only
the scope changes. -/
theorem served_item {h : Heap} {l i : Nat} {v : Ref} (param : String) (world : σ)
    (keeps : base.Keeps h) (inside : scope < h.size) (holds : h.HoldsPosition scope l i)
    (found : items[i]? = some v) :
    ∃ h', Served host scope (book + 1) [(param, l)] ⟨h, world⟩ [v] ⟨h', world⟩ ∧
      h.KeepsBut h' scope ∧ ∀ x, h'.get? scope x =
        if x = param then (if base.isNull v then none else some v) else h.get? scope x := by
  have opened := h.keeps_scope (book + 1) l
  have made := h.keeps_newWith (book + 1) .none
  have notNull : (h.newWith [book + 1] .none).1.isNull l = false :=
    isNull_position closed listed lists (keeps.trans made) (holds.keep (made.but scope))
  have position : i < items.length := (List.getElem?_eq_some_iff.mp found).1
  have old : v < base.size := by
    refine closed.items book _ listed.payload v ?_
    exact List.mem_map_of_mem (List.mem_of_getElem? found)
  refine ⟨(h.scope (book + 1) l).1.assign scope param v, .next (ends_getter (listed.keep keeps) holds
    notNull (Nat.lt_of_lt_of_le position few) found) (.none _),
    (opened.but scope).trans (Heap.keepsBut_assign _ _ _ _), fun x => ?_⟩
  by_cases same : x = param
  · subst same
    rw [if_pos rfl, Heap.get?_assign_self (Nat.lt_of_lt_of_le inside opened.size),
      closed.isNull_of_keeps (keeps.trans opened) old]
  · rw [if_neg same, Heap.get?_assign_of_ne _ _ _ same, opened.get? inside]

/-- All parameters are bound to their arguments. The induction is on the
parameters, and the first of them is the last to be bound. -/
theorem served_items (params : List String) (world : σ) {h : Heap} (keeps : base.Keeps h)
    (outside : base.size ≤ scope) (inside : scope < h.size) (i : Nat) (books vs : List Ref)
    (length : books.length = params.length) (length' : vs.length = params.length)
    (positions : ∀ j l, books[j]? = some l → h.HoldsPosition scope l (i + j))
    (values : ∀ j v, vs[j]? = some v → items[i + j]? = some v) :
    ∃ us h', Served host scope (book + 1) (params.zip books).reverse ⟨h, world⟩ us ⟨h', world⟩ ∧
      h.KeepsBut h' scope ∧ ∀ x, h'.get? scope x =
        match (params.zip vs).lookup x with
        | some v => if base.isNull v then none else some v
        | none => h.get? scope x := by
  induction params generalizing i books vs with
  | nil => exact ⟨[], h, .none _, ⟨Nat.le_refl _, fun _ _ _ => rfl⟩, fun x => rfl⟩
  | cons param params ih =>
    obtain ⟨l, books, rfl⟩ := List.exists_cons_of_length_eq_add_one length
    obtain ⟨v, vs, rfl⟩ := List.exists_cons_of_length_eq_add_one length'
    have next (j : Nat) : i + 1 + j = i + (j + 1) := by omega
    obtain ⟨us, h₁, served, kept, bound⟩ := ih (i + 1) books vs (Nat.succ.inj length)
      (Nat.succ.inj length') (fun j l found => next j ▸ positions (j + 1) l found)
      (fun j v found => next j ▸ values (j + 1) v found)
    -- The first parameter comes last, and its binding wins over those of its namesakes.
    obtain ⟨h₂, last, kept', bound'⟩ := served_item closed listed lists few param world
      (keeps.trans_but kept outside) (Nat.lt_of_lt_of_le inside kept.size)
      ((positions 0 l rfl).keep kept) (values 0 v rfl)
    refine ⟨us ++ [v], h₂, ?_, kept.trans kept', fun x => ?_⟩
    · rw [List.zip_cons_cons, List.reverse_cons]
      exact served.append last
    · rw [bound', bound, List.zip_cons_cons, List.lookup_cons]
      by_cases same : x = param
      · simp [same]
      · simp [same, beq_false_of_ne same]

end Binding

/-! ## Calls -/

theorem checkArguments_of_length {h : Heap} {method : Method} {book : Ref}
    {items : List (Option Ref)} {cause : Cause} (plain : method.variadic = false)
    (isList : (h.box book).items? = some items)
    (wrong : checkLength method.params items.length = .error cause) :
    checkArguments h (some method) book = .error cause := by
  simp only [checkArguments, plain, isList, wrong, Bool.false_eq_true, if_false]

theorem checkLength_of_lt {params : List String} {given : Nat} (more : params.length < given) :
    checkLength params given = .error (.tooManyArguments params.length given) := by
  rw [checkLength, if_pos more]

theorem checkLength_of_gt {params : List String} {given : Nat} (less : given < params.length) :
    checkLength params given = .error (.missingArgument params[given]) := by
  rw [checkLength, if_neg (Nat.not_lt.mpr (Nat.le_of_lt less)), List.getElem?_eq_getElem less]

namespace Heap.Listed

variable {h : Heap} {book : Nat} {items : List Ref} {method : Method} (callee : Ref)
  (plain : method.variadic = false) (listed : h.Listed book items)

include plain listed

theorem check_of_length {cause : Cause}
    (wrong : checkLength method.params items.length = .error cause) :
    checkArguments (h.scope callee book).1 (some method) book = .error cause := by
  have isList : ((h.scope callee book).1.box book).items? = some (items.map some) := by
    rw [Box.items?, (listed.keep (h.keeps_scope callee book)).payload]
  exact checkArguments_of_length plain isList (by rwa [List.length_map])

theorem check (count : items.length = method.params.length) :
    checkArguments (h.scope callee book).1 (some method) book = .ok () := by
  have kept := listed.keep (h.keeps_scope callee book)
  refine checkArguments_of_count plain kept.get? fun items' isList => ?_
  rw [Box.items?, kept.payload] at isList
  cases isList
  rw [List.length_map, count]

end Heap.Listed

section Calls

variable {σ : Type} {host : Host σ} {m : Machine σ} {target callee : Ref} {book : Nat}
  {t argument : Expr} {s : Store σ} {items : List Ref} {method : Method}

/-- The scope that the body of a call sees: the parameters are bound to their
arguments, the first of several with one name, and those with null arguments are
unbound. Other names are as on any scope. -/
structure ArgumentScope (before : Heap) (callee book : Ref) (params : List String)
    (items : List Ref) (scope : Ref) (h : Heap) : Prop where
  fresh : before.size ≤ scope
  made : scope < h.size
  keeps : before.Keeps h
  vars : ∃ components, (h.box components).payload = .list [some callee] ∧
    ∀ x, h.get? scope x = match (params.zip items).lookup x with
      | some v => if before.isNull v then none else some v
      | none => before.scopeVar components book x

theorem runsBody_of_list (evaluated : Machine.Evaluated host m target t argument callee book s)
    (closed : s.heap.Closed) (canon : Canon.globals < s.heap.size)
    (listed : s.heap.Listed book items) (lists : s.heap.isNull book = false)
    (few : items.length ≤ Nat.pow 2 63) (resolves : s.heap.method? callee = some method)
    (plain : method.variadic = false) (count : items.length = method.params.length) :
    ∃ h, ArgumentScope s.heap callee book method.params items s.heap.size h ∧
      m.RunsBody host target t argument (some method) s.heap.size ⟨h, s.world⟩ := by
  have free : Canon.isSealed s.heap.size = false := Heap.isSealed_of_le (Nat.le_of_lt canon)
  have opened := s.heap.keeps_scope callee book
  obtain ⟨h, books, later, length, positions, enters⟩ :=
    Machine.step_calling_bind resolves (listed.check callee plain count) listed.get?
  have inside : s.heap.size < (s.heap.scope callee book).1.size := by
    rw [s.heap.size_scope]
    exact Nat.lt_add_of_pos_right (by decide)
  obtain ⟨us, h', served, kept, bound⟩ := served_items closed listed lists few method.params
    s.world (opened.trans later) (Nat.le_refl _) (Nat.lt_of_lt_of_le inside later.size) 0 books items
    length count (fun j l found => by simpa using positions j l found) (by simp)
  have components : (h'.box (s.heap.size + 1)).payload = .list [some callee] := by
    have second : s.heap.size + 1 < (s.heap.scope callee book).1.size := by
      rw [s.heap.size_scope]
      exact Nat.add_lt_add_left (by decide) _
    rw [kept.same _ (Nat.lt_of_lt_of_le second later.size) (Nat.succ_ne_self _),
      later.same _ second, Heap.box_scope_components]
    rfl
  have made := Nat.lt_of_lt_of_le inside (Nat.le_trans later.size kept.size)
  refine ⟨h', ⟨Nat.le_refl _, made, (opened.trans later).trans_but kept (Nat.le_refl _),
    s.heap.size + 1, components, fun x => ?_⟩,
    Machine.runsBody_of_served evaluated free enters served⟩
  rw [bound, later.get? inside, Heap.get?_scope closed (Nat.lt_of_succ_lt listed.inside)]

end Calls

section Sources

variable {σ : Type} {host : Host σ} {m : Machine σ} {target callee : Ref} {book : Nat} {f : Expr}
  {es : List Expr} {s : Store σ}

/-- A call with a list of arguments. If there are more arguments than parameters,
or fewer, the dispatch that would enter the call fails and no box has changed.
If there are as many, the body starts on a new scope with the parameters bound
to the arguments, and the call comes to what the body comes to. Without a method
or without a body, the call comes to null. -/
theorem call_of_list (evaluated : Machine.Evaluated host m target f (.list es) callee book s)
    (closed : s.heap.Closed) (canon : Canon.globals < s.heap.size)
    (lists : s.heap.isNull book = false) :
    ∃ items, items.length = es.length ∧ (s.heap.box book).payload = .list (items.map some) ∧
      (∀ method, s.heap.method? callee = some method → method.variadic = false →
        (method.params.length < es.length → m.Refused host target f (.list es) callee book s
          (.tooManyArguments method.params.length es.length)) ∧
        (∀ less : es.length < method.params.length, m.Refused host target f (.list es) callee book s
          (.missingArgument method.params[es.length])) ∧
        (es.length = method.params.length → es.length ≤ Nat.pow 2 63 →
          ∃ h, ArgumentScope s.heap callee book method.params items s.heap.size h ∧
            m.RunsBody host target f (.list es) (some method) s.heap.size ⟨h, s.world⟩)) ∧
      (s.heap.method? callee = none → ∃ h, s.heap.Keeps h ∧
        Ends host target (.call f (.list es)) ⟨m.heap, m.world⟩
          (.ok (Canon.nullValue, ⟨h, s.world⟩))) := by
  obtain ⟨s', callees, books⟩ := evaluated
  obtain ⟨items, length, listed⟩ := listed_of_ends books
  have evaluated : Machine.Evaluated host m target f (.list es) callee book s := ⟨s', callees, books⟩
  refine ⟨items, length, listed.payload, fun method resolves plain => ⟨?_, ?_, ?_⟩, fun none => ?_⟩
  · intro more
    refine Machine.refused evaluated ?_
    rw [resolves]
    exact listed.check_of_length callee plain (by rw [length, checkLength_of_lt more])
  · intro less
    refine Machine.refused evaluated ?_
    rw [resolves]
    exact listed.check_of_length callee plain (by rw [length, checkLength_of_gt less])
  · intro count few
    exact runsBody_of_list evaluated closed canon listed lists (length ▸ few) resolves plain
      (length.trans count)
  · have free : Canon.isSealed s.heap.size = false := Heap.isSealed_of_le (Nat.le_of_lt canon)
    have runs := Machine.runsBody_of_served evaluated free
      (Machine.step_calling_bare none rfl rfl (book + 1)) (.none _)
    exact ⟨_, s.heap.keeps_scope callee book, runs⟩

/-- The call of a method with two parameters, the second of which gets a null. -/
theorem call_of_list_null :
    let method : Method := ⟨["x", "y"], some (.integer 1), false⟩
    let h : Heap := (((Heap.initial.newMethod method).1.newInteger 2).1.newList [32, 9]).1
    ∃ h', h'.get? 37 "x" = some 32 ∧ h'.get? 37 "y" = none ∧ h.Keeps h' ∧
      (idle ⟨Heap.initial, ()⟩).RunsBody Host.plain Canon.globals
        (.method ["x", "y"] (some (.integer 1))) (.list [.integer 2, .name "null"]) (some method) 37
        ⟨h', ()⟩ := by
  intro method h
  have size : Heap.initial.size = 31 ∧ h.size = 37 := by decide +kernel
  have body : ∀ e ∈ [Expr.integer 1], Source.Parsed e := by simp [Source.Parsed.integer]
  have first := Heap.made_newMethod Heap.sound_initial.1 (m := method) (.parsed rfl body)
  have second := Heap.made_newInteger first.sound 2
  have third : Heap.Made _ (((Heap.initial.newMethod method).1.newInteger 2).1.newList [32, 9]) :=
    Heap.made_newList second.sound (by decide +kernel)
  have resolves : h.method? 31 = some method := by
    have made : h.box 31 = { method } := by
      rw [(second.keeps.trans third.keeps).same 31 (by decide +kernel), ← size.1]
      exact Heap.initial.box_push_size _
    rw [Heap.method?, Heap.methodFrom, Heap.get?, made]
    rfl
  have evaluated : Machine.Evaluated Host.plain (idle ⟨Heap.initial, ()⟩) Canon.globals
      (.method ["x", "y"] (some (.integer 1))) (.list [.integer 2, .name "null"]) 31 35 ⟨h, ()⟩ :=
    ⟨⟨(Heap.initial.newMethod method).1, ()⟩, ⟨1, rfl⟩, ⟨2, rfl⟩⟩
  obtain ⟨items, -, payload, calls, -⟩ := call_of_list evaluated third.sound.closed
    (by rw [size.2]; decide) (by decide +kernel)
  obtain ⟨h', scope, runs⟩ := (calls method resolves rfl).2.2 rfl (by decide)
  have same : items = [32, 9] := by
    have known : h.box 35 = Heap.listBox 35 [32, 9] := Heap.box_newList _ _
    rw [known] at payload
    exact ((List.map_inj_right fun _ _ => Option.some.inj).mp (Payload.list.inj payload)).symm
  obtain ⟨components, -, vars⟩ := scope.vars
  subst same
  rw [size.2] at runs vars
  have null : h.isNull 32 = false ∧ h.isNull 9 = true := by decide +kernel
  refine ⟨h', (vars "x").trans ?_, (vars "y").trans ?_, scope.keeps, runs⟩
  · simp [method, null]
  · simp [method, List.lookup_cons, null]

end Sources

end BoxScript
