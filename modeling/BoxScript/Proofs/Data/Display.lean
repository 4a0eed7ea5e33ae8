import BoxScript.Proofs.Heap.Nulls
import BoxScript.Proofs.Machine.Succession
import BoxScript.Proofs.Source.Rendering

/-!
# Data displayed and read again

Null, the truth values, integers, texts that need no escape and lists of data are
displayed as they are written in a source. So the text of a datum, unless it lies
too deep to be shown, can be parsed and evaluated, and comes to a datum of the
same shape. `Datum` is that shape, `Heap.Holds` says that a box has it, and
`Built` that the boxes were made by the factories of the interpreter.
-/

set_option autoImplicit false

namespace BoxScript

open Recursive

/-! ## Data -/

/-- The shape of a value without methods or variables of its own. -/
inductive Datum where
  | null
  | bool (value : Bool)
  | integer (value : Int64)
  | text (bytes : Bytes)
  | list (items : List Datum)

namespace Datum

/-- A datum stands at some depth in another. -/
inductive Node (node : Datum) : Nat → Datum → Prop where
  | root : Node node 0 node
  | item {k : Nat} {d : Datum} {items : List Datum} (member : d ∈ items) (inner : Node node k d) :
      Node node (k + 1) (.list items)

/-- The expression that a datum is written as. -/
def expr : Datum → Expr
  | .null => .name "null"
  | .bool value => .name (if value then "true" else "false")
  | .integer value => .integer value
  | .text bytes => .text bytes
  | .list items => .list (items.map expr)

end Datum

namespace Heap

/-- A box has the shape of a datum. -/
inductive Holds (h : Heap) : Datum → Ref → Prop where
  | null {r : Ref} (isNull : h.isNull r = true) : Holds h .null r
  | bool {r : Ref} {value : Bool} (notNull : h.isNull r = false)
      (payload : (h.box r).payload = .bool value) : Holds h (.bool value) r
  | integer {r : Ref} {value : Int64} (notNull : h.isNull r = false)
      (payload : (h.box r).payload = .integer value) : Holds h (.integer value) r
  | text {r : Ref} {bytes : Bytes} (notNull : h.isNull r = false)
      (payload : (h.box r).payload = .text bytes) : Holds h (.text bytes) r
  | list {r : Ref} {items : List (Ref × Datum)} (notNull : h.isNull r = false)
      (payload : (h.box r).payload = .list ((items.map Prod.fst).map some))
      (all : ∀ p ∈ items, Holds h p.2 p.1) : Holds h (.list (items.map Prod.snd)) r

/-- Two boxes are the same data: both are null, or equal primitive values, or lists
whose items are the same data, one by one. -/
inductive SameData (h : Heap) : Ref → Ref → Prop where
  | null {r v : Ref} (first : h.isNull r = true) (second : h.isNull v = true) : SameData h r v
  | leaf {r v : Ref} (first : h.isNull r = false) (second : h.isNull v = false)
      (primitive : (h.box r).payload.isPrimitive = true) (equal : h.equal r v = true) : SameData h r v
  | list {r v : Ref} {items : List (Ref × Ref)} (first : h.isNull r = false)
      (second : h.isNull v = false)
      (payload : (h.box r).payload = .list ((items.map Prod.fst).map some))
      (payload' : (h.box v).payload = .list ((items.map Prod.snd).map some))
      (all : ∀ p ∈ items, SameData h p.1 p.2) : SameData h r v

variable {h h' : Heap} {d : Datum} {r v : Ref}

theorem Holds.keep (closed : h.Closed) (keeps : h.Keeps h') (holds : h.Holds d r)
    (inside : r < h.size) : h'.Holds d r := by
  have null {q : Ref} (inside : q < h.size) : h'.isNull q = h.isNull q :=
    closed.isNull_of_keeps keeps inside
  have same := keeps.later.payload
  induction holds with
  | null isNull => exact .null ((null inside).trans isNull)
  | bool notNull payload => exact .bool ((null inside).trans notNull) ((same _ inside).trans payload)
  | integer notNull payload =>
    exact .integer ((null inside).trans notNull) ((same _ inside).trans payload)
  | text notNull payload => exact .text ((null inside).trans notNull) ((same _ inside).trans payload)
  | list notNull payload _ ih =>
    refine .list ((null inside).trans notNull) ((same _ inside).trans payload) fun p member =>
      ih p member ?_
    exact closed.items _ _ payload p.1 (List.mem_map_of_mem (List.mem_map_of_mem member))

/-- Lists of boxes with the same shapes can be paired. -/
theorem exists_pairs {items items' : List (Ref × Datum)}
    (same : items.map Prod.snd = items'.map Prod.snd)
    (alike : ∀ p ∈ items, ∀ v, h.Holds p.2 v → h.SameData p.1 v) (all : ∀ q ∈ items', h.Holds q.2 q.1) :
    ∃ pairs : List (Ref × Ref), pairs.map Prod.fst = items.map Prod.fst ∧
      pairs.map Prod.snd = items'.map Prod.fst ∧ ∀ p ∈ pairs, h.SameData p.1 p.2 := by
  induction items generalizing items' with
  | nil =>
    obtain rfl : items' = [] := List.map_eq_nil_iff.mp same.symm
    exact ⟨[], rfl, rfl, nofun⟩
  | cons p items ih =>
    match items' with
    | [] => cases same
    | q :: items' =>
      obtain ⟨shape, rest⟩ := List.cons.inj same
      obtain ⟨pairs, first, second, alike'⟩ := ih rest
        (fun p member => alike p (List.mem_cons_of_mem _ member))
        (fun q member => all q (List.mem_cons_of_mem _ member))
      refine ⟨(p.1, q.1) :: pairs, by simp [first], by simp [second], ?_⟩
      intro pair member
      rcases List.mem_cons.mp member with rfl | member
      · exact alike p (by simp) q.1 (shape ▸ all q (by simp))
      · exact alike' pair member

theorem sameData_of_payload {payload : Payload} (first : h.isNull r = false)
    (second : h.isNull v = false) (left : (h.box r).payload = payload)
    (right : (h.box v).payload = payload) (primitive : payload.isPrimitive = true)
    (equal : equalPayloads payload payload = true) : h.SameData r v := by
  refine .leaf first second (by rw [left, primitive]) ?_
  rw [Heap.equal, left, right, equal, Bool.or_true]

/-- Boxes with one shape are the same data. -/
theorem Holds.sameData (holds : h.Holds d r) (holds' : h.Holds d v) : h.SameData r v := by
  induction holds generalizing v with
  | null isNull =>
    cases holds' with
    | null isNull' => exact .null isNull isNull'
  | bool notNull payload =>
    cases holds' with
    | bool notNull' payload' =>
      exact sameData_of_payload notNull notNull' payload payload' rfl (beq_self_eq_true _)
  | integer notNull payload =>
    cases holds' with
    | integer notNull' payload' =>
      exact sameData_of_payload notNull notNull' payload payload' rfl (beq_self_eq_true _)
  | text notNull payload =>
    cases holds' with
    | text notNull' payload' =>
      exact sameData_of_payload notNull notNull' payload payload' rfl (beq_self_eq_true _)
  | @list _ items notNull payload _ ih =>
    generalize shape : items.map Prod.snd = ds at holds'
    cases holds' with
    | list notNull' payload' all' =>
      obtain ⟨pairs, first, second, alike⟩ := exists_pairs shape (fun p member v => ih p member) all'
      exact .list notNull notNull' (payload.trans (by rw [first])) (payload'.trans (by rw [second]))
        alike

end Heap

/-! ## What is displayed -/

theorem Expr.renderItems_eq (es : List Expr) : renderItems es = es.map render := by
  induction es with
  | nil => rfl
  | cons e es ih => rw [renderItems, ih, List.map_cons]

/-- A datum without a node that lies too deep is shown as it is written. -/
theorem Heap.Holds.showTo {h : Heap} {d : Datum} {r : Ref} (holds : h.Holds d r) {n : Nat}
    (shallow : ∀ k node, Datum.Node node k d → node ≠ .null → k < n) :
    h.showTo n (some r) = d.expr.render := by
  induction holds generalizing n with
  | null isNull =>
    rw [Datum.expr, Expr.render]
    cases n with
    | zero =>
      rw [Heap.showTo, isNull]
      rfl
    | succ n =>
      rw [Heap.showTo, isNull]
      rfl
  | bool notNull payload =>
    obtain ⟨n, rfl⟩ := Nat.exists_eq_add_one.mpr (shallow 0 _ .root (by simp))
    rw [Heap.showTo, notNull, payload, Datum.expr, Expr.render]
    rfl
  | integer notNull payload =>
    obtain ⟨n, rfl⟩ := Nat.exists_eq_add_one.mpr (shallow 0 _ .root (by simp))
    rw [Heap.showTo, notNull, payload, Datum.expr, Expr.render]
    rfl
  | text notNull payload =>
    obtain ⟨n, rfl⟩ := Nat.exists_eq_add_one.mpr (shallow 0 _ .root (by simp))
    rw [Heap.showTo, notNull, payload, Datum.expr, Expr.render]
    rfl
  | @list _ items notNull payload _ ih =>
    obtain ⟨n, rfl⟩ := Nat.exists_eq_add_one.mpr (shallow 0 _ .root (by simp))
    -- The items are one level deeper, with one level less to show.
    have each : ∀ p ∈ items, h.showTo n (some p.1) = p.2.expr.render := by
      intro p member
      refine ih p member fun k node inner present => Nat.lt_of_succ_lt_succ ?_
      exact shallow (k + 1) node (.item (List.mem_map_of_mem member) inner) present
    have texts : ((items.map Prod.fst).map some).map (h.showTo n) =
        ((items.map Prod.snd).map Datum.expr).map Expr.render := by
      simp only [List.map_map]
      exact List.map_congr_left each
    rw [Heap.showTo, notNull, payload, Datum.expr, Expr.render, Expr.renderItems_eq, ← texts]
    rfl

/-! ## What is parsed -/

/-- The names that data are written by. -/
theorem isIdentifier_constant {x : String} (constant : x ∈ ["null", "true", "false"]) :
    Source.IsIdentifier x := by
  simp only [List.mem_cons, List.not_mem_nil, or_false] at constant
  rcases constant with rfl | rfl | rfl
  · exact ⟨[0x6E, 0x75, 0x6C, 0x6C], ⟨rfl, List.all_eq_true.mp rfl⟩, rfl⟩
  · exact ⟨[0x74, 0x72, 0x75, 0x65], ⟨rfl, List.all_eq_true.mp rfl⟩, rfl⟩
  · exact ⟨[0x66, 0x61, 0x6C, 0x73, 0x65], ⟨rfl, List.all_eq_true.mp rfl⟩, rfl⟩

/-- A datum is written as it is read, if its texts need no escape. -/
theorem Datum.rewritten {d : Datum}
    (plain : ∀ k bytes, Node (.text bytes) k d → Quoted.Plain bytes) : Source.Rewritten d.expr := by
  match d with
  | .null =>
    rw [expr]
    exact (Source.rewritten_name (isIdentifier_constant (by simp))).rewritten
  | .bool value =>
    rw [expr]
    exact (Source.rewritten_name (isIdentifier_constant (by cases value <;> simp))).rewritten
  | .integer value =>
    obtain ⟨proper, back⟩ := Source.integer_numeral value
    rw [expr]
    refine (Source.rewritten_number rfl ?_ ?_).rewritten
    · rwa [Expr.render]
    · rwa [Expr.render]
  | .text bytes =>
    rw [expr]
    exact (Source.rewritten_text (plain 0 bytes .root)).rewritten
  | .list items =>
    rw [expr]
    refine (Source.rewritten_list fun e member => ?_).rewritten
    obtain ⟨d, isItem, rfl⟩ := List.mem_map.mp member
    exact d.rewritten fun k bytes inner => plain (k + 1) bytes (.item isItem inner)

/-- An expression that is written as it is read is read from its text. -/
theorem Source.Rewritten.parseProgram {e : Expr} (rewritten : Rewritten e) :
    parseProgram (Utf8.encode e.render) = .ok (some e) := by
  have all : ∀ f ∈ [e], Rewritten f := by
    intro f member
    rwa [List.mem_singleton.mp member]
  obtain ⟨t, meaning, writes⟩ := sequence_rewritten all rfl
  have reads := writes [] .nil
  rw [Writes, List.append_nil] at reads
  rw [Source.parseProgram, parse_of_derives ⟨t, spells_iff_reads.mpr reads, meaning⟩]
  rfl

/-! ## Heaps that were only added to -/

namespace Heap

theorem lt_size_initial {r : Ref} (canonical : r ≤ Canon.globals) : r < initial.size :=
  Nat.lt_of_le_of_lt canonical sound_initial.2

theorem isNull_prototype : ∀ r ∈ [Canon.boolean, Canon.integer, Canon.text, Canon.list],
    initial.isNull r = false := by
  decide +kernel

/-- No box of a new interpreter has changed. -/
structure Pristine (h : Heap) : Prop where
  keeps : initial.Keeps h
  sound : h.Sound

namespace Pristine

variable {h : Heap} (pristine : h.Pristine)

include pristine

theorem canon : Canon.globals < h.size := pristine.keeps.later.inside sound_initial.2

theorem young : h.size ≠ Canon.null :=
  Nat.ne_of_gt (Nat.lt_of_le_of_lt (Nat.zero_le _) pristine.canon)

theorem made {new : Heap × Ref} (made : Made h new) : new.1.Pristine :=
  ⟨pristine.keeps.trans made.keeps, made.sound⟩

theorem isNull {r : Ref} (canonical : r ≤ Canon.globals) : h.isNull r = initial.isNull r :=
  sound_initial.1.closed.isNull_of_keeps pristine.keeps (lt_size_initial canonical)

/-- A new box with one component is null if that is. -/
theorem isNull_newWith (component : Ref) {payload : Payload} (canonical : component ≤ Canon.globals)
    (plain : Plain payload) :
    (h.newWith [component] payload).1.isNull h.size = initial.isNull component := by
  have old : component < h.size := pristine.keeps.later.inside (lt_size_initial canonical)
  have new := made_newWith pristine.sound old plain
  have only := components?_newWith h component payload
  rw [isNull_single only (new.later.inside old) pristine.young, (pristine.made new).isNull canonical]

theorem isNull_newList {items : List Ref} (made : Made h (h.newList items)) :
    (h.newList items).1.isNull h.size = false := by
  have new := pristine.made made
  have tagged : (h.newList items).1.Tagged := by
    rw [Tagged, new.keeps.same _ (lt_size_initial (by decide))]
    rfl
  have tag : (h.newList items).1.get? h.size componentsName = some Canon.listTag := by
    rw [Heap.get?, box_newList]
    rfl
  rw [tagged.isNull_list new.canon tag pristine.young, new.isNull (by decide)]
  exact isNull_prototype _ (by simp)

theorem holds_null :
    (h.newWith [Canon.null] .none).1.Holds .null (h.newWith [Canon.null] .none).2 :=
  .null ((pristine.isNull_newWith _ (by decide) plain_none).trans (by decide +kernel))

theorem holds_bool (value : Bool) : (h.newBool value).1.Holds (.bool value) (h.newBool value).2 := by
  have plain : Plain (.bool value) := ⟨nofun, nofun⟩
  have notNull := pristine.isNull_newWith Canon.boolean (by decide) plain
  exact .bool (notNull.trans (isNull_prototype _ (by simp)))
    (congrArg Box.payload (h.box_newWith _ _))

theorem holds_integer (value : Int64) :
    (h.newInteger value).1.Holds (.integer value) (h.newInteger value).2 := by
  have notNull := pristine.isNull_newWith Canon.integer (by decide) (plain_integer value)
  exact .integer (notNull.trans (isNull_prototype _ (by simp)))
    (congrArg Box.payload (h.box_newWith _ _))

theorem holds_text (bytes : Bytes) :
    (h.newText bytes).1.Holds (.text bytes) (h.newText bytes).2 := by
  have notNull := pristine.isNull_newWith Canon.text (by decide) (plain_text bytes)
  exact .text (notNull.trans (isNull_prototype _ (by simp)))
    (congrArg Box.payload (h.box_newWith _ _))

section Lists

variable {items : List (Ref × Datum)} (all : ∀ p ∈ items, p.1 < h.size ∧ h.Holds p.2 p.1)

include all

theorem made_list : Made h (h.newList (items.map Prod.fst)) := by
  refine made_newList pristine.sound fun v member => ?_
  obtain ⟨p, isItem, rfl⟩ := List.mem_map.mp member
  exact (all p isItem).1

theorem holds_list : (h.newList (items.map Prod.fst)).1.Holds (.list (items.map Prod.snd))
    (h.newList (items.map Prod.fst)).2 := by
  have new := pristine.made_list all
  refine .list (pristine.isNull_newList new) (congrArg Box.payload (h.box_newList _)) ?_
  intro p member
  obtain ⟨old, holds⟩ := all p member
  exact holds.keep pristine.sound.closed new.keeps old

end Lists

end Pristine

end Heap

/-! ## Data made by factories -/

/-- The boxes made since the interpreter was, each with its datum. A list may hold
any of those made before it. -/
inductive Built : Heap → List (Ref × Datum) → Prop where
  | new : Built Heap.initial [(Canon.nullValue, .null), (Canon.trueValue, .bool true),
      (Canon.falseValue, .bool false)]
  | null {h : Heap} {known : List (Ref × Datum)} (built : Built h known) :
      Built (h.newWith [Canon.null] .none).1 (((h.newWith [Canon.null] .none).2, .null) :: known)
  | bool {h : Heap} {known : List (Ref × Datum)} (built : Built h known) (value : Bool) :
      Built (h.newBool value).1 (((h.newBool value).2, .bool value) :: known)
  | integer {h : Heap} {known : List (Ref × Datum)} (built : Built h known) (value : Int64) :
      Built (h.newInteger value).1 (((h.newInteger value).2, .integer value) :: known)
  | text {h : Heap} {known : List (Ref × Datum)} (built : Built h known) (bytes : Bytes) :
      Built (h.newText bytes).1 (((h.newText bytes).2, .text bytes) :: known)
  | list {h : Heap} {known items : List (Ref × Datum)} (built : Built h known)
      (all : ∀ p ∈ items, p ∈ known) :
      Built (h.newList (items.map Prod.fst)).1
        (((h.newList (items.map Prod.fst)).2, .list (items.map Prod.snd)) :: known)

/-- The boxes have their shapes, on a heap that was only added to. -/
structure Heap.Keeping (h : Heap) (known : List (Ref × Datum)) : Prop where
  pristine : h.Pristine
  all : ∀ p ∈ known, p.1 < h.size ∧ h.Holds p.2 p.1

theorem Heap.Keeping.add {h : Heap} {known : List (Ref × Datum)} (keeping : h.Keeping known)
    {new : Heap × Ref} {d : Datum} (made : Made h new) (holds : new.1.Holds d new.2) :
    new.1.Keeping ((new.2, d) :: known) where
  pristine := keeping.pristine.made made
  all p member := by
    rcases List.mem_cons.mp member with rfl | member
    · exact ⟨made.inside, holds⟩
    · obtain ⟨inside, old⟩ := keeping.all p member
      exact ⟨made.later.inside inside, old.keep keeping.pristine.sound.closed made.keeps inside⟩

/-- The constants are always known. -/
theorem Heap.Pristine.keeping_constants {h : Heap} (pristine : h.Pristine) :
    h.Keeping [(Canon.nullValue, .null), (Canon.trueValue, .bool true),
      (Canon.falseValue, .bool false)] := by
  have null : initial.isNull Canon.nullValue = true ∧ initial.isNull Canon.trueValue = false ∧
      initial.isNull Canon.falseValue = false := by decide +kernel
  refine ⟨pristine, fun p member => ?_⟩
  suffices held : p.1 ≤ Canon.globals ∧ initial.Holds p.2 p.1 by
    have old := lt_size_initial held.1
    exact ⟨pristine.keeps.later.inside old, held.2.keep sound_initial.1.closed pristine.keeps old⟩
  simp only [List.mem_cons, List.not_mem_nil, or_false] at member
  rcases member with rfl | rfl | rfl
  · exact ⟨by decide, .null null.1⟩
  · exact ⟨by decide, .bool null.2.1 rfl⟩
  · exact ⟨by decide, .bool null.2.2 rfl⟩

theorem Built.keeping {h : Heap} {known : List (Ref × Datum)} (built : Built h known) :
    h.Keeping known := by
  induction built with
  | new => exact Heap.Pristine.keeping_constants ⟨.refl _, Heap.sound_initial.1⟩
  | @null h known _ ih =>
    have prototype : Canon.null < h.size := Nat.lt_trans (by decide) ih.pristine.canon
    exact ih.add (Heap.made_newWith ih.pristine.sound prototype Heap.plain_none)
      ih.pristine.holds_null
  | bool _ value ih =>
    exact ih.add (Heap.made_newBool ih.pristine.sound value) (ih.pristine.holds_bool value)
  | integer _ value ih =>
    exact ih.add (Heap.made_newInteger ih.pristine.sound value) (ih.pristine.holds_integer value)
  | text _ bytes ih =>
    exact ih.add (Heap.made_newText ih.pristine.sound bytes) (ih.pristine.holds_text bytes)
  | @list h known items _ all ih =>
    have held : ∀ p ∈ items, p.1 < h.size ∧ h.Holds p.2 p.1 := fun p member => ih.all p (all p member)
    exact ih.add (ih.pristine.made_list held) (ih.pristine.holds_list held)

/-! ## What is evaluated -/

theorem Quoted.Plain.repair {bytes : Bytes} (plain : Plain bytes) : Utf8.repair bytes = bytes := by
  refine Eq.trans ?_ (Utf8.pieces_bytes bytes)
  rw [Utf8.repair, List.flatMap_def, List.flatMap_def, List.map_congr_left]
  intro p member
  obtain ⟨c, rfl, -⟩ := plain p member
  rfl

/-- A box without variables. -/
structure Heap.Bare (h : Heap) (r : Ref) : Prop where
  inside : r < h.size
  empty : h.box r = {}

theorem Heap.Bare.keep {h h' : Heap} {r : Ref} (bare : h.Bare r) (keeps : h.Keeps h') : h'.Bare r :=
  ⟨keeps.later.inside bare.inside, (keeps.same r bare.inside).trans bare.empty⟩

/-- A name that a bare target does not have is looked up where it always was. -/
theorem Heap.Bare.lookup {h : Heap} {r : Ref} (bare : h.Bare r) (pristine : h.Pristine) (x : String) :
    h.lookup r x = if x = "null" then some Canon.nullValue else initial.get? Canon.globals x := by
  rw [Heap.lookup, Heap.get?, bare.empty, pristine.keeps.get? sound_initial.2]
  rfl

section Evaluation

variable {σ : Type} (host : Host σ) (target : Ref) (world : σ)

/-- The expression comes to a box with the shape of the datum, and no box has
changed. -/
def ComesTo (h : Heap) (e : Expr) (d : Datum) : Prop :=
  ∃ v h', Ends host target e ⟨h, world⟩ (.ok (v, ⟨h', world⟩)) ∧ h.Keeps h' ∧ h'.Pristine ∧
    v < h'.size ∧ h'.Holds d v

variable {host target world} {h : Heap}

theorem comesTo_of_lookup {x : String} {v : Ref} {d : Datum} (pristine : h.Pristine)
    (found : h.lookup target x = some v) (inside : v < h.size) (holds : h.Holds d v) :
    ComesTo host target world h (.name x) d := by
  refine ⟨v, h, ⟨1, ?_⟩, .refl h, pristine, inside, holds⟩
  rw [eval, found]
  rfl

theorem comesTo_of_made {new : Heap × Ref} {e : Expr} {d : Datum} (pristine : h.Pristine)
    (ends : Ends host target e ⟨h, world⟩ (.ok (new.2, ⟨new.1, world⟩))) (made : Heap.Made h new)
    (holds : new.1.Holds d new.2) : ComesTo host target world h e d :=
  ⟨_, _, ends, made.keeps, pristine.made made, made.inside, holds⟩

/-- The expressions for the items of a list come to boxes with their shapes. -/
theorem each_comesTo (ds : List Datum) (pristine : h.Pristine) (bare : h.Bare target)
    (all : ∀ d ∈ ds, ∀ h : Heap, h.Pristine → h.Bare target → ComesTo host target world h d.expr d) :
    ∃ (items : List (Ref × Datum)) (h' : Heap), items.map Prod.snd = ds ∧
      (∃ bound, ∀ n, bound < n → each (eval host n target) (ds.map Datum.expr) ⟨h, world⟩ =
        some (.ok (items.map Prod.fst, ⟨h', world⟩))) ∧
      h.Keeps h' ∧ h'.Pristine ∧ ∀ p ∈ items, p.1 < h'.size ∧ h'.Holds p.2 p.1 := by
  induction ds generalizing h with
  | nil => exact ⟨[], h, rfl, ⟨0, fun _ _ => rfl⟩, .refl h, pristine, nofun⟩
  | cons d ds ih =>
    obtain ⟨v, h₁, ends, keeps, pristine₁, inside, holds⟩ := all d (by simp) h pristine bare
    obtain ⟨items, h₂, same, ⟨bound', rest⟩, keeps', pristine₂, others⟩ :=
      ih pristine₁ (bare.keep keeps) fun d member => all d (List.mem_cons_of_mem _ member)
    obtain ⟨bound, first⟩ := ends.eventually
    refine ⟨(v, d) :: items, h₂, by simp [same], ⟨max bound bound', fun n more => ?_⟩,
      keeps.trans keeps', pristine₂, fun p member => ?_⟩
    · simp only [List.map_cons, each, first n (by omega), rest n (by omega), Trial.andThen]
      rfl
    · rcases List.mem_cons.mp member with rfl | member
      · exact ⟨keeps'.later.inside inside, holds.keep pristine₁.sound.closed keeps' inside⟩
      · exact others p member

/-- The expression that a datum is written as comes to a box with its shape. -/
theorem Datum.comesTo (d : Datum) (plain : ∀ k bytes, Node (.text bytes) k d → Quoted.Plain bytes)
    (h : Heap) (pristine : h.Pristine) (bare : h.Bare target) :
    ComesTo host target world h d.expr d := by
  match d with
  | .null =>
    rw [expr]
    have known := pristine.keeping_constants.all (Canon.nullValue, .null) (by simp)
    exact comesTo_of_lookup pristine (bare.lookup pristine _) known.1 known.2
  | .bool value =>
    rw [expr]
    have known := pristine.keeping_constants.all (Canon.ofBool value, .bool value)
      (by cases value <;> simp [Canon.ofBool])
    refine comesTo_of_lookup pristine ((bare.lookup pristine _).trans ?_) known.1 known.2
    cases value <;> decide +kernel
  | .integer value =>
    rw [expr]
    exact comesTo_of_made pristine ⟨1, rfl⟩ (Heap.made_newInteger pristine.sound value)
      (pristine.holds_integer value)
  | .text bytes =>
    rw [expr]
    -- A literal is repaired, which does nothing to a text without stray bytes.
    have repaired : h.newRepairedText bytes = h.newText bytes := by
      rw [Heap.newRepairedText, (plain 0 bytes .root).repair]
    refine comesTo_of_made pristine ⟨1, ?_⟩ (Heap.made_newText pristine.sound bytes)
      (pristine.holds_text bytes)
    rw [← repaired]
    rfl
  | .list ds =>
    rw [expr]
    obtain ⟨items, h', rfl, ⟨bound, values⟩, keeps, pristine', all⟩ :=
      each_comesTo ds pristine bare fun d member =>
        d.comesTo fun k bytes inner => plain (k + 1) bytes (.item member inner)
    have new := pristine'.made_list all
    refine ⟨_, _, ⟨bound + 2, ?_⟩, keeps.trans new.keeps, pristine'.made new, new.inside,
      pristine'.holds_list all⟩
    rw [eval, values (bound + 1) (by omega)]
    rfl

end Evaluation

/-! ## The text of a datum -/

/-- What is displayed of a datum can be read again. The datum was made by the
factories of a new interpreter, no node of it below depth 64 is anything but
null, and its texts need no escape. Then its text parses, and evaluated against a
new box it comes to the same data. No box has changed. -/
theorem display_read_back {σ : Type} (host : Host σ) (world : σ) {h : Heap}
    {known : List (Ref × Datum)} {r : Ref} {d : Datum} (built : Built h known)
    (member : (r, d) ∈ known)
    (shallow : ∀ k node, Datum.Node node k d → node ≠ .null → k ≤ 64)
    (plain : ∀ k bytes, Datum.Node (.text bytes) k d → Quoted.Plain bytes) :
    ∃ e, Source.parseProgram (Utf8.encode (h.display r)) = .ok (some e) ∧
      ∃ fuel v h', evaluate host.patient fuel h world none (some e) = ⟨.value v, h', world⟩ ∧
        h.Keeps h' ∧ h'.SameData r v := by
  have pristine := built.keeping.pristine
  obtain ⟨inside, holds⟩ := built.keeping.all _ member
  have shown : h.display r = d.expr.render := by
    refine holds.showTo fun k node inner present => ?_
    exact Nat.lt_succ_of_le (shallow k node inner present)
  have new := Heap.made_newBox pristine.sound
  have bare : h.newBox.1.Bare h.newBox.2 := ⟨new.inside, h.box_push_size _⟩
  obtain ⟨v, h', ends, keeps, -, -, holds'⟩ := d.comesTo plain h.newBox.1 (pristine.made new) bare
  have patient : ∀ w, host.patient.done w = false := fun _ => rfl
  obtain ⟨fuel, value⟩ := Machine.run_of_value patient ends
  have later := new.keeps.trans keeps
  refine ⟨d.expr, ?_, fuel, v, h', ?_, later, ?_⟩
  · rw [shown]
    exact (Datum.rewritten plain).parseProgram
  · change (Machine.run host.patient fuel (.start h.newBox.1 world h.newBox.2 d.expr)).reported _ = _
    rw [value]
    rfl
  · exact (holds.keep pristine.sound.closed later inside).sameData holds'

/-- The list of the text `a` and of null. -/
theorem display_read_back_list :
    let h := ((Heap.initial.newText [0x61]).1.newList [31, Canon.nullValue]).1
    ∃ e, Source.parseProgram (Utf8.encode (h.display 34)) = .ok (some e) ∧
      ∃ fuel v h', evaluate Host.plain.patient fuel h () none (some e) = ⟨.value v, h', ()⟩ ∧
        h.Keeps h' ∧ h'.SameData 34 v := by
  have text : Built _ ((31, .text [0x61]) :: _) := .text .new [0x61]
  have built := @Built.list _ _ [(31, .text [0x61]), (Canon.nullValue, .null)] text (by simp)
  have plain : Quoted.Plain [0x61] := by
    intro p member
    have pieces : Utf8.pieces [0x61] = [.char 'a'] := rfl
    rw [pieces] at member
    exact ⟨'a', List.mem_singleton.mp member, by decide⟩
  refine display_read_back Host.plain () built (List.mem_cons_self ..) ?_ ?_
  · intro k node inner _
    cases inner with
    | root => decide
    | item isItem inner =>
      simp only [List.map, List.mem_cons, List.not_mem_nil, or_false] at isItem
      rcases isItem with rfl | rfl <;> cases inner <;> decide
  · intro k bytes inner
    cases inner with
    | item isItem inner =>
      simp only [List.map, List.mem_cons, List.not_mem_nil, or_false] at isItem
      rcases isItem with rfl | rfl
      · cases inner
        exact plain
      · cases inner

end BoxScript
