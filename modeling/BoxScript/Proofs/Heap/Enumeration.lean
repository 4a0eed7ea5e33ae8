import BoxScript.Proofs.Heap.Order

/-!
# The text of a box under every enumeration

The entries of a dictionary and the variables of a box may come in another order
each time that they are enumerated. A dictionary that is met at two places, or
again inside itself, need not even come in one order both times. An
`Enumeration` fixes the order for every place. A place is known by the positions
that lead to it, the nearest first, so its depth is their number.

`enumerated` descends into lists and dictionaries, which may contain themselves,
and knows of no other bound than the depth. Its allowance is one of nested
descents and decides nothing but whether there is a text. The main statement is
that there always is one, and that it is the text of the box.
-/

set_option autoImplicit false

namespace BoxScript

/-- The orders in which entries and names come at every place. -/
structure Enumeration where
  entries : List Nat → List (Ref × Option Ref) → List (Ref × Option Ref)
  names : List Nat → List String → List String
  entries_perm : ∀ place es, (entries place es).Perm es
  names_perm : ∀ place xs, (names place xs).Perm xs

namespace Heap

/-- What lies deeper than this is an ellipsis. -/
def deepest : Nat := 64

/-- The text of the box at a place, which is not there if the descent takes more
than it is allowed. The key and the value of an entry are at places of their own. -/
def enumerated (h : Heap) (order : Enumeration) : Nat → List Nat → Option Ref → Option String
  | 0, _, _ => none
  | _ + 1, _, none => some "null"
  | allowed + 1, place, some r =>
    if h.isNull r then some "null"
    else if deepest < place.length then some "..."
    else match (h.box r).payload with
      | .bool b => some (if b then "true" else "false")
      | .integer i => some (toString i.toInt)
      | .real x => some (Real.text x)
      | .text bytes => some (Quoted.text bytes)
      | .list items => do
        let texts ← items.zipIdx.mapM fun (item, i) => h.enumerated order allowed (i :: place) item
        return enclosed "(" ")" texts
      | .dictionary entries => do
        let texts ← (order.entries place entries).zipIdx.mapM fun ((key, value), i) => do
          let key ← h.enumerated order allowed ((2 * i) :: place) (some key)
          let value ← h.enumerated order allowed ((2 * i + 1) :: place) value
          return key ++ ": " ++ value
        return enclosed "[" "]" (texts.mergeSort fun a b => a ≤ b)
      | .none =>
        match h.method? r with
        | some m => some (enclosed "method(" ")" m.params)
        | none =>
          let names := order.names place ((h.box r).vars.map Prod.fst)
          some (enclosed "\x7b" "\x7d" (names.mergeSort fun a b => a ≤ b))

/-- If every member has a text, whatever its position, so has the whole. -/
theorem mapM_zipIdx {α : Type} {text : α × Nat → Option String} (shown : α → String)
    (each : ∀ x i, text (x, i) = some (shown x)) (xs : List α) :
    xs.zipIdx.mapM text = some (xs.map shown) := by
  have plain : text = fun p => pure (shown p.1) := funext fun p => each p.1 p.2
  rw [plain, List.mapM_pure]
  have positions : (xs.zipIdx.map Prod.fst).map shown = xs.map shown := by
    rw [List.zipIdx_map_fst]
  rw [← positions, List.map_map]
  rfl

variable {h : Heap} {order : Enumeration}

/-- Names are sorted, so their order does not show. -/
theorem sortedNames_enumerated (place : List Nat) (vars : Vars) :
    (order.names place (vars.map Prod.fst)).mergeSort (fun a b => a ≤ b) = vars.sortedNames :=
  mergeSort_eq_of_perm (order.names_perm place _)

/-- What is shown of a box at some depth with the levels that are left there.
The induction is on these levels, which the payloads know nothing of. -/
theorem enumerated_eq_showTo (levels more : Nat) (place : List Nat)
    (depth : place.length + levels = shownLevels) (x : Option Ref) :
    h.enumerated order (levels + 1 + more) place x = some (h.showTo levels x) := by
  induction levels generalizing place x with
  | zero =>
    have deep : deepest < place.length := by
      unfold shownLevels at depth
      unfold deepest
      omega
    rw [Nat.add_right_comm]
    cases x with
    | none => rfl
    | some r =>
      simp only [enumerated, showTo, if_pos deep]
      split <;> rfl
  | succ levels ih =>
    have shallow : ¬ deepest < place.length := by
      unfold shownLevels at depth
      unfold deepest
      omega
    have inner (i : Nat) (y : Option Ref) :
        h.enumerated order (levels + 1 + more) (i :: place) y = some (h.showTo levels y) := by
      apply ih
      rw [List.length_cons]
      omega
    rw [Nat.add_right_comm]
    cases x with
    | none => rfl
    | some r =>
      simp only [enumerated, showTo, if_neg shallow]
      split
      · rfl
      · cases payload : (h.box r).payload with
        | list items =>
          simp only [inner]
          rw [mapM_zipIdx (h.showTo levels) (fun _ _ => rfl)]
          rfl
        | dictionary entries =>
          -- The entries come in an order of this place, and the texts are sorted.
          let shown (entry : Ref × Option Ref) : String :=
            h.showTo levels (some entry.1) ++ ": " ++ h.showTo levels entry.2
          have sorted := mergeSort_eq_of_perm ((order.entries_perm place entries).map shown)
          simp only [inner]
          rw [mapM_zipIdx shown (fun _ _ => rfl)]
          exact congrArg (fun texts => some (enclosed "[" "]" texts)) sorted
        | none =>
          unfold showPlain
          cases h.method? r with
          | some m => rfl
          | none => simp only [sortedNames_enumerated]
        | _ => rfl

/-- Whatever the orders in which dictionaries and variables are enumerated, at
every place anew, the descent ends and the text is that of the box. Nothing is
assumed of the heap: lists and dictionaries may contain themselves. -/
theorem enumerated_eq_display (h : Heap) (r : Ref) (order : Enumeration) (more : Nat) :
    h.enumerated order (shownLevels + 1 + more) [] (some r) = some (h.display r) := by
  unfold display
  exact enumerated_eq_showTo shownLevels more [] (Nat.zero_add shownLevels) (some r)

end Heap

end BoxScript
