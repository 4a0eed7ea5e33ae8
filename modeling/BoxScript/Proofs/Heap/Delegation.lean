import BoxScript.Proofs.Heap.Inclusion

/-!
# Chains of delegation

A box whose `call` variable holds a box that is not null delegates to it. A box
delegates to one box at most, so it starts one chain, and the chain either has a
last box or comes back to a box that it has passed. The method of a box is the
own method of the last box, and it has none if there is no last box.

A chain has no box twice before it is known to come back, and all its boxes but
the last one have variables, so it is followed to its end on every heap.
-/

set_option autoImplicit false

namespace BoxScript.Heap

open Relation (ReflTransGen TransGen)

/-- A box is called as another one is. -/
def Delegates (h : Heap) (r next : Ref) : Prop :=
  h.get? r callName = some next ∧ h.isNull next = false

/-- A chain of delegation ends with a box. -/
def EndsChain (h : Heap) (last : Ref) : Prop := ∀ next, ¬ h.Delegates last next

/-- The boxes of a chain of delegation: a box, those that it delegates to, and
so on. -/
abbrev Chain (h : Heap) : Ref → Ref → Prop := ReflTransGen h.Delegates

/-- Following a chain with no bound on its length, the number of its boxes that
are looked at, and the method that is found. -/
inductive Resolves (h : Heap) : Nat → (met : List Ref) → Ref → Option Method → Prop where
  | own {met : List Ref} {r : Ref} (last : h.EndsChain r) : Resolves h 1 met r (h.box r).method
  | back {met : List Ref} {r next : Ref} (delegates : h.Delegates r next) (known : next ∈ met) :
      Resolves h 1 met r none
  | follow {n : Nat} {met : List Ref} {r next : Ref} {method : Option Method}
      (delegates : h.Delegates r next) (new : next ∉ met)
      (rest : Resolves h n (next :: met) next method) : Resolves h (n + 1) met r method

variable {h : Heap}

namespace Delegates

variable {r next other : Ref}

theorem unique (first : h.Delegates r next) (second : h.Delegates r other) : next = other :=
  Option.some.inj (first.1.symm.trans second.1)

/-- A box that delegates has a variable, so it was made. -/
theorem inside (delegates : h.Delegates r next) : r < h.size := by
  apply Nat.lt_of_not_le
  intro outside
  have bound := delegates.1
  rw [get?, box_of_le outside] at bound
  cases bound

end Delegates

/-! ## Chains that end and chains that come back -/

section Chains

variable {r next q last other : Ref}

/-- A chain passes through the box that its first box delegates to. -/
theorem Chain.of_delegates (delegates : h.Delegates r next) (ends : h.EndsChain last)
    (chain : h.Chain r last) : h.Chain next last := by
  rcases ReflTransGen.cases_head chain with rfl | ⟨first, delegates', rest⟩
  · exact absurd delegates (ends next)
  · rwa [delegates.unique delegates']

/-- A chain has one last box. -/
theorem Chain.last_unique (chain : h.Chain r last) (ends : h.EndsChain last)
    (chain' : h.Chain r other) (ends' : h.EndsChain other) : last = other := by
  induction chain using ReflTransGen.head_induction_on with
  | refl =>
    rcases ReflTransGen.cases_head chain' with same | ⟨next, delegates, _⟩
    · exact same
    · exact absurd delegates (ends next)
  | head delegates _ ih => exact ih (Chain.of_delegates delegates ends' chain')

/-- A chain that ends passes no box twice. -/
theorem Chain.not_back (chain : h.Chain r last) (ends : h.EndsChain last)
    (passes : h.Chain r q) : ¬ TransGen h.Delegates q q := by
  induction passes using ReflTransGen.head_induction_on with
  | refl =>
    -- Each box of the chain would come back to itself, the last one too.
    induction chain using ReflTransGen.head_induction_on with
    | refl =>
      intro back
      obtain ⟨next, delegates, _⟩ := TransGen.head'_iff.mp back
      exact ends next delegates
    | head delegates _ ih =>
      intro back
      obtain ⟨next, delegates', rest⟩ := TransGen.head'_iff.mp back
      obtain rfl := delegates.unique delegates'
      exact ih (TransGen.tail' rest delegates)
  | head delegates _ ih => exact ih (Chain.of_delegates delegates ends chain)

end Chains

/-! ## The method that is found -/

/-- What following a chain comes to: the own method of its last box, or none for
a chain that comes back. The boxes met before lead to the present one. -/
theorem Resolves.cases_chain {n : Nat} {met : List Ref} {r : Ref} {method : Option Method}
    (resolves : h.Resolves n met r method) (passed : ∀ q ∈ met, h.Chain q r) :
    (∃ last, h.Chain r last ∧ h.EndsChain last ∧ method = (h.box last).method) ∨
      ∃ q, h.Chain r q ∧ TransGen h.Delegates q q ∧ method = none := by
  induction resolves with
  | own last => exact .inl ⟨_, .refl, last, rfl⟩
  | back delegates known =>
    exact .inr ⟨_, .single delegates, TransGen.tail' (passed _ known) delegates, rfl⟩
  | @follow n met r next method delegates _ _ ih =>
    have passed' : ∀ q ∈ next :: met, h.Chain q next := by
      intro q member
      rcases List.mem_cons.mp member with rfl | member
      · exact .refl
      · exact (passed q member).tail delegates
    rcases ih passed' with ⟨last, chain, ends, found⟩ | ⟨q, chain, back, found⟩
    · exact .inl ⟨last, .head delegates chain, ends, found⟩
    · exact .inr ⟨q, .head delegates chain, back, found⟩

/-- One more look at a chain, as the search for a method makes it. -/
theorem methodFrom_succ (n : Nat) (met : List Ref) (r : Ref) :
    (h.EndsChain r ∧ h.methodFrom (n + 1) met r = (h.box r).method) ∨
      ∃ next, h.Delegates r next ∧
        h.methodFrom (n + 1) met r =
          if next ∈ met then none else h.methodFrom n (next :: met) next := by
  rw [methodFrom]
  cases bound : h.get? r callName with
  | none =>
    refine .inl ⟨fun next delegates => ?_, rfl⟩
    rw [delegates.1] at bound
    cases bound
  | some next =>
    cases null : h.isNull next with
    | true =>
      refine .inl ⟨fun other delegates => ?_, by simp [null]⟩
      obtain rfl := Option.some.inj (bound.symm.trans delegates.1)
      rw [delegates.2] at null
      cases null
    | false => exact .inr ⟨next, ⟨bound, null⟩, by simp [null]⟩

/-- The boxes met so far are different, and all but the present one were made. So
a search that may look at one box more than there are is never cut short. -/
theorem resolves_methodFrom (n : Nat) {r : Ref} {earlier : List Ref}
    (once : (r :: earlier).Nodup) (made : ∀ q ∈ earlier, q < h.size)
    (enough : h.size < n + earlier.length) :
    ∃ looks ≤ n, h.Resolves looks (r :: earlier) r (h.methodFrom n (r :: earlier) r) := by
  induction n generalizing r earlier with
  | zero =>
    have within : earlier ⊆ List.range h.size := by
      intro q member
      exact List.mem_range.mpr (made q member)
    have bound := (List.subperm_of_subset (List.nodup_cons.mp once).2 within).length_le
    rw [List.length_range] at bound
    omega
  | succ n ih =>
    rcases h.methodFrom_succ n (r :: earlier) r with ⟨ends, found⟩ | ⟨next, delegates, found⟩
    · rw [found]
      exact ⟨1, by omega, .own ends⟩
    · rw [found]
      split
      · next known => exact ⟨1, by omega, .back delegates known⟩
      · next new =>
        have made' : ∀ q ∈ r :: earlier, q < h.size := by
          intro q member
          rcases List.mem_cons.mp member with rfl | member
          · exact delegates.inside
          · exact made q member
        obtain ⟨looks, le, rest⟩ :=
          ih (List.nodup_cons.mpr ⟨new, once⟩) made' (by rw [List.length_cons]; omega)
        exact ⟨looks + 1, Nat.succ_le_succ le, .follow delegates new rest⟩

theorem resolves_method? (h : Heap) (r : Ref) :
    ∃ looks ≤ h.size + 1, h.Resolves looks [r] r (h.method? r) :=
  resolves_methodFrom (h.size + 1) (by simp) nofun (by simp)

/-- Every chain ends or comes back, and that decides the method of its boxes. -/
theorem method?_cases (h : Heap) (r : Ref) :
    (∃ last, h.Chain r last ∧ h.EndsChain last ∧ h.method? r = (h.box last).method) ∨
      ∃ q, h.Chain r q ∧ TransGen h.Delegates q q ∧ h.method? r = none := by
  obtain ⟨_, _, resolves⟩ := h.resolves_method? r
  refine resolves.cases_chain fun q member => ?_
  rw [List.mem_singleton.mp member]

theorem method?_of_last {r last : Ref} (chain : h.Chain r last) (ends : h.EndsChain last) :
    h.method? r = (h.box last).method := by
  rcases h.method?_cases r with ⟨other, chain', ends', found⟩ | ⟨q, passes, back, _⟩
  · rw [found, chain.last_unique ends chain' ends']
  · exact absurd back (chain.not_back ends passes)

theorem method?_of_back {r q : Ref} (passes : h.Chain r q) (back : TransGen h.Delegates q q) :
    h.method? r = none := by
  rcases h.method?_cases r with ⟨last, chain, ends, _⟩ | ⟨_, _, _, found⟩
  · exact absurd back (chain.not_back ends passes)
  · exact found

/-- Delegation chains of any length are resolved. The chain of a box is followed
to its end, which takes at most one look more than there are boxes. It has a last
box or comes back to one of its boxes. The method of its first box is the last
box's own in the one case, and there is none in the other. So a box has the
method of the box that it delegates to, wherever the two stand. -/
theorem method?_resolves_chain (h : Heap) (r : Ref) :
    (∃ looks ≤ h.size + 1, h.Resolves looks [r] r (h.method? r)) ∧
    ((∃ last, h.Chain r last ∧ h.EndsChain last) ∨
      ∃ q, h.Chain r q ∧ TransGen h.Delegates q q) ∧
    (∀ last, h.Chain r last → h.EndsChain last → h.method? r = (h.box last).method) ∧
    (∀ q, h.Chain r q → TransGen h.Delegates q q → h.method? r = none) ∧
    ∀ next, h.Delegates r next → h.method? r = h.method? next := by
  refine ⟨h.resolves_method? r, ?_, fun last => method?_of_last, fun q => method?_of_back, ?_⟩
  · rcases h.method?_cases r with ⟨last, chain, ends, _⟩ | ⟨q, passes, back, _⟩
    · exact .inl ⟨last, chain, ends⟩
    · exact .inr ⟨q, passes, back⟩
  · intro next delegates
    rcases h.method?_cases next with ⟨last, chain, ends, found⟩ | ⟨q, passes, back, found⟩
    · rw [found, method?_of_last (.head delegates chain) ends]
    · rw [found, method?_of_back (.head delegates passes) back]

end BoxScript.Heap
