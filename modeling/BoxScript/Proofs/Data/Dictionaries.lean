import BoxScript.Proofs.Heap.Made
import BoxScript.Proofs.Heap.Order
import BoxScript.Proofs.Safety.Natives

/-!
# What a dictionary answers

A dictionary answers with the value of an entry whose key equals the one that it
is asked for, and fails if there is none. Equality of boxes is an equivalence,
reals included: a box with NaN equals itself only, and the two zeros are equal.
So if one entry at most has an equal key, the answer depends neither on the order
in which the entries are kept nor on which of several equal keys is asked for.

Entries are kept by the identity of their keys, and nobody asks whether two keys
are equal. With two entries of equal keys, the one whose own key is asked for
answers, so equal keys may be answered differently; and for a third key of the
same value the order of the entries decides.
-/

set_option autoImplicit false

namespace BoxScript

/-! ## Equality of reals -/

namespace Real

open Float.Model (UnpackedFloat)

theorem eq_of_compare_sign {s s' : UnpackedFloat.Sign} (same : compare s s' = .eq) : s = s' := by
  cases s with
  | negative =>
    cases s' with
    | negative => rfl
    | positive => cases same
  | positive =>
    cases s' with
    | negative => cases same
    | positive => rfl

/-- The exponents are compared first. -/
theorem eq_of_compare_then {m m' : Nat} {e e' : Int}
    (same : (compare e e').then (compare m m') = .eq) : e = e' ∧ m = m' := by
  rw [Ordering.then_eq_eq] at same
  exact ⟨Std.LawfulEqCmp.eq_of_compare same.1, Std.LawfulEqCmp.eq_of_compare same.2⟩

theorem compare_self {a : UnpackedFloat} (number : a ≠ .notANumber) : a.compare a = some .eq := by
  cases a with
  | notANumber => exact absurd rfl number
  | infinity s => cases s <;> rfl
  | zero s => rfl
  | finite s m e pos =>
    have parts : (compare e e).then (compare m m) = .eq := by simp
    cases s with
    | negative => exact congrArg (fun order : Ordering => some order.swap) parts
    | positive => exact congrArg some parts

/-- Finite numbers of one sign are compared by their parts. -/
theorem eq_of_compare_finite {s s' : UnpackedFloat.Sign} {m m' : Nat} {e e' : Int} {pos : 0 < m}
    {pos' : 0 < m'}
    (same : (UnpackedFloat.finite s m e pos).compare (.finite s' m' e' pos') = some .eq) :
    UnpackedFloat.finite s m e pos = .finite s' m' e' pos' := by
  cases s with
  | negative =>
    cases s' with
    | negative =>
      have parts : ((compare e e').then (compare m m')).swap = .eq := Option.some.inj same
      rw [Ordering.swap_eq_eq] at parts
      obtain ⟨rfl, rfl⟩ := eq_of_compare_then parts
      rfl
    | positive => cases same
  | positive =>
    cases s' with
    | negative => cases same
    | positive =>
      obtain ⟨rfl, rfl⟩ := eq_of_compare_then (Option.some.inj same)
      rfl

/-- Reals compare as equal if both are zero, or the same and not NaN. -/
theorem compare_eq_iff (a b : UnpackedFloat) :
    a.compare b = some .eq ↔
      (∃ s s', a = .zero s ∧ b = .zero s') ∨ a = b ∧ a ≠ .notANumber := by
  constructor
  · intro same
    cases a with
    | notANumber => cases same
    | infinity s =>
      cases b with
      | infinity s' =>
        rw [eq_of_compare_sign (Option.some.inj same)]
        exact .inr ⟨rfl, by rintro ⟨⟩⟩
      | _ => cases s <;> cases same
    | zero s =>
      cases b with
      | notANumber => cases same
      | infinity s' => cases s' <;> cases same
      | zero s' => exact .inl ⟨s, s', rfl, rfl⟩
      | finite s' m e pos => cases s' <;> cases same
    | finite s m e pos =>
      cases b with
      | notANumber => cases same
      | infinity s' => cases s' <;> cases same
      | zero s' => cases s <;> cases same
      | finite s' m' e' pos' => exact .inr ⟨eq_of_compare_finite same, by rintro ⟨⟩⟩
  · intro either
    rcases either with ⟨s, s', rfl, rfl⟩ | ⟨rfl, number⟩
    · rfl
    · exact compare_self number

theorem beq_iff {x y : Float} :
    (x == y) = true ↔ x.toModel.unpack.compare y.toModel.unpack = some .eq := by
  change (x.toModel.unpack.compare y.toModel.unpack == some .eq) = true ↔ _
  rw [beq_iff_eq]

theorem beq_symm {x y : Float} (same : (x == y) = true) : (y == x) = true := by
  rw [beq_iff, compare_eq_iff] at same ⊢
  rcases same with ⟨s, s', first, second⟩ | ⟨same, number⟩
  · exact .inl ⟨s', s, second, first⟩
  · exact .inr ⟨same.symm, same ▸ number⟩

theorem beq_trans {x y z : Float} (first : (x == y) = true) (second : (y == z) = true) :
    (x == z) = true := by
  rw [beq_iff, compare_eq_iff] at first second ⊢
  rcases first with ⟨s, s', zeroX, zeroY⟩ | ⟨same, number⟩
  · rcases second with ⟨_, s'', _, zeroZ⟩ | ⟨same, _⟩
    · exact .inl ⟨s, s'', zeroX, zeroZ⟩
    · exact .inl ⟨s, s', zeroX, same ▸ zeroY⟩
  · rw [same]
    exact second

end Real

/-! ## Equality of boxes -/

namespace Heap

theorem equalPayloads_symm {p q : Payload} (same : equalPayloads p q = true) :
    equalPayloads q p = true := by
  rw [equalPayloads.eq_def] at same
  split at same
  · exact beq_iff_eq.mpr (beq_iff_eq.mp same).symm
  · exact beq_iff_eq.mpr (beq_iff_eq.mp same).symm
  · exact Real.beq_symm same
  · exact beq_iff_eq.mpr (beq_iff_eq.mp same).symm
  · cases same

theorem equalPayloads_trans {p q r : Payload} (first : equalPayloads p q = true)
    (second : equalPayloads q r = true) : equalPayloads p r = true := by
  rw [equalPayloads.eq_def] at first
  split at first
  · rwa [beq_iff_eq.mp first]
  · rwa [beq_iff_eq.mp first]
  · cases r with
    | real z => exact Real.beq_trans first second
    | _ => cases second
  · rwa [beq_iff_eq.mp first]
  · cases first

theorem equal_refl (h : Heap) (x : Ref) : h.equal x x = true := by simp [equal]

variable {h : Heap} {x y z : Ref}

theorem equal_symm (same : h.equal x y = true) : h.equal y x = true := by
  rw [equal, Bool.or_eq_true, beq_iff_eq] at same ⊢
  exact same.imp Eq.symm equalPayloads_symm

theorem equal_trans (first : h.equal x y = true) (second : h.equal y z = true) :
    h.equal x z = true := by
  rw [equal, Bool.or_eq_true, beq_iff_eq] at first
  rcases first with rfl | first
  · exact second
  · rw [equal, Bool.or_eq_true, beq_iff_eq] at second ⊢
    rcases second with rfl | second
    · exact .inr first
    · exact .inr (equalPayloads_trans first second)

/-- Equal boxes equal the same boxes. -/
theorem equal_congr (same : h.equal x y = true) (k : Ref) : h.equal k y = h.equal k x := by
  rw [Bool.eq_iff_iff]
  exact ⟨fun equal => equal_trans equal (equal_symm same), fun equal => equal_trans equal same⟩

end Heap

/-! ## The entry of a key -/

namespace Native

variable {h : Heap} {entries : List (Ref × Option Ref)} {key : Ref}

theorem find?_eq_none (absent : ∀ p ∈ entries, h.equal p.1 key = false) :
    find? h entries key = none := by
  cases found : find? h entries key with
  | none => rfl
  | some value =>
    obtain ⟨key', member, equal⟩ := mem_of_find? found
    rw [absent _ member] at equal
    cases equal

/-- An entry with an equal key is found, if not the one that was asked about. -/
theorem exists_of_find? {p : Ref × Option Ref} (member : p ∈ entries)
    (equal : h.equal p.1 key = true) :
    ∃ q ∈ entries, h.equal q.1 key = true ∧ find? h entries key = some q.2 := by
  cases found : find? h entries key with
  | some value =>
    obtain ⟨key', member', equal'⟩ := mem_of_find? found
    exact ⟨(key', value), member', equal', rfl⟩
  | none =>
    rw [find?] at found
    split at found
    · cases found
    · have all := List.find?_eq_none.mp (Option.map_eq_none_iff.mp found) p member
      exact absurd equal all

variable {d : Ref} (isDictionary : (h.box d).payload = .dictionary entries)

include isDictionary

/-- The getter of a dictionary with one argument. -/
theorem entry_eq (key : Ref) :
    entry h d [some key] =
      match find? h entries key with
      | some value => .ok (.passed value)
      | none => fails (.noEntry (h.display key)) := by
  simp only [entry, one, bind, Except.bind, isDictionary]
  cases find? h entries key with
  | none => rfl
  | some value => rfl

theorem entry_of_find? {v : Ref} (found : find? h entries key = some (some v)) :
    entry h d [some key] = .ok (.box v) := by
  rw [entry_eq isDictionary, found]
  rfl

/-- No entry has an equal key. -/
theorem entry_of_none (absent : ∀ p ∈ entries, h.equal p.1 key = false) :
    entry h d [some key] = fails (.noEntry (h.display key)) := by
  rw [entry_eq isDictionary, find?_eq_none absent]

/-- Some entry has an equal key. -/
theorem entry_of_some {p : Ref × Option Ref} (member : p ∈ entries)
    (equal : h.equal p.1 key = true) :
    ∃ q ∈ entries, h.equal q.1 key = true ∧ entry h d [some key] = .ok (.passed q.2) := by
  obtain ⟨q, isEntry, same, found⟩ := exists_of_find? member equal
  exact ⟨q, isEntry, same, by rw [entry_eq isDictionary, found]⟩

end Native

/-! ## Other orders and equal keys -/

theorem Payload.Reordered.exists_dictionary {p : Payload} {entries : List (Ref × Option Ref)}
    (reordered : Reordered (.dictionary entries) p) :
    ∃ entries', entries.Perm entries' ∧ p = .dictionary entries' := by
  cases reordered with
  | same => exact ⟨entries, .refl _, rfl⟩
  | dictionary perm => exact ⟨_, perm, rfl⟩

/-- One entry at most has a key that equals the given one. -/
def Heap.OneEqual (h : Heap) (entries : List (Ref × Option Ref)) (key : Ref) : Prop :=
  ∀ p ∈ entries, ∀ q ∈ entries, h.equal p.1 key = true → h.equal q.1 key = true → p = q

namespace Heap

/-- The heap with other entries for a dictionary. -/
def withEntries (h : Heap) (d : Ref) (entries : List (Ref × Option Ref)) : Heap :=
  ⟨h.boxes.modify d fun b => { b with payload := .dictionary entries }⟩

theorem payload_withEntries {h : Heap} {d : Ref} {entries : List (Ref × Option Ref)}
    (inside : d < h.size) : ((h.withEntries d entries).box d).payload = .dictionary entries := by
  simp only [box, withEntries, Array.getElem?_modify]
  simp [Array.getElem?_eq_getElem inside]

theorem reordered_withEntries {h : Heap} {d : Ref} {entries entries' : List (Ref × Option Ref)}
    (isDictionary : (h.box d).payload = .dictionary entries) (perm : entries.Perm entries') :
    h.Reordered (h.withEntries d entries') where
  size := by simp [withEntries, size]
  box r := by
    simp only [box, withEntries, Array.getElem?_modify]
    split
    · next same =>
      subst same
      cases found : h.boxes[d]? with
      | none => exact .refl _
      | some b =>
        have payload : b.payload = .dictionary entries := by simpa [box, found] using isDictionary
        exact ⟨.refl _, fun _ => rfl, rfl, by simpa [payload] using .dictionary perm⟩
    · exact .refl _

theorem payload_newDictionary (h : Heap) (entries : List (Ref × Option Ref)) :
    ((h.newDictionary entries).1.box h.size).payload = .dictionary entries := by
  let made := (h.newWith [Canon.dictionary] (.dictionary entries)).1
  let pushed := made.push (.native "Dictionary.get" (some (.entry h.size)))
  have inside : h.size < made.size := by
    rw [size_newWith]
    omega
  have later := (extends_push made (.native "Dictionary.get" (some (.entry h.size)))).trans
    (extends_updateVars pushed h.size (Vars.set getName made.size))
  refine (later.payload h.size inside).trans ?_
  rw [box_newWith]

end Heap

namespace Native

section Reordered

variable {h h' : Heap} (reordered : h.Reordered h') {d : Ref} {entries : List (Ref × Option Ref)}
  (isDictionary : (h.box d).payload = .dictionary entries) {key key' : Ref}
  (same : h.equal key key' = true)

include reordered isDictionary same

theorem entry_reordered_none (absent : ∀ p ∈ entries, h.equal p.1 key = false) :
    entry h' d [some key'] = fails (.noEntry (h.display key')) := by
  obtain ⟨entries', perm, isDictionary'⟩ :=
    (isDictionary ▸ (reordered.box d).payload).exists_dictionary
  rw [← reordered.display key']
  refine entry_of_none isDictionary' fun p member => ?_
  rw [reordered.equal, Heap.equal_congr same]
  exact absent p (perm.mem_iff.mpr member)

theorem entry_reordered_some {p : Ref × Option Ref} (member : p ∈ entries)
    (equal : h.equal p.1 key = true) :
    ∃ q ∈ entries, h.equal q.1 key = true ∧ entry h' d [some key'] = .ok (.passed q.2) := by
  obtain ⟨entries', perm, isDictionary'⟩ :=
    (isDictionary ▸ (reordered.box d).payload).exists_dictionary
  have equal' : h'.equal p.1 key' = true := by rwa [reordered.equal, Heap.equal_congr same]
  obtain ⟨q, isEntry, found, answer⟩ :=
    entry_of_some isDictionary' (perm.mem_iff.mp member) equal'
  rw [reordered.equal, Heap.equal_congr same] at found
  exact ⟨q, perm.mem_iff.mpr isEntry, found, answer⟩

theorem entry_reordered_one (one : h.OneEqual entries key) {p : Ref × Option Ref}
    (member : p ∈ entries) (equal : h.equal p.1 key = true) :
    entry h' d [some key'] = .ok (.passed p.2) := by
  obtain ⟨q, isEntry, found, answer⟩ :=
    entry_reordered_some reordered isDictionary same member equal
  rwa [one p member q isEntry equal found]

end Reordered

/-- What a dictionary answers, in whatever order its entries are kept, for a key
and every key that equals it. If no entry has an equal key it fails, and else it
answers with the value of an entry that has. If one entry at most has an equal
key, the order of the entries makes no difference, nor does it make one which of
the equal keys is asked for: the value of that entry is the answer. -/
theorem entry_of_equal_key {h h' : Heap} (reordered : h.Reordered h') {d : Ref}
    {entries : List (Ref × Option Ref)} (isDictionary : (h.box d).payload = .dictionary entries)
    {key key' : Ref} (same : h.equal key key' = true) :
    ((∀ p ∈ entries, h.equal p.1 key = false) →
      entry h' d [some key'] = fails (.noEntry (h.display key'))) ∧
    ((∃ p ∈ entries, h.equal p.1 key = true) →
      ∃ p ∈ entries, h.equal p.1 key = true ∧ entry h' d [some key'] = .ok (.passed p.2)) ∧
    (h.OneEqual entries key →
      entry h' d [some key] = entry h d [some key] ∧
      (∀ answer, entry h' d [some key'] = .ok answer ↔ entry h d [some key] = .ok answer) ∧
      ∀ p ∈ entries, h.equal p.1 key = true → entry h' d [some key'] = .ok (.passed p.2)) := by
  have itself := h.equal_refl key
  refine ⟨entry_reordered_none reordered isDictionary same, ?_, fun one => ?_⟩
  · rintro ⟨p, member, equal⟩
    exact entry_reordered_some reordered isDictionary same member equal
  · by_cases some_ : ∃ p ∈ entries, h.equal p.1 key = true
    · obtain ⟨p, member, equal⟩ := some_
      have now := entry_reordered_one (.refl h) isDictionary itself one member equal
      have later := entry_reordered_one reordered isDictionary itself one member equal
      have other := entry_reordered_one reordered isDictionary same one member equal
      refine ⟨by rw [later, now], by simp [other, now], fun q isEntry found => ?_⟩
      exact entry_reordered_one reordered isDictionary same one isEntry found
    · have absent : ∀ p ∈ entries, h.equal p.1 key = false := by
        intro p member
        exact Bool.eq_false_iff.mpr fun equal => some_ ⟨p, member, equal⟩
      have now := entry_reordered_none (.refl h) isDictionary itself absent
      have later := entry_reordered_none reordered isDictionary itself absent
      have other := entry_reordered_none reordered isDictionary same absent
      refine ⟨by rw [later, now], by simp [other, now, fails], fun p member equal => ?_⟩
      exact absurd ⟨p, member, equal⟩ some_

/-- The reals 0 and -0 and the integer 7 behind the first boxes. -/
def zeros : Heap :=
  let h := (Heap.initial.newReal (.ofBits 0)).1.newReal (.ofBits 0x8000000000000000)
  (h.1.newInteger 7).1

/-- A dictionary with the keys 0 and 7 is asked for -0 and answers as for 0, with
its entries in either order. -/
theorem entry_of_equal_key_zero :
    let entries : List (Ref × Option Ref) := [(31, some 37), (37, some 34)]
    let h := (zeros.newDictionary entries).1
    h.Reordered (h.withEntries zeros.size entries.reverse) ∧ h.equal 31 34 = true ∧
      h.OneEqual entries 31 ∧
      entry (h.withEntries zeros.size entries.reverse) zeros.size [some 34] = .ok (.box 37) := by
  intro entries h
  have isDictionary := zeros.payload_newDictionary entries
  have reordered := Heap.reordered_withEntries isDictionary entries.reverse_perm.symm
  have same : h.equal 31 34 = true := by decide +kernel
  have one : h.OneEqual entries 31 := by
    rw [Heap.OneEqual]
    decide +kernel
  obtain ⟨-, -, answers⟩ := (entry_of_equal_key reordered isDictionary same).2.2 one
  exact ⟨reordered, same, one, answers (31, some 37) (by decide) (by decide +kernel)⟩

/-- The integers 1, 1, 1, 10 and 20 behind the first boxes. -/
def numbers : Heap :=
  let h := (Heap.initial.newInteger 1).1.newInteger 1
  let h := (h.1.newInteger 1).1.newInteger 10
  (h.1.newInteger 20).1

/-- The first two ones with ten and twenty. -/
def twins : List (Ref × Option Ref) := [(31, some 40), (34, some 43)]

/-- Two keys of a dictionary are equal and are answered differently. What a third
box of the same value is answered depends on the order of the entries. -/
theorem exists_equal_keys_apart :
    ∃ (h h' : Heap) (d first second third ten twenty : Ref),
      h.Reordered h' ∧ ten ≠ twenty ∧
      h.equal first second = true ∧ h.equal first third = true ∧
      entry h d [some first] = .ok (.box ten) ∧ entry h d [some second] = .ok (.box twenty) ∧
      entry h d [some third] = .ok (.box ten) ∧ entry h' d [some third] = .ok (.box twenty) := by
  have isDictionary := numbers.payload_newDictionary twins
  have inside : numbers.size < (numbers.newDictionary twins).1.size := by decide +kernel
  have reordered := Heap.reordered_withEntries isDictionary twins.reverse_perm.symm
  refine ⟨_, _, numbers.size, 31, 34, 37, 40, 43, reordered, by decide, by decide +kernel,
    by decide +kernel, ?_, ?_, ?_, ?_⟩
  · exact entry_of_find? isDictionary (by decide +kernel)
  · exact entry_of_find? isDictionary (by decide +kernel)
  · exact entry_of_find? isDictionary (by decide +kernel)
  · exact entry_of_find? (Heap.payload_withEntries inside) (by decide +kernel)

end Native

end BoxScript
