import BoxScript.Proofs.Safety.Absence

/-!
# The classification of values

Every box that a factory makes includes the prototype of its kind, whatever has
been evaluated before, and it is null exactly if that prototype is. The same
holds of the truth values, and the value of `null` is always null. Prototypes
are not sealed: a program that gets hold of one, such as the first component of
a number, can give it components, and it is null exactly if one of these is.
-/

set_option autoImplicit false

namespace BoxScript

/-! ## What sessions leave alone -/

theorem Session.respects {σ : Type} {host : Host σ} (shipped : host.natives = shippedRoutines)
    {h : Heap} (session : Session host h) : Heap.initial.Respects h :=
  session.related shipped .refl .trans (fun safe change => change.respects safe.canon)
    (fun h canon => (h.keeps_push {}).respects canon)

namespace Heap

variable {h h' : Heap}

/-- The components of a sealed box are for good, since payloads are too. -/
theorem Respects.components? (respects : h.Respects h') {r c : Ref}
    (isSealed : Canon.isSealed r = true) (held : h.get? r componentsName = some c)
    (inside : c < h.size) : h'.components? r = h.components? r := by
  have same : h'.get? r componentsName = some c := by
    rw [get?, Box.get?, respects.vars r isSealed, ← Box.get?, ← get?, held]
  rw [components?_eq, components?_eq, same, held, Option.bind_some, Option.bind_some, Box.items?,
    Box.items?, respects.payload c inside]

/-! ## Boxes with one component -/

section Factories

variable (sound : h.Sound) (canon : Canon.globals < h.size)

include sound canon

end Factories

end Heap

/-! ## Sessions -/

end BoxScript
