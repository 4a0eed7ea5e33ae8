import BoxScript.Heap.Factory
import BoxScript.Native.Routines

/-!
# The heap that evaluation starts from

The prototypes, the components of lists, the singletons, and the globals with
the truth values and a box for each routine of the language.
-/

set_option autoImplicit false

namespace BoxScript.Heap

/-- The seven prototypes and the components shared by all lists. -/
def prototypes : Heap :=
  let listTag : Box :=
    { vars := [(componentsName, Canon.listTag), (getName, Canon.listTagGetter)]
      payload := .list [some Canon.list] }
  ⟨#[{}, {}, {}, {}, {}, {}, {}, listTag, .native "List.get" (some (.item Canon.listTag))]⟩

/-- The prototypes with the singletons and empty globals. -/
def singletons : Heap :=
  let (h, _) := prototypes.newWith [Canon.null] .none
  let (h, _) := h.newBool true
  let (h, _) := h.newBool false
  let (h, _) := h.newBox
  h

/-- The heap of a new interpreter. -/
def initial : Heap :=
  let h := singletons.assign Canon.globals "true" Canon.trueValue
  let h := h.assign Canon.globals "false" Canon.falseValue
  shippedRoutines.foldl (fun h routine => h.define routine.1) h

end BoxScript.Heap
