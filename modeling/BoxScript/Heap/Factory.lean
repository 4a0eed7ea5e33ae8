import BoxScript.Heap.Classify

/-!
# Making and changing boxes

A value of a built-in kind has the prototype of its kind as its component. A
list has a getter that reads the list, and the components shared by all lists.
Binding a variable to a null value removes it, so that an absent variable and
one that is null are the same thing.
-/

set_option autoImplicit false

namespace BoxScript.Heap

/-- Binds a variable, whatever the value. -/
def bind (h : Heap) (r : Ref) (name : String) (value : Ref) : Heap :=
  h.updateVars r (Vars.set name value)

/-- Removes a variable. -/
def unbind (h : Heap) (r : Ref) (name : String) : Heap :=
  h.updateVars r (Vars.erase name)

/-- Binds a variable, or removes it if the value is null. -/
def assign (h : Heap) (r : Ref) (name : String) (value : Ref) : Heap :=
  if h.isNull value then h.unbind r name else h.bind r name value

/-- Makes an empty box. -/
def newBox (h : Heap) : Heap × Ref := h.alloc {}

/-- Makes a box with a method. -/
def newMethod (h : Heap) (m : Method) : Heap × Ref := h.alloc { method := some m }

/-- Makes a list with its getter. -/
def newList (h : Heap) (items : List Ref) : Heap × Ref :=
  let r := h.size
  let list : Box :=
    { vars := [(componentsName, Canon.listTag), (getName, r + 1)], payload := .list (items.map some) }
  ((h.push list).push (.native "List.get" (some (.item r))), r)

/-- Makes a box with components and a payload. Without components it has no
variable for them. -/
def newWith (h : Heap) (components : List Ref) (payload : Payload) : Heap × Ref :=
  if components.isEmpty then h.alloc { payload }
  else
    let r := h.size
    let h := h.push { vars := [(componentsName, r + 1)], payload }
    ((h.newList components).1, r)

def newBool (h : Heap) (b : Bool) : Heap × Ref := h.newWith [Canon.boolean] (.bool b)

def newInteger (h : Heap) (n : Int64) : Heap × Ref := h.newWith [Canon.integer] (.integer n)

def newReal (h : Heap) (x : Float) : Heap × Ref := h.newWith [Canon.real] (.real x)

/-- Makes a text of the given bytes. -/
def newText (h : Heap) (bytes : Bytes) : Heap × Ref := h.newWith [Canon.text] (.text bytes)

/-- Makes a text of well-formed UTF-8, with stray bytes replaced. -/
def newRepairedText (h : Heap) (bytes : Bytes) : Heap × Ref := h.newText (Utf8.repair bytes)

/-- Makes a dictionary with its getter. -/
def newDictionary (h : Heap) (entries : List (Ref × Option Ref)) : Heap × Ref :=
  let (h, r) := h.newWith [Canon.dictionary] (.dictionary entries)
  let (h, getter) := h.alloc (.native "Dictionary.get" (some (.entry r)))
  (h.bind r getName getter, r)

/-- Makes a box that calls a native routine by name, and binds it globally. -/
def define (h : Heap) (name : String) : Heap :=
  let (h, r) := h.alloc (.native name none)
  h.assign Canon.globals name r

end BoxScript.Heap
