import BoxScript.Heap.Classify
import BoxScript.Text.Quoted
import BoxScript.Number.Real

/-!
# Boxes as text

Primitive values are shown as they are written, lists and dictionaries by
their items, methods by their parameters and other boxes by the names of their
variables. Names and dictionary entries are in the order of their texts, so
the order in which they are kept does not show. Lists and dictionaries are
shown to a depth of 64; what lies deeper and is not null is an ellipsis.
-/

set_option autoImplicit false

namespace BoxScript.Heap

/-- Texts between two marks. -/
def enclosed (opening closing : String) (items : List String) : String :=
  opening ++ ", ".intercalate items ++ closing

/-- A box without a payload. -/
def showPlain (h : Heap) (r : Ref) : String :=
  match h.method? r with
  | some m => enclosed "method(" ")" m.params
  | none => enclosed "\x7b" "\x7d" (h.box r).vars.sortedNames

/-- A box, with the number of levels that may still be shown. A missing box is
null. -/
def showTo (h : Heap) : Nat → Option Ref → String
  | _, none => "null"
  | 0, some r => if h.isNull r then "null" else "..."
  | n + 1, some r =>
    if h.isNull r then "null"
    else match (h.box r).payload with
      | .bool b => if b then "true" else "false"
      | .integer i => toString i.toInt
      | .real x => Real.text x
      | .text bytes => Quoted.text bytes
      | .list items => enclosed "(" ")" (items.map fun item => h.showTo n item)
      | .dictionary entries =>
        enclosed "[" "]" <|
          (entries.map fun (key, value) => h.showTo n (some key) ++ ": " ++ h.showTo n value).mergeSort
            fun a b => a ≤ b
      | .none => h.showPlain r

/-- The number of levels of lists and dictionaries that are shown. -/
def shownLevels : Nat := 65

/-- The text of a box. -/
def display (h : Heap) (r : Ref) : String := h.showTo shownLevels (some r)

end BoxScript.Heap
