import BoxScript.Native.Arguments
import BoxScript.Heap.Display

/-!
# Getters

A list answers with the item at a position, counted from zero, and a
dictionary with the value of the entry whose key is the argument itself or,
failing that, equal to it. An entry without a value answers with nothing.
-/

set_option autoImplicit false

namespace BoxScript.Native

/-- The item of a list. The box must be a list. -/
def item (h : Heap) (list : Ref) (args : List (Option Ref)) : Except Failure Answer := do
  let k ← integerAt h "List.get" 0 (← one "List.get" args)
  match (h.box list).payload with
  | .list items =>
    match if 0 ≤ k then items[k.toNatClampNeg]? else none with
    | some x => return .passed x
    | none => fails (.noItem k items.length)
  | _ => .error .fatal

/-- The entry of a key, by identity first. -/
def find? (h : Heap) (entries : List (Ref × Option Ref)) (key : Ref) : Option (Option Ref) :=
  match entries.lookup key with
  | some value => some value
  | none => (entries.find? fun entry => h.equal entry.1 key).map Prod.snd

/-- The value of a dictionary's entry. The box must be a dictionary. No entry has
a missing key, and none whose key has a primitive payload can be compared with
one. -/
def entry (h : Heap) (dictionary : Ref) (args : List (Option Ref)) : Except Failure Answer := do
  let key ← one "Dictionary.get" args
  match (h.box dictionary).payload, key with
  | .dictionary entries, some key =>
    match find? h entries key with
    | some value => return .passed value
    | none => fails (.noEntry (h.display key))
  | .dictionary entries, none =>
    if entries.any fun entry => (h.box entry.1).payload.isPrimitive then .error .fatal
    else fails (.noEntry (h.showTo Heap.shownLevels none))
  | _, _ => .error .fatal

end BoxScript.Native
