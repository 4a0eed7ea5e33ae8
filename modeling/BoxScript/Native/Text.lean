import BoxScript.Native.Arguments
import BoxScript.Text.Casing

/-!
# Routines on texts
-/

set_option autoImplicit false

namespace BoxScript.Native

/-- All arguments, joined. -/
def concat (h : Heap) (args : List (Option Ref)) : Except Failure Answer := do
  let texts ← textsFrom h "concat" 0 args
  return .text texts.flatten

/-- The number of characters of a text or of items of a list. -/
def length (h : Heap) (args : List (Option Ref)) : Except Failure Answer := do
  let x ← one "length" args
  match ← payload h x with
  | .text bytes => return .integer (Int64.ofNat (Utf8.count bytes))
  | .list items => return .integer (Int64.ofNat items.length)
  | _ => fails (.argumentType "length" 0 "String or List")

/-- The items of a list with a separator between them. -/
def join (h : Heap) (args : List (Option Ref)) : Except Failure Answer := do
  let (list, separator) ← two "join" args
  let items ← listAt h "join" 0 list
  let separator ← textAt h "join" 1 separator
  let texts ← textsFrom h "join" 0 items
  return .text (texts.intersperse separator).flatten

def upper (h : Heap) (args : List (Option Ref)) : Except Failure Answer := do
  let x ← one "upper" args
  return .text (Casing.upper (← textAt h "upper" 0 x))

def lower (h : Heap) (args : List (Option Ref)) : Except Failure Answer := do
  let x ← one "lower" args
  return .text (Casing.lower (← textAt h "lower" 0 x))

end BoxScript.Native
