import BoxScript.Number.Binary

/-!
# Reading decimals

A decimal with finitely many places is rounded to the nearest real, ties to
the even significand, in exact arithmetic. One that rounds beyond the largest
finite real is out of range.
-/

set_option autoImplicit false

namespace BoxScript.Decimal

/-- The word of the real nearest to `digits / 10 ^ places`; at least
`Binary.infinityWord` if that is out of range. -/
def word (digits places : Nat) : Nat :=
  let steps := digits * Nat.pow 2 1074
  let unit := Nat.pow 10 places
  let doublings := (steps / unit).log2 - 52
  Binary.word ⟨Binary.roundDiv steps (unit * Nat.pow 2 doublings), doublings⟩

/-- The real nearest to a signed decimal, if it is in range. -/
def toReal? (negative : Bool) (digits places : Nat) : Option Float :=
  let magnitude := word digits places
  if magnitude < Binary.infinityWord then
    some (Float.ofBits (UInt64.ofNat (if negative then magnitude + Binary.signBit else magnitude)))
  else none

end BoxScript.Decimal
