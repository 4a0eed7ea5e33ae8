/-!
# Reals as natural multiples of the smallest one

A finite 64-bit real is, up to its sign, a natural number of steps of
2^-1074. Its word holds a significand below 2^53 and the number of doublings
of it, and the two together count as one number: the words of non-negative
reals are in the order of the reals, and the word after the largest finite
one is that of infinity.
-/

set_option autoImplicit false

namespace BoxScript.Binary

/-- The least significand of a normal real, 2^52. -/
def normal : Nat := 0x10000000000000

/-- The weight of the sign bit, 2^63. -/
def signBit : Nat := 0x8000000000000000

/-- The word of infinity, the first that is not finite. -/
def infinityWord : Nat := 0x7FF * normal

/-- The word without its sign bit. -/
def magnitude (x : Float) : Nat := x.toBits.toNat % signBit

/-- Whether the sign bit is set. -/
def isNegative (x : Float) : Bool := signBit ≤ x.toBits.toNat

/-- A positive finite magnitude as a significand and a number of doublings:
it stands for `significand * 2 ^ doublings` steps. -/
structure Scaled where
  significand : Nat
  doublings : Nat

/-- The parts of the word of a finite magnitude. -/
def split (word : Nat) : Scaled :=
  if word < normal then ⟨word, 0⟩
  else ⟨word % normal + normal, word / normal - 1⟩

/-- The word made of a significand below 2^53 and a number of doublings. A
significand of 2^53, left by rounding up, gives the next power of two. -/
def word (parts : Scaled) : Nat := parts.doublings * normal + parts.significand

/-- The quotient rounded to the nearest number, a half to the even one. -/
def roundDiv (a b : Nat) : Nat :=
  let q := a / b
  let r := a % b
  if 2 * r < b then q else if b < 2 * r then q + 1 else q + q % 2

end BoxScript.Binary
