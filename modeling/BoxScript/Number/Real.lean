import BoxScript.Number.Shortest

/-!
# Real numbers as text

A real is written with the fewest digits that read back. Its leading digit
stands at exponent -4 to 5 for positional notation; otherwise it is written
with a signed exponent of at least two digits. Text that would look like an
integer gets `.0` behind it.
-/

set_option autoImplicit false

namespace BoxScript.Real

/-- A string of zeros. -/
def zeros (n : Nat) : String := "".pushn '0' n

/-- One digit, a point and the others, and the exponent of the first. -/
def scientific (digits : String) (exponent : Int) : String :=
  let mantissa :=
    if digits.length = 1 then digits
    else (digits.take 1).toString ++ "." ++ (digits.drop 1).toString
  let size := toString exponent.natAbs
  mantissa ++ (if exponent < 0 then "e-" else "e+") ++ zeros (2 - size.length) ++ size

/-- Digits with a point after the first `whole` of them, zeros filling the gap. -/
def positional (digits : String) (whole : Int) : String :=
  if whole ≤ 0 then "0." ++ zeros (-whole).toNat ++ digits
  else if digits.length ≤ whole.toNat then digits ++ zeros (whole.toNat - digits.length) ++ ".0"
  else (digits.take whole.toNat).toString ++ "." ++ (digits.drop whole.toNat).toString

/-- The text of a positive finite real, given by its word. -/
def positive (word : Nat) : String :=
  let decimal := Shortest.digits (Binary.split word)
  let digits := toString decimal.digits
  let exponent := decimal.exponent + digits.length - 1
  if exponent < -4 || 6 ≤ exponent then scientific digits exponent
  else positional digits (exponent + 1)

/-- The text of a real. -/
def text (x : Float) : String :=
  let word := Binary.magnitude x
  if Binary.infinityWord < word then "NaN"
  else if word = Binary.infinityWord then (if Binary.isNegative x then "-Inf" else "+Inf")
  else (if Binary.isNegative x then "-" else "") ++ (if word = 0 then "0.0" else positive word)

end BoxScript.Real
