import BoxScript.Number.Binary

/-!
# The fewest digits that read back

A positive real is the nearest one to every decimal inside an interval around
it, whose ends belong to it if the significand is even. `digits` gives the
decimal in that interval on the coarsest grid of powers of ten that has one;
of two neighbours on that grid the nearer one, and of two equally near ones
the even one. Seventeen digits always suffice to hit the interval.
-/

set_option autoImplicit false

namespace BoxScript.Shortest

open Binary (Scaled)

/-- A decimal `digits * 10 ^ exponent`. -/
structure Decimal where
  digits : Nat
  exponent : Int

/-- The interval of decimals that are read as one real, and the real itself,
in quarter steps. -/
structure Interval where
  low : Nat
  value : Nat
  high : Nat
  closed : Bool

/-- The interval around a real. Below a power of two, other than the least
normal one, reals lie twice as dense. -/
def interval (x : Scaled) : Interval :=
  let gap := if x.significand = Binary.normal && x.doublings ≠ 0 then 1 else 2
  { low := (4 * x.significand - gap) * Nat.pow 2 x.doublings
    value := 4 * x.significand * Nat.pow 2 x.doublings
    high := (4 * x.significand + 2) * Nat.pow 2 x.doublings
    closed := x.significand % 2 = 0 }

/-- The spacing `10 ^ exponent` of a grid, in quarter steps, as a fraction. -/
def spacing (exponent : Int) : Nat × Nat :=
  (Nat.pow 10 exponent.toNat * Nat.pow 2 1076, Nat.pow 10 (-exponent).toNat)

/-- Whether the point number `n` of a grid lies in the interval. -/
def Interval.has (i : Interval) (exponent : Int) (n : Nat) : Bool :=
  let (num, den) := spacing exponent
  if i.closed then i.low * den ≤ n * num && n * num ≤ i.high * den
  else i.low * den < n * num && n * num < i.high * den

/-- The point of a grid that stands for the interval's real, if the interval
has any. -/
def Interval.hit? (i : Interval) (exponent : Int) : Option Decimal :=
  let (num, den) := spacing exponent
  let below := i.value * den / num
  let beyond := i.value * den % num
  match i.has exponent below, i.has exponent (below + 1) with
  | true, true =>
    if 2 * beyond < num || (2 * beyond = num && below % 2 = 0) then some ⟨below, exponent⟩
    else some ⟨below + 1, exponent⟩
  | true, false => some ⟨below, exponent⟩
  | false, true => some ⟨below + 1, exponent⟩
  | false, false => none

/-- An exponent of ten whose grid is coarser than a real is large. -/
def coarsest (x : Scaled) : Int :=
  Int.fdiv ((((x.significand.log2 + x.doublings : Nat) : Int) - 1073) * 30103) 100000 + 1

/-- The shortest decimal that is read as a positive finite real. -/
def digits (x : Scaled) : Decimal :=
  let i := interval x
  ((List.range 24).findSome? fun (k : Nat) => i.hit? (coarsest x - k)).getD ⟨0, 0⟩

end BoxScript.Shortest
