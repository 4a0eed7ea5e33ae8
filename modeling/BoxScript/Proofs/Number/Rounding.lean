import BoxScript.Number.Decimal
import Mathlib.Tactic.Ring

/-!
# Rounding keeps the order

A quotient rounded to the nearest number, with halves to the even one, grows
with the quotient. So does the word of the real nearest to a decimal: between
two powers of two it counts steps of one size, and where the steps double the
words of all reals below come before it. A decimal beyond the greatest real is
therefore out of range with more digits behind it, too.
-/

set_option autoImplicit false

namespace BoxScript.Binary

variable {a b c d : Nat}

theorem div_le_roundDiv (a b : Nat) : a / b ≤ roundDiv a b := by
  simp only [roundDiv]
  split
  · omega
  · split <;> omega

theorem roundDiv_le (a b : Nat) : roundDiv a b ≤ a / b + 1 := by
  simp only [roundDiv]
  split
  · omega
  · split <;> omega

/-- Beyond a half, a quotient is rounded up. -/
theorem roundDiv_of_half_lt (half : b < 2 * (a % b)) : roundDiv a b = a / b + 1 := by
  simp only [roundDiv]
  rw [if_neg (by omega), if_pos half]

/-- From a half on, an odd quotient is rounded up. -/
theorem le_roundDiv_of_half_le (half : b ≤ 2 * (a % b)) :
    a / b + a / b % 2 ≤ roundDiv a b := by
  simp only [roundDiv]
  rw [if_neg (by omega)]
  split <;> omega

theorem div_le_div_of_cross (positive : 0 < b) (positive' : 0 < d) (cross : a * d ≤ c * b) :
    a / b ≤ c / d := by
  rw [Nat.le_div_iff_mul_le positive']
  refine Nat.le_of_mul_le_mul_right ?_ positive
  calc a / b * d * b = a / b * b * d := by ring
    _ ≤ a * d := Nat.mul_le_mul_right d (Nat.div_mul_le_self a b)
    _ ≤ c * b := cross

/-- Of two quotients with the same whole part the greater has the greater rest. -/
theorem mod_cross (cross : a * d ≤ c * b) (same : a / b = c / d) :
    a % b * d ≤ c % d * b := by
  have first := Nat.div_add_mod a b
  have second := Nat.div_add_mod c d
  rw [← first, ← second, same] at cross
  have wholes : (b * (c / d) + a % b) * d = b * d * (c / d) + a % b * d := by ring
  have wholes' : (d * (c / d) + c % d) * b = b * d * (c / d) + c % d * b := by ring
  omega

theorem roundDiv_mono (positive : 0 < b) (positive' : 0 < d) (cross : a * d ≤ c * b) :
    roundDiv a b ≤ roundDiv c d := by
  have below := div_le_roundDiv c d
  rcases Nat.lt_or_eq_of_le (div_le_div_of_cross positive positive' cross) with less | same
  · have above := roundDiv_le a b
    omega
  · have rests := mod_cross cross same
    rcases Nat.lt_trichotomy (2 * (a % b)) b with half | half | half
    · rw [roundDiv, if_pos half, same]
      exact below
    · have half' : d ≤ 2 * (c % d) := by
        refine Nat.le_of_mul_le_mul_right ?_ positive
        calc d * b = 2 * (a % b) * d := by rw [half, Nat.mul_comm]
          _ = 2 * (a % b * d) := by ring
          _ ≤ 2 * (c % d * b) := Nat.mul_le_mul_left 2 rests
          _ = 2 * (c % d) * b := by ring
      have even := le_roundDiv_of_half_le half'
      rw [roundDiv, if_neg (by omega), if_neg (by omega), same]
      exact even
    · have half' : d < 2 * (c % d) := by
        refine Nat.lt_of_mul_lt_mul_right (a := b) ?_
        calc d * b = b * d := Nat.mul_comm d b
          _ < 2 * (a % b) * d := Nat.mul_lt_mul_of_pos_right half positive'
          _ = 2 * (a % b * d) := by ring
          _ ≤ 2 * (c % d * b) := Nat.mul_le_mul_left 2 rests
          _ = 2 * (c % d) * b := by ring
      rw [roundDiv_of_half_lt half, roundDiv_of_half_lt half', same]

/-! ## The word of the nearest real -/

/-- The doublings with which a quotient has a significand below 2^53. -/
def doublings (steps unit : Nat) : Nat := (steps / unit).log2 - 52

/-- The word of the real nearest to a quotient. -/
def nearest (steps unit : Nat) : Nat :=
  word ⟨roundDiv steps (unit * 2 ^ doublings steps unit), doublings steps unit⟩

variable {steps steps' unit unit' : Nat}

/-- The significand is at most 2^53, and it is so only by rounding up. -/
theorem nearest_le (steps unit : Nat) :
    nearest steps unit ≤ (doublings steps unit + 2) * normal := by
  have small : steps / unit < 2 ^ (53 + doublings steps unit) := by
    refine Nat.lt_of_lt_of_le Nat.lt_log2_self ?_
    exact Nat.pow_le_pow_right (by decide) (by rw [doublings]; omega)
  have quotient : steps / (unit * 2 ^ doublings steps unit) < 2 ^ 53 := by
    rw [← Nat.div_div_eq_div_mul, Nat.div_lt_iff_lt_mul (Nat.two_pow_pos _), ← Nat.pow_add]
    exact small
  have above := roundDiv_le steps (unit * 2 ^ doublings steps unit)
  simp only [nearest, word, normal]
  omega

/-- With doublings the significand is at least 2^52. -/
theorem le_nearest (more : 0 < doublings steps unit) :
    (doublings steps unit + 1) * normal ≤ nearest steps unit := by
  have large : 2 ^ (52 + doublings steps unit) ≤ steps / unit := by
    have exponent : 52 + doublings steps unit = (steps / unit).log2 := by
      rw [doublings] at more ⊢
      omega
    rw [exponent]
    apply Nat.log2_self_le
    rintro none
    simp [doublings, none] at more
  have quotient : 2 ^ 52 ≤ steps / (unit * 2 ^ doublings steps unit) := by
    rw [← Nat.div_div_eq_div_mul, Nat.le_div_iff_mul_le (Nat.two_pow_pos _), ← Nat.pow_add]
    exact large
  have below := div_le_roundDiv steps (unit * 2 ^ doublings steps unit)
  simp only [nearest, word, normal]
  omega

theorem doublings_mono (positive : 0 < unit) (positive' : 0 < unit')
    (cross : steps * unit' ≤ steps' * unit) : doublings steps unit ≤ doublings steps' unit' := by
  have quotients := div_le_div_of_cross positive positive' cross
  refine Nat.sub_le_sub_right ?_ 52
  by_cases none : steps / unit = 0
  · simp [none]
  · rw [Nat.le_log2 (Nat.ne_zero_of_lt (Nat.lt_of_lt_of_le (Nat.pos_of_ne_zero none) quotients))]
    exact (Nat.log2_self_le none).trans quotients

theorem nearest_mono (positive : 0 < unit) (positive' : 0 < unit')
    (cross : steps * unit' ≤ steps' * unit) : nearest steps unit ≤ nearest steps' unit' := by
  rcases Nat.lt_or_eq_of_le (doublings_mono positive positive' cross) with less | same
  · calc nearest steps unit ≤ (doublings steps unit + 2) * normal := nearest_le steps unit
      _ ≤ (doublings steps' unit' + 1) * normal := Nat.mul_le_mul_right normal (by omega)
      _ ≤ nearest steps' unit' := le_nearest (by omega)
  · have power : 0 < 2 ^ doublings steps' unit' := Nat.two_pow_pos _
    have rounded : roundDiv steps (unit * 2 ^ doublings steps' unit') ≤
        roundDiv steps' (unit' * 2 ^ doublings steps' unit') := by
      apply roundDiv_mono (Nat.mul_pos positive power) (Nat.mul_pos positive' power)
      calc steps * (unit' * 2 ^ doublings steps' unit')
          = steps * unit' * 2 ^ doublings steps' unit' := by ring
        _ ≤ steps' * unit * 2 ^ doublings steps' unit' := Nat.mul_le_mul_right _ cross
        _ = steps' * (unit * 2 ^ doublings steps' unit') := by ring
    simp only [nearest, word, same]
    exact Nat.add_le_add_left rounded _

end BoxScript.Binary

namespace BoxScript.Decimal

theorem word_eq (digits places : Nat) :
    word digits places = Binary.nearest (digits * Nat.pow 2 1074) (Nat.pow 10 places) :=
  rfl

/-- The greater decimal has the greater word. -/
theorem word_mono {digits digits' places places' : Nat}
    (cross : digits * Nat.pow 10 places' ≤ digits' * Nat.pow 10 places) :
    word digits places ≤ word digits' places' := by
  rw [word_eq, word_eq]
  -- The size of a step is a number of 1075 binary digits, of no matter here.
  generalize Nat.pow 2 1074 = step
  apply Binary.nearest_mono (Nat.pow_pos (by decide)) (Nat.pow_pos (by decide))
  calc digits * step * Nat.pow 10 places' = digits * Nat.pow 10 places' * step := by ring
    _ ≤ digits' * Nat.pow 10 places * step := Nat.mul_le_mul_right step cross
    _ = digits' * step * Nat.pow 10 places := by ring

theorem toReal?_eq_none_iff {negative : Bool} {digits places : Nat} :
    toReal? negative digits places = none ↔ Binary.infinityWord ≤ word digits places := by
  rw [toReal?, ite_eq_right_iff]
  simp

/-- A decimal that is at least one out of range is out of range. -/
theorem toReal?_eq_none_of_le {negative : Bool} {digits digits' places places' : Nat}
    (cross : digits * Nat.pow 10 places' ≤ digits' * Nat.pow 10 places)
    (outside : toReal? negative digits places = none) : toReal? negative digits' places' = none :=
  toReal?_eq_none_iff.mpr ((toReal?_eq_none_iff.mp outside).trans (word_mono cross))

end BoxScript.Decimal
