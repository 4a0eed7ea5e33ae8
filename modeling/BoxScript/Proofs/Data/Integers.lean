import Mathlib.Algebra.GroupWithZero.Nat
import BoxScript.Proofs.Heap.Made

/-!
# Arithmetic of integers

The routines for numbers are given two boxes that hold integers of 64 bits.
Sums, differences and products are exact and then brought back into the range
of 64 bits by a multiple of 2^64. Quotients are truncated toward zero; only
that of the least integer and -1 lies outside the range, and is brought back to
the least integer. Whatever the two integers are, the reply is a new box, a
truth value, or the failure of a division by zero.

The exact results are those of the unbounded integers, with `Int.bmod` for the
remainder in the middle range.
-/

set_option autoImplicit false

namespace BoxScript

/-! ## Quotients and remainders -/

/-- A truncated quotient with what is left over, brought into the range of 64
bits. -/
structure Truncates (x y quotient left : Int64) : Prop where
  sum : (quotient.toInt * y.toInt + left.toInt).bmod (2 ^ 64) = x.toInt
  small : left.toInt.natAbs < y.toInt.natAbs
  sign : left = 0 ∨ left.toInt.sign = x.toInt.sign
  /-- All quotients but one are exact. -/
  fits : quotient.toInt * y.toInt + left.toInt = x.toInt ↔ ¬ (x = Int64.minValue ∧ y = -1)
  wraps : x = Int64.minValue → y = -1 → quotient = Int64.minValue

theorem Truncates.restores {x y quotient left : Int64} (truncates : Truncates x y quotient left) :
    quotient * y + left = x := by
  rw [← Int64.toInt_inj, Int64.toInt_add, Int64.toInt_mul, Int.bmod_add_bmod]
  exact truncates.sum

theorem toInt_ne_zero {y : Int64} (nonzero : y ≠ 0) : y.toInt ≠ 0 :=
  fun zero => nonzero (Int64.toInt_inj.mp zero)

/-- The quotient is exact where it stays in the range. -/
theorem toInt_quotient {x y : Int64} (usual : ¬ (x = Int64.minValue ∧ y = -1)) :
    (x / y).toInt = x.toInt.tdiv y.toInt := by
  by_cases least : x = Int64.minValue
  · exact Int64.toInt_div_of_ne_right x y fun isMinusOne => usual ⟨least, isMinusOne⟩
  · exact Int64.toInt_div_of_ne_left x y least

theorem truncates_div {x y : Int64} (nonzero : y ≠ 0) : Truncates x y (x / y) (x % y) where
  sum := by
    rw [Int64.toInt_div, Int64.toInt_mod, ← Int.bmod_add_bmod, Int.bmod_mul_bmod, Int.bmod_add_bmod,
      Int.tdiv_mul_add_tmod, Int64.toInt_bmod]
  small := by
    have positive := Int.natAbs_pos.mpr (toInt_ne_zero nonzero)
    rw [Int64.toInt_mod, Int.natAbs_tmod]
    exact Nat.mod_lt _ positive
  sign := by
    have either := Int.sign_tmod x.toInt y.toInt
    rw [← Int64.toInt_inj, Int64.toInt_mod]
    split at either
    · exact .inl (Int.sign_eq_zero_iff_zero.mp either)
    · exact .inr either
  fits := by
    constructor
    · rintro fits ⟨rfl, rfl⟩
      revert fits
      decide
    · intro usual
      rw [toInt_quotient usual, Int64.toInt_mod, Int.tdiv_mul_add_tmod]
  wraps := by
    rintro rfl rfl
    decide

/-! ## Boxes that hold integers -/

/-- The reply with a new box for an integer. -/
def Reply.integer {σ : Type} (h : Heap) (world : σ) (n : Int64) : Reply σ :=
  ⟨.ok (some (h.newInteger n).2), (h.newInteger n).1, world⟩

namespace Heap

variable {h h' : Heap}

/-- A box that holds an integer was made, and keeps it. -/
theorem Keeps.integer (keeps : h.Keeps h') {p : Ref} {x : Int64}
    (holds : (h.box p).payload = .integer x) : (h'.box p).payload = .integer x := by
  by_cases inside : p < h.size
  · rw [keeps.same p inside]
    exact holds
  · rw [box_of_le (Nat.le_of_not_lt inside)] at holds
    cases holds

theorem keeps_newInteger (h : Heap) (n : Int64) : h.Keeps (h.newInteger n).1 := keeps_newWith h _ _

theorem payload_newInteger (h : Heap) (n : Int64) :
    ((h.newInteger n).1.box (h.newInteger n).2).payload = .integer n := by
  have made := box_newWith h Canon.integer (.integer n)
  exact congrArg Box.payload made

end Heap

/-! ## The routines -/

theorem Native.numberAt_integer {h : Heap} {p : Ref} {x : Int64}
    (holds : (h.box p).payload = .integer x) (routine : String) (position : Nat) :
    Native.numberAt h routine position (some p) = .ok (.integer x) := by
  simp only [Native.numberAt, Native.payload, bind, Except.bind, holds]
  rfl

section Routines

variable {σ : Type} (host : Host σ) (world : σ) {h : Heap} {p q : Ref} {x y : Int64}
  (first : (h.box p).payload = .integer x) (second : (h.box q).payload = .integer y)

include first second

theorem Native.operands_integers (routine : String) :
    Native.operands h routine [some p, some q] = .ok (.integers x y) := by
  simp only [Native.operands, Native.two, bind, Except.bind, Native.numberAt_integer first,
    Native.numberAt_integer second]
  rfl

/-- A binary operation takes the integers as they are. -/
theorem Native.arithmetic_integers (routine : String)
    (onIntegers : Int64 → Int64 → Except Failure Int64) (onReals : Float → Float → Float) :
    Native.arithmetic routine onIntegers onReals h [some p, some q] =
      (onIntegers x y).map Native.Answer.integer := by
  simp only [Native.arithmetic, operands_integers first second, bind, Except.bind]
  cases onIntegers x y <;> rfl

namespace Routine

theorem run_add : Routine.add.run host [some p, some q] h world = .integer h world (x + y) := by
  simp only [run, answer, Native.add, Native.arithmetic_integers first second]
  rfl

theorem run_sub : Routine.sub.run host [some p, some q] h world = .integer h world (x - y) := by
  simp only [run, answer, Native.sub, Native.arithmetic_integers first second]
  rfl

theorem run_mul : Routine.mul.run host [some p, some q] h world = .integer h world (x * y) := by
  simp only [run, answer, Native.mul, Native.arithmetic_integers first second]
  rfl

theorem run_div_of_ne (nonzero : y ≠ 0) :
    Routine.div.run host [some p, some q] h world = .integer h world (x / y) := by
  simp only [run, answer, Native.div, Native.arithmetic_integers first second, if_neg nonzero]
  rfl

theorem run_div_iff :
    Routine.div.run host [some p, some q] h world = ⟨.error (.cause .divideByZero), h, world⟩ ↔
      y = 0 := by
  constructor
  · intro failed
    by_contra nonzero
    rw [run_div_of_ne host world first second nonzero] at failed
    cases failed
  · intro zero
    simp only [run, answer, Native.div, Native.arithmetic_integers first second, if_pos zero]
    rfl

theorem run_less :
    Routine.less.run host [some p, some q] h world =
      ⟨.ok (some (Canon.ofBool (decide (x.toInt < y.toInt)))), h, world⟩ := by
  have order : decide (x < y) = decide (x.toInt < y.toInt) :=
    decide_eq_decide.mpr Int64.lt_iff_toInt_lt
  simp only [run, answer, Native.less, Native.operands_integers first second]
  rw [← order]
  rfl

/-- A sum less its second part. -/
theorem sub_add :
    ∃ sum h', Routine.add.run host [some p, some q] h world = ⟨.ok (some sum), h', world⟩ ∧
      Routine.sub.run host [some sum, some q] h' world = .integer h' world x := by
  refine ⟨_, _, run_add host world first second, ?_⟩
  have held := (h.keeps_newInteger (x + y)).integer second
  rw [run_sub host world (h.payload_newInteger (x + y)) held, Int64.add_sub_cancel]

/-- A quotient times the divisor, with what was left over added. -/
theorem add_mul_div (nonzero : y ≠ 0) {left : Int64} (truncates : Truncates x y (x / y) left)
    {r : Ref} (third : (h.box r).payload = .integer left) :
    ∃ quotient h', Routine.div.run host [some p, some q] h world =
        ⟨.ok (some quotient), h', world⟩ ∧
      ∃ product h'', Routine.mul.run host [some quotient, some q] h' world =
          ⟨.ok (some product), h'', world⟩ ∧
        Routine.add.run host [some product, some r] h'' world = .integer h'' world x := by
  refine ⟨_, _, run_div_of_ne host world first second nonzero, ?_⟩
  have keeps := h.keeps_newInteger (x / y)
  refine ⟨_, _, run_mul host world (h.payload_newInteger (x / y)) (keeps.integer second), ?_⟩
  have keeps' := keeps.trans (Heap.keeps_newInteger _ (x / y * y))
  rw [run_add host world (Heap.payload_newInteger _ (x / y * y)) (keeps'.integer third),
    truncates.restores]

end Routine

end Routines

/-- What the routines reply to two integers. Sums, differences and products are
the exact ones, brought into the range of 64 bits. A division fails if and only
if the divisor is zero, and else gives the truncated quotient, of which one only
has to be brought into the range. The order is that of the integers. Hence what
was added can be subtracted again, and a dividend is restored from its quotient
and what is left over. -/
theorem integer_routines_exact {σ : Type} (host : Host σ) (world : σ) {h : Heap} {p q : Ref}
    {x y : Int64} (first : (h.box p).payload = .integer x)
    (second : (h.box q).payload = .integer y) :
    (∃ n, Routine.add.run host [some p, some q] h world = .integer h world n ∧
      n.toInt = (x.toInt + y.toInt).bmod (2 ^ 64)) ∧
    (∃ n, Routine.sub.run host [some p, some q] h world = .integer h world n ∧
      n.toInt = (x.toInt - y.toInt).bmod (2 ^ 64)) ∧
    (∃ n, Routine.mul.run host [some p, some q] h world = .integer h world n ∧
      n.toInt = (x.toInt * y.toInt).bmod (2 ^ 64)) ∧
    (Routine.div.run host [some p, some q] h world = ⟨.error (.cause .divideByZero), h, world⟩ ↔
      y = 0) ∧
    (y ≠ 0 → ∃ n left, Routine.div.run host [some p, some q] h world = .integer h world n ∧
      Truncates x y n left ∧
      ∀ r, (h.box r).payload = .integer left →
        ∃ quotient h', Routine.div.run host [some p, some q] h world =
            ⟨.ok (some quotient), h', world⟩ ∧
          ∃ product h'', Routine.mul.run host [some quotient, some q] h' world =
              ⟨.ok (some product), h'', world⟩ ∧
            Routine.add.run host [some product, some r] h'' world = .integer h'' world x) ∧
    Routine.less.run host [some p, some q] h world =
      ⟨.ok (some (Canon.ofBool (decide (x.toInt < y.toInt)))), h, world⟩ ∧
    ∃ sum h', Routine.add.run host [some p, some q] h world = ⟨.ok (some sum), h', world⟩ ∧
      Routine.sub.run host [some sum, some q] h' world = .integer h' world x := by
  refine ⟨⟨x + y, Routine.run_add host world first second, Int64.toInt_add x y⟩,
    ⟨x - y, Routine.run_sub host world first second, Int64.toInt_sub x y⟩,
    ⟨x * y, Routine.run_mul host world first second, Int64.toInt_mul x y⟩,
    Routine.run_div_iff host world first second, fun nonzero => ?_,
    Routine.run_less host world first second, Routine.sub_add host world first second⟩
  have truncates := truncates_div (x := x) nonzero
  refine ⟨x / y, x % y, Routine.run_div_of_ne host world first second nonzero, truncates, ?_⟩
  intro r third
  exact Routine.add_mul_div host world first second nonzero truncates third

/-- The least integer divided by -1, with 0 left over. -/
theorem integer_routines_exact_least :
    let least := Heap.initial.newInteger Int64.minValue
    let minusOne := least.1.newInteger (-1)
    Routine.div.run Host.plain [some least.2, some minusOne.2] minusOne.1 () =
      .integer minusOne.1 () Int64.minValue := by
  intro least minusOne
  have first := (least.1.keeps_newInteger (-1)).integer
    (Heap.initial.payload_newInteger Int64.minValue)
  have second := least.1.payload_newInteger (-1)
  obtain ⟨-, -, -, -, divides, -⟩ := integer_routines_exact Host.plain () first second
  obtain ⟨n, left, replies, truncates, -⟩ := divides (by decide)
  rw [replies, truncates.wraps rfl rfl]

end BoxScript
