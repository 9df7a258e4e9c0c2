/-
BlockHooks/Binary64.lean

How large a whole number may be to have a place among the floating point
numbers of 64 bits.

Such a number has 53 binary digits and an exponent.  `nearest n` rounds a
whole number to these digits; it lies at most half of the last digit's
weight from `n`, on either side (`two_mul_nearest_le`,
`two_mul_le_nearest`), and a number that has no more digits is its own
nearest (`nearest_eq_self`).  Exponents end too: from `bound` on, the nearest
place is infinity.

A decimal `n · 10ᵉ` is made a floating point number by one multiplication of
`nearest n` and `nearest (10ᵉ)`.  It is thus the product of two rounded
numbers that has to stay below `bound`, and not the decimal itself: close to
the bound the two may differ.
-/
import BlockHooks.Decimal.Rounding

namespace BlockHooks

namespace Binary64

/-- The number of binary digits that are kept. -/
def precision : Nat := 53

/-- The weight of the last digit that is kept of `n`. -/
def lastPlace (n : Nat) : Nat := Nat.pow 2 (n.log2 + 1 - precision)

/-- `n` rounded to the digits that are kept, ties to the even last digit. -/
def nearest (n : Nat) : Nat := divHalfEven n (lastPlace n) * lastPlace n

/-- The least number that is rounded to infinity, half a last place above the
largest finite one. -/
def bound : Nat := Nat.pow 2 1024 - Nat.pow 2 970

/-- The largest power of ten below the bound. -/
def maxPower : Nat := 308

/-- Tells whether the decimal `n · 10ᵉ` becomes infinite. -/
def overflows (n e : Nat) : Bool :=
  n != 0 && (maxPower < e || bound ≤ nearest n * nearest (Nat.pow 10 e))

theorem lastPlace_pos (n : Nat) : 0 < lastPlace n := Nat.two_pow_pos _

/-- A number that has no more digits than are kept is not rounded. -/
theorem nearest_eq_self {n : Nat} (h : n.log2 < precision) : nearest n = n := by
  have hp : lastPlace n = 1 := congrArg (Nat.pow 2) (Nat.sub_eq_zero_of_le h)
  have hr := divHalfEven_mul_right n Nat.one_pos
  unfold nearest
  rw [hp]
  rw [Nat.mul_one] at hr ⊢
  exact hr

/-- The rounded number is at most half a last place above. -/
theorem two_mul_nearest_le (n : Nat) : 2 * nearest n ≤ 2 * n + lastPlace n :=
  two_mul_divHalfEven_mul_le n (lastPlace n)

/-- The rounded number is at most half a last place below. -/
theorem two_mul_le_nearest (n : Nat) : 2 * n ≤ 2 * nearest n + lastPlace n :=
  two_mul_le_divHalfEven_mul n (lastPlace_pos n)

end Binary64

end BlockHooks
