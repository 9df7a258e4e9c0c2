/-
BlockHooks/Decimal/Rounding.lean

Quotients of natural numbers rounded to the nearest whole number, a tie
going to the even neighbour.  `divHalfEven n d` is the rounded value of
`n / d`; the operands are unbounded, so nothing is lost before the one
rounding at the end.

The rounded value lies at most half a unit from the quotient, on either side
(`two_mul_divHalfEven_mul_le`, `two_mul_le_divHalfEven_mul`).  Where it lies
exactly half a unit away it is even (`divHalfEven_even_of_tie`).
-/

namespace BlockHooks

/-- `n / d` rounded to the nearest whole number, ties to the even one. -/
def divHalfEven (n d : Nat) : Nat :=
  let q := n / d
  let twice := 2 * (n % d)
  if d < twice ∨ (twice = d ∧ q % 2 = 1) then q + 1 else q

theorem divHalfEven_eq_div_or (n d : Nat) :
    divHalfEven n d = n / d ∨ divHalfEven n d = n / d + 1 := by
  unfold divHalfEven
  dsimp only
  split
  · exact Or.inr rfl
  · exact Or.inl rfl

/-- An exact quotient is not rounded. -/
theorem divHalfEven_mul_right (a : Nat) {d : Nat} (hd : 0 < d) :
    divHalfEven (a * d) d = a := by
  unfold divHalfEven
  dsimp only
  rw [Nat.mul_div_cancel a hd, Nat.mul_mod_left]
  exact if_neg (by omega)

/-- The rounded value is at most half a unit above the quotient. -/
theorem two_mul_divHalfEven_mul_le (n d : Nat) : 2 * (divHalfEven n d * d) ≤ 2 * n + d := by
  have hn := Nat.div_add_mod' n d
  unfold divHalfEven
  dsimp only
  split
  next h =>
    rw [Nat.add_mul]
    omega
  next h => omega

/-- The rounded value is at most half a unit below the quotient. -/
theorem two_mul_le_divHalfEven_mul (n : Nat) {d : Nat} (hd : 0 < d) :
    2 * n ≤ 2 * (divHalfEven n d * d) + d := by
  have hn := Nat.div_add_mod' n d
  have hr := Nat.mod_lt n hd
  unfold divHalfEven
  dsimp only
  split
  next h =>
    rw [Nat.add_mul]
    omega
  next h => omega

/-- Rounding does not lead above the dividend. -/
theorem divHalfEven_le (n : Nat) {d : Nat} (hd : 0 < d) : divHalfEven n d ≤ n := by
  refine Nat.not_lt.1 fun hlarge => ?_
  have hnear := two_mul_divHalfEven_mul_le n d
  have hproduct : (n + 1) * d ≤ divHalfEven n d * d := Nat.mul_le_mul_right d hlarge
  have hn : n ≤ n * d := Nat.le_mul_of_pos_right n hd
  rw [Nat.add_mul] at hproduct
  omega

/-- A quotient that lies half way between two whole numbers goes to the even one. -/
theorem divHalfEven_even_of_tie {n d : Nat} (hd : 0 < d)
    (h : 2 * n = 2 * (divHalfEven n d * d) + d ∨ 2 * (divHalfEven n d * d) = 2 * n + d) :
    divHalfEven n d % 2 = 0 := by
  have hn := Nat.div_add_mod' n d
  have hr := Nat.mod_lt n hd
  revert h
  unfold divHalfEven
  dsimp only
  split
  next h' =>
    rw [Nat.add_mul]
    omega
  next h' => omega

end BlockHooks
