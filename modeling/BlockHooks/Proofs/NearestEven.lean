/-
BlockHooks/Proofs/NearestEven.lean

Products and quotients are correctly rounded.

`NearestEven x r` says what rounding half to even is, without saying how it
is done: no whole number is nearer to `x` than `r`, and where another one is
as near, `r` is even.  That is so exactly if `r` is at most half a unit away,
and even at half a unit (`nearestEven_iff`).  So there is only one such
number (`NearestEven.unique`), and rounding the quotient of natural numbers
finds it (`nearestEven_divHalfEven`).

An operation on decimals forms its exact value `x`, rounds it once, and only
then asks whether the result fits (`Dec.Rounds`).  This holds of the product,
the quotients and the ratio over the whole range of their operands
(`Dec.correctly_rounded`); a quotient can also fail because there is nothing
to divide by, but for no other reason.
-/
import Mathlib
import BlockHooks.Decimal.Basic

namespace BlockHooks

/-! ### The nearest whole number -/

/-- No whole number is nearer to `x` than `r`, and where another one is as
near, `r` is even. -/
structure NearestEven (x : ℚ) (r : ℤ) : Prop where
  nearest : ∀ m : ℤ, |x - r| ≤ |x - m|
  even_of_tie : ∀ m : ℤ, m ≠ r → |x - m| = |x - r| → Even r

/-- On the other side of `x` there is a whole number one unit away from `r`. -/
theorem exists_neighbour (x : ℚ) (r : ℤ) : ∃ m : ℤ, m ≠ r ∧ |x - m| = abs (|x - r| - 1) := by
  rcases le_total (r : ℚ) x with h | h
  · refine ⟨r + 1, by omega, ?_⟩
    rw [abs_of_nonneg (sub_nonneg.2 h), Int.cast_add, Int.cast_one, sub_add_eq_sub_sub]
  · refine ⟨r - 1, by omega, ?_⟩
    rw [abs_sub_comm x r, abs_of_nonneg (sub_nonneg.2 h), abs_sub_comm x, Int.cast_sub,
      Int.cast_one, sub_right_comm]

/-- Two whole numbers are at least one unit apart, whichever way leads over `x`. -/
theorem one_le_abs_sub_add {m r : ℤ} (h : m ≠ r) (x : ℚ) : 1 ≤ |x - m| + |x - r| := by
  have hapart : (1 : ℚ) ≤ |(m : ℚ) - r| := by
    exact_mod_cast Int.one_le_abs (sub_ne_zero.2 h)
  calc (1 : ℚ) ≤ |(m : ℚ) - r| := hapart
    _ ≤ |(m : ℚ) - x| + |x - r| := abs_sub_le _ _ _
    _ = |x - m| + |x - r| := by rw [abs_sub_comm (m : ℚ) x]

/-- What is nearest is at most half a unit away, and what is half a unit away
is one of two. -/
theorem nearestEven_iff {x : ℚ} {r : ℤ} :
    NearestEven x r ↔ |x - r| ≤ 1 / 2 ∧ (|x - r| = 1 / 2 → Even r) := by
  constructor
  · intro h
    obtain ⟨m, hm, hdist⟩ := exists_neighbour x r
    have hnear : |x - r| ≤ 1 / 2 := by
      have hle := h.nearest m
      rw [hdist] at hle
      rcases abs_cases (|x - r| - 1) with ⟨he, -⟩ | ⟨he, -⟩ <;> linarith
    refine ⟨hnear, fun htie => h.even_of_tie m hm ?_⟩
    rw [hdist, htie]
    norm_num
  · rintro ⟨hnear, heven⟩
    constructor
    · intro m
      rcases eq_or_ne m r with rfl | hm
      · exact le_rfl
      · linarith [one_le_abs_sub_add hm x]
    · intro m hm htie
      exact heven (by linarith [one_le_abs_sub_add hm x])

theorem NearestEven.unique {x : ℚ} {r r' : ℤ} (h : NearestEven x r) (h' : NearestEven x r') :
    r = r' := by
  by_contra hne
  obtain ⟨hnear, heven⟩ := nearestEven_iff.1 h
  obtain ⟨hnear', heven'⟩ := nearestEven_iff.1 h'
  -- both are half a unit away, so that they are neighbours and both even
  have hapart := one_le_abs_sub_add hne x
  have hclose : |r - r'| ≤ 1 := by
    have htriangle := abs_sub_le (r : ℚ) x r'
    rw [abs_sub_comm (r : ℚ) x] at htriangle
    have hcast : |(r : ℚ) - r'| ≤ 1 := by linarith
    exact_mod_cast hcast
  have hr : Even r := heven (by linarith)
  have hr' : Even r' := heven' (by linarith)
  rw [Int.even_iff] at hr hr'
  rw [abs_le] at hclose
  omega

/-- Rounding a quotient of natural numbers finds the nearest whole number. -/
theorem nearestEven_divHalfEven (n : ℕ) {d : ℕ} (hd : 0 < d) :
    NearestEven ((n : ℚ) / d) (divHalfEven n d) := by
  have hpos : (0 : ℚ) < 2 * d := by exact_mod_cast Nat.mul_pos two_pos hd
  have habove : 2 * ((divHalfEven n d : ℚ) * d) ≤ 2 * n + d := by
    exact_mod_cast two_mul_divHalfEven_mul_le n d
  have hbelow : 2 * (n : ℚ) ≤ 2 * (divHalfEven n d * d) + d := by
    exact_mod_cast two_mul_le_divHalfEven_mul n hd
  -- in halves of `d` the distance is one of whole numbers
  have hscaled : |(n : ℚ) / d - divHalfEven n d| * (2 * d)
      = |2 * n - 2 * ((divHalfEven n d : ℚ) * d)| := by
    rw [← abs_of_pos hpos, ← abs_mul]
    congr 1
    field_simp
  rw [nearestEven_iff, Int.cast_natCast]
  refine ⟨le_of_mul_le_mul_right ?_ hpos, fun htie => ?_⟩
  · rw [hscaled, abs_le]
    constructor <;> linarith
  · rw [htie, one_div_mul_eq_div, mul_div_cancel_left₀ _ two_ne_zero] at hscaled
    -- half a unit above or below, the quotient is the even one
    have hparity : divHalfEven n d % 2 = 0 := by
      apply divHalfEven_even_of_tie hd
      rcases eq_or_eq_neg_of_abs_eq hscaled.symm with he | he
      · left
        exact_mod_cast (by linarith : 2 * (n : ℚ) = 2 * (divHalfEven n d * d) + d)
      · right
        exact_mod_cast (by linarith : 2 * ((divHalfEven n d : ℚ) * d) = 2 * n + d)
    rw [Int.even_iff]
    omega

/-! ### Decimals -/

namespace Dec

/-- The result of an operation whose exact value is `x`, in units of 10⁻¹⁸:
the nearest decimal, or an overflow if the nearest whole number of units does
not fit. -/
structure Rounds (x : ℚ) (result : Except DecimalError Dec) : Prop where
  ok_iff : ∀ d : Dec, result = .ok d ↔ NearestEven x d.raw
  error_iff : ∀ e, result = .error e ↔
    e = .overflow ∧ ∃ r : ℤ, NearestEven x r ∧ 2 ^ 128 ≤ r

/-- The result of dividing `n` by `d`, in units of 10⁻¹⁸. -/
structure Divides (n d : ℕ) (result : Except DecimalError Dec) : Prop where
  divisionByZero_iff : result = .error .divisionByZero ↔ d = 0
  rounds : d ≠ 0 → Rounds ((n : ℚ) / d) result

theorem rounds_ofRaw? (n : ℕ) {d : ℕ} (hd : 0 < d) :
    Rounds ((n : ℚ) / d) (ofRaw? (divHalfEven n d)) := by
  have hnearest := nearestEven_divHalfEven n hd
  constructor
  · intro a
    rw [ofRaw?_eq_ok_iff]
    constructor
    · intro h
      rw [h]
      exact hnearest
    · intro h
      exact_mod_cast h.unique hnearest
  · intro e
    rw [ofRaw?_eq_error_iff, bound_eq, and_comm]
    refine and_congr_right fun _ => ⟨fun h => ⟨_, hnearest, by exact_mod_cast h⟩, ?_⟩
    rintro ⟨r, hr, h⟩
    rw [hr.unique hnearest] at h
    exact_mod_cast h

/-- Dividing by zero is refused, and any other division is rounded. -/
theorem divides_ite (n d : ℕ) :
    Divides n d (if d = 0 then .error .divisionByZero else ofRaw? (divHalfEven n d)) := by
  by_cases hd : d = 0
  · rw [if_pos hd]
    exact ⟨by simp [hd], fun h => absurd hd h⟩
  · rw [if_neg hd]
    have hrounds := rounds_ofRaw? n (Nat.pos_of_ne_zero hd)
    refine ⟨?_, fun _ => hrounds⟩
    rw [hrounds.error_iff]
    simp [hd]

theorem divides_mul (a b : Dec) : Divides (a.raw * b.raw) scale (a.mul b) :=
  divides_ite _ _

theorem divides_quo (a b : Dec) : Divides (a.raw * scale) b.raw (a.quo b) :=
  divides_ite _ _

theorem divides_quoUnits (a : Dec) (n : UInt64) : Divides a.raw n.toNat (a.quoUnits n) := by
  have hzero : (n = 0) = (n.toNat = 0) := propext UInt64.toNat_inj.symm
  rw [quoUnits]
  simp only [hzero]
  exact divides_ite _ _

theorem divides_ofRatio (n d : UInt64) : Divides (n.toNat * scale) d.toNat (ofRatio n d) :=
  divides_quoUnits (ofUnits n) d

/-- A quotient by a whole number is not above its dividend. -/
theorem quoUnits_ne_overflow (a : Dec) (n : UInt64) : a.quoUnits n ≠ .error .overflow := by
  intro h
  rw [quoUnits] at h
  split at h
  · cases h
  next hn =>
    have hpos : 0 < n.toNat := UInt64.lt_iff_toNat_lt.1 (UInt64.pos_iff_ne_zero.2 hn)
    have hlarge := (ofRaw?_eq_error_iff.1 h).1
    exact absurd a.raw_lt (Nat.not_lt.2 (hlarge.trans (divHalfEven_le a.raw hpos)))

/-- **Products and quotients are correctly rounded.**  Over the whole range
of operands the result is the exact value rounded once to the nearest unit of
10⁻¹⁸, a tie going to the even one.  It overflows exactly if that rounded
value is 2¹²⁸ units or more, and it is a division by zero exactly if the
divisor is zero.  The ratio of two words never overflows. -/
theorem correctly_rounded (a b : Dec) (n d : UInt64) :
    Divides (a.raw * b.raw) (10 ^ 18) (a.mul b) ∧
    Divides (a.raw * 10 ^ 18) b.raw (a.quo b) ∧
    Divides a.raw n.toNat (a.quoUnits n) ∧
    Divides (n.toNat * 10 ^ 18) d.toNat (ofRatio n d) ∧
    ofRatio n d ≠ .error .overflow := by
  have hscale : (10 ^ 18 : ℕ) = scale := by decide
  rw [hscale]
  exact ⟨divides_mul a b, divides_quo a b, divides_quoUnits a n, divides_ofRatio n d,
    quoUnits_ne_overflow (ofUnits n) d⟩

/-- The exact product lies half a unit below the bound, and only its rounding
is too large. -/
example : (⟨97223533405982418132392744980505203273, by decide⟩ : Dec).mul
    ⟨3500000000000000000, by decide⟩ = .error .overflow := by
  decide

end Dec

end BlockHooks
