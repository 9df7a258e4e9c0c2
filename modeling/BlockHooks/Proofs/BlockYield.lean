/-
BlockHooks/Proofs/BlockYield.lean

The yield of a block is rounded once.

The yield is computed in two steps, and both round at the last digit.  For
valid parameters the first of them has nothing to round: the principal is a
whole number of units, so that its product with the rate has no more than
eighteen fractional digits, and it is not above the principal
(`Params.yearlyYield_of_valid`).  What a block earns is therefore the exact
quotient (`Params.exactYield`) rounded half to even.

It is off by half a unit of 10⁻¹⁸ at most, in either direction.  A row of
settlements under the same parameters earns the same in every block
(`earned_of_params`) and loses nothing of it, so that after `n` of them what
is left and what was moved are off by `n / 2` units at most
(`Params.perBlockYield_rounded_once`).
-/
import BlockHooks.Proofs.Deferral
import BlockHooks.Proofs.Halting
import BlockHooks.Proofs.NearestEven

namespace BlockHooks

/-- Errors of at most half a unit add up. -/
theorem NearestEven.abs_mul_sub_le {x : ℚ} {r : ℤ} (h : NearestEven x r) (n : ℕ) :
    |(n : ℚ) * r - n * x| ≤ n / 2 := by
  have hn : (0 : ℚ) ≤ n := n.cast_nonneg
  have hnear := (nearestEven_iff.1 h).1
  calc |(n : ℚ) * r - n * x| = n * |x - r| := by
        rw [← mul_sub, abs_mul, abs_of_nonneg hn, abs_sub_comm]
    _ ≤ n * (1 / 2) := mul_le_mul_of_nonneg_left hnear hn
    _ = n / 2 := by ring

namespace Params

variable {p : Params}

/-- The principal times the yearly rate over the blocks of a year, in units
of 10⁻¹⁸. -/
def exactYield (p : Params) : ℚ :=
  p.trustDepositValue.toNat * p.yieldRate.raw / p.blocksPerYear.toNat

theorem nearestEven_rawYield (h : p.validate = .ok ()) : NearestEven p.exactYield p.rawYield := by
  rw [exactYield, ← Nat.cast_mul]
  exact nearestEven_divHalfEven _ (blocksPerYear_pos h)

theorem rawYield_le (h : p.validate = .ok ()) :
    p.rawYield ≤ p.trustDepositValue.toNat * p.yieldRate.raw :=
  divHalfEven_le _ (blocksPerYear_pos h)

end Params

/-! ### Rows of settlements -/

variable {d : Deposit} {p : Params} {y : Dec}

theorem SettledBlock.perBlockYield_of_params {b : SettledBlock d} (hp : b.before.params = .ok p)
    (hy : p.perBlockYield = .ok y) : b.report.perBlockYield = y := by
  obtain ⟨p', -, -, -, hp', hearned, -⟩ := Deposit.settle_ok_inv b.settled
  rw [hp, Except.ok.injEq] at hp'
  subst hp'
  exact Except.ok.inj (hearned.symm.trans hy)

/-- Under the same parameters every block earns the same. -/
theorem earned_of_params {row : List (SettledBlock d)} (hp : ∀ b ∈ row, b.before.params = .ok p)
    (hy : p.perBlockYield = .ok y) : earned row = row.length * y.value := by
  induction row with
  | nil => simp [earned]
  | cons b row ih =>
    obtain ⟨hfirst, hrest⟩ := List.forall_mem_cons.1 hp
    have hrow := ih hrest
    rw [earned] at hrow ⊢
    rw [List.map_cons, List.sum_cons, hrow, b.perBlockYield_of_params hfirst hy,
      List.length_cons, Nat.cast_add, Nat.cast_one]
    ring

/-- What a row of settlements under the same parameters has left and moved
beyond the dust at its start, in units of 10⁻¹⁸. -/
theorem InARow.accrued_of_params {start : Dec} {row : List (SettledBlock d)}
    {last : SettledBlock d} (h : InARow (.ok start) (row ++ [last]))
    (hp : ∀ b ∈ row ++ [last], b.before.params = .ok p) (hy : p.perBlockYield = .ok y) :
    (last.report.dust.raw : ℚ) + 10 ^ 18 * transferred (row ++ [last]) - start.raw
      = (row ++ [last]).length * y.raw := by
  have hsum := h.conserves
  rw [earned_of_params hp hy] at hsum
  rw [Dec.raw_eq, Dec.raw_eq start, Dec.raw_eq y]
  linear_combination 10 ^ 18 * hsum

/-- **The yield of a block is rounded once.**  Valid parameters always give a
yield, whatever the principal: the product of principal and rate is exact,
and what a block earns is the exact quotient rounded half to even, which is
not above that product.  The yield of `n` blocks is off by `n / 2` units of
10⁻¹⁸ at most; and so is what `n` settlements in a row under these parameters
have added to the dust that the first one found, transfers included. -/
theorem Params.perBlockYield_rounded_once (p : Params) (h : p.validate = .ok ()) :
    ∃ y : Dec, p.perBlockYield = .ok y ∧ NearestEven p.exactYield y.raw ∧
      (∃ yearly, (Dec.ofUnits p.trustDepositValue).mul p.yieldRate = .ok yearly ∧
        yearly.raw = p.trustDepositValue.toNat * p.yieldRate.raw) ∧
      y.raw ≤ p.trustDepositValue.toNat * p.yieldRate.raw ∧
      (∀ n : ℕ, |(n : ℚ) * y.raw - n * p.exactYield| ≤ n / 2) ∧
      ∀ (d : Deposit) (start : Dec) (row : List (SettledBlock d)) (last : SettledBlock d),
        InARow (.ok start) (row ++ [last]) →
        (∀ b ∈ row ++ [last], b.before.params = .ok p) →
        |(last.report.dust.raw : ℚ) + 10 ^ 18 * transferred (row ++ [last]) - start.raw
          - (row ++ [last]).length * p.exactYield| ≤ ((row ++ [last]).length : ℚ) / 2 := by
  obtain ⟨y, hy, hraw⟩ := perBlockYield_of_valid h
  have hnearest : NearestEven p.exactYield y.raw := by
    rw [hraw]
    exact nearestEven_rawYield h
  have hdrift : ∀ n : ℕ, |(n : ℚ) * y.raw - n * p.exactYield| ≤ n / 2 := fun n => by
    have hsum := hnearest.abs_mul_sub_le n
    rwa [Int.cast_natCast] at hsum
  have hle : y.raw ≤ p.trustDepositValue.toNat * p.yieldRate.raw := by
    rw [hraw]
    exact rawYield_le h
  refine ⟨y, hy, hnearest, yearlyYield_of_valid h, hle, hdrift, ?_⟩
  intro d start row last hrow hp
  -- nothing is lost from one settlement to the next, so the row is off as its blocks are
  rw [hrow.accrued_of_params hp hy]
  exact hdrift _

namespace Scenario

/-! ### Two blocks that lose a half each -/

/-- The largest principal at the largest rate below one; a year has two
blocks, and what they earn together is odd. -/
def halved : Params := ⟨18446744073709551615, ⟨999999999999999999, by decide⟩, 2⟩

/-- Half a unit of 10⁻¹⁸ less than a block earns. -/
def halvedYield : Dec := ⟨9223372036854775798276627963145224192, by decide⟩

/-- These parameters and the given dust are in the store, and nothing is in
the bank. -/
def halvedLedger (dust : Dec) : Ledger :=
  ((do Deposit.setParams halved; Deposit.setDust dust : Action Ledger DepositError Unit).run
    Ledger.empty).2

/-- The first block of the year: its yield is left as dust, the pool being empty. -/
def firstHalf : SettledBlock deposit :=
  settledBlock ⟨1, 1700000005⟩ (halvedLedger Dec.zero)
    ⟨1, halvedYield, .deferred 9223372036854775798 0, halvedYield, 0⟩
    (by decide +kernel)

/-- The second one, with the dust of the first. -/
def secondHalf : SettledBlock deposit :=
  settledBlock ⟨2, 1700000010⟩ (halvedLedger halvedYield)
    ⟨2, halvedYield, .deferred 18446744073709551596 0,
      ⟨18446744073709551596553255926290448384, by decide⟩, 0⟩
    (by decide +kernel)

end Scenario

open Scenario in
/-- The two blocks are off by one unit of 10⁻¹⁸, as much as two blocks can be. -/
theorem Params.perBlockYield_rounded_once_halved :
    halved.validate = .ok () ∧ halved.perBlockYield = .ok halvedYield ∧
      NearestEven halved.exactYield halvedYield.raw ∧
      InARow (.ok Dec.zero) [firstHalf, secondHalf] ∧
      (∀ b ∈ [firstHalf, secondHalf], b.before.params = .ok halved) ∧
      |(secondHalf.report.dust.raw : ℚ) + 10 ^ 18 * transferred [firstHalf, secondHalf]
        - Dec.zero.raw - 2 * halved.exactYield| ≤ 2 / 2 ∧
      secondHalf.report.dust.raw + 1
        = halved.trustDepositValue.toNat * halved.yieldRate.raw := by
  have hvalid : halved.validate = .ok () := by
    decide
  have hyield : halved.perBlockYield = .ok halvedYield := by
    decide +kernel
  have hrow : InARow (.ok Dec.zero) [firstHalf, secondHalf] :=
    ⟨by decide +kernel, by decide +kernel, trivial⟩
  have hparams : ∀ b ∈ [firstHalf, secondHalf], b.before.params = .ok halved := by
    decide +kernel
  obtain ⟨y, hy, hnearest, -, -, -, hdrift⟩ :=
    Params.perBlockYield_rounded_once halved hvalid
  rw [hyield, Except.ok.injEq] at hy
  subst hy
  exact ⟨hvalid, hyield, hnearest, hrow, hparams,
    hdrift deposit Dec.zero [firstHalf] secondHalf hrow hparams, by decide⟩

end BlockHooks
