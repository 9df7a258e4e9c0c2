/-
BlockHooks/Deposit/Params.lean

The parameters of the settlement and the yield they give.

The whole deposit earns a yearly rate between zero and one; a block earns
its share of a year.  Parameters are valid if the rate is not above one and
a year has blocks at all.  The yield of a block is the deposit times the
rate, divided by the blocks of a year; both steps round at the last digit.
-/
import BlockHooks.Codec
import BlockHooks.Decimal.Text

namespace BlockHooks

/-- The parameters of the settlement, whether or not they are valid. -/
structure Params where
  /-- The principal that earns yield, in whole units. -/
  trustDepositValue : UInt64
  /-- The yearly rate. -/
  yieldRate : Dec
  blocksPerYear : UInt64
  deriving DecidableEq

/-- Why parameters are not valid. -/
inductive ParamsError where
  | rateAboveOne (rate : Dec)
  | zeroBlocksPerYear
  deriving DecidableEq

/-- How it is told why parameters are not valid. -/
def ParamsError.message : ParamsError → String
  | .rateAboveOne rate => s!"yield rate {rate} is above 1"
  | .zeroBlocksPerYear => "blocks per year must be greater than zero"

namespace Params

/-- The blocks of a year at five seconds each. -/
def defaultBlocksPerYear : UInt64 := 6311520

/-- No deposit, no rate. -/
def default : Params := ⟨0, Dec.zero, defaultBlocksPerYear⟩

instance : Inhabited Params := ⟨default⟩

/-- The rate must not be above one, and a year must have blocks; the rate is
looked at first. -/
def validate (p : Params) : Except ParamsError Unit :=
  if Dec.one.raw < p.yieldRate.raw then .error (.rateAboveOne p.yieldRate)
  else if p.blocksPerYear = 0 then .error .zeroBlocksPerYear
  else .ok ()

theorem validate_eq_ok_iff (p : Params) :
    p.validate = .ok () ↔ p.yieldRate.raw ≤ Dec.one.raw ∧ p.blocksPerYear ≠ 0 := by
  unfold validate
  split
  next h => simp; omega
  next h =>
    split
    next h' => simp [h']
    next h' => simp [h']; omega

/-- What the deposit earns in one block. -/
def perBlockYield (p : Params) : Except DecimalError Dec := do
  let yearly ← (Dec.ofUnits p.trustDepositValue).mul p.yieldRate
  yearly.quoUnits p.blocksPerYear

instance : Codec Params where
  encode p := do
    let value ← Codec.encode p.trustDepositValue
    let rate ← Codec.encode p.yieldRate
    let blocks ← Codec.encode p.blocksPerYear
    return value ++ rate ++ blocks
  decodePart bs := do
    let (value, bs) ← Codec.decodePart bs
    let (rate, bs) ← Codec.decodePart bs
    let (blocks, bs) ← Codec.decodePart bs
    return (⟨value, rate, blocks⟩, bs)

/-- All fields with their names, the rate by its raw value. -/
def describe (p : Params) : String :=
  s!"Params \x7b trust_deposit_value: {p.trustDepositValue}, trust_deposit_yield_rate: "
    ++ s!"Dec({p.yieldRate.raw}), blocks_per_year: {p.blocksPerYear} \x7d"

end Params

end BlockHooks
