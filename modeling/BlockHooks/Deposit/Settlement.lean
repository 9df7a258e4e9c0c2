/-
BlockHooks/Deposit/Settlement.lean

The settlement at the beginning of a block.

Step one adds the block's yield to the dust.  Less than a whole unit stays
there.  Otherwise all whole units are due: if the yield pool holds them they
move to the deposit pool and only the fraction stays; if it does not,
nothing moves and everything owed stays, to be paid by a later block.

Step two returns what is left in the yield pool to the community pool.

The dust is written only after the transfer was made or was deliberately
left out.
-/
import BlockHooks.Context
import BlockHooks.Deposit.State

namespace BlockHooks

/-- What became of the accrued yield. -/
inductive YieldTransfer where
  /-- It is less than one unit. -/
  | accrued
  | transferred (amount : UInt64)
  /-- The yield pool holds less than is owed. -/
  | deferred (owed available : UInt64)
  deriving DecidableEq, Repr

/-- What step one did. -/
structure Accrual where
  perBlockYield : Dec
  transfer : YieldTransfer
  /-- The dust as it was written. -/
  dust : Dec
  deriving DecidableEq

/-- What both steps of a settlement did. -/
structure SettlementReport where
  height : UInt64
  perBlockYield : Dec
  transfer : YieldTransfer
  dust : Dec
  /-- What went to the community pool. -/
  swept : UInt64
  deriving DecidableEq

namespace SettlementReport

/-- The whole units that went from the yield pool to the deposit pool. -/
def transferred (r : SettlementReport) : UInt64 :=
  match r.transfer with
  | .transferred amount => amount
  | .accrued | .deferred _ _ => 0

/-- Tells whether units were due that the yield pool did not hold. -/
def isDeferred (r : SettlementReport) : Bool :=
  match r.transfer with
  | .deferred _ _ => true
  | .accrued | .transferred _ => false

end SettlementReport

namespace Deposit

variable {σ : Type} [KvStore σ] [Bank σ] [LogSink σ]

/-- Pays `amount` whole units out of `total` owed, or defers it. -/
def payYield (d : Deposit) (block : BlockContext) (total : Dec) :
    Action σ DepositError (YieldTransfer × Dec) := do
  let amount ← (Action.ofExcept total.wholeUnits).mapError .math
  let available ← (Bank.balance d.pools.yield.address).mapError .bank
  if available < amount then
    setDust total
    log .warn (s!"trust deposit: height {block.height} yield pool balance {available} "
      ++ s!"cannot cover {amount}, deferring (dust {total})")
    return (.deferred amount available, total)
  else
    (Bank.send d.pools.yield.address d.pools.deposit.address amount).mapError .bank
    setDust total.fraction
    log .info (s!"trust deposit: height {block.height} transferred {amount} from "
      ++ s!"{d.pools.yield.name} to {d.pools.deposit.name}, dust now {total.fraction}")
    return (.transferred amount, total.fraction)

/-- Step one: accrues the yield of a block and pays the whole units. -/
def accrue (d : Deposit) (block : BlockContext) : Action σ DepositError Accrual := do
  let p ← params
  let earned ← (Action.ofExcept p.perBlockYield).mapError .math
  let total ← (Action.ofExcept ((← dust).add earned)).mapError .math
  if total.raw < Dec.one.raw then
    setDust total
    log .debug
      s!"trust deposit: height {block.height} accrued {earned}, dust now {total}"
    return ⟨earned, .accrued, total⟩
  else
    let (transfer, rest) ← d.payYield block total
    return ⟨earned, transfer, rest⟩

/-- Step two: returns what the yield pool holds to the community pool. -/
def sweep (d : Deposit) (block : BlockContext) : Action σ DepositError UInt64 := do
  let excess ← (Bank.balance d.pools.yield.address).mapError .bank
  if excess = 0 then return 0
  else
    (Bank.send d.pools.yield.address d.pools.community.address excess).mapError .bank
    log .info (s!"trust deposit: height {block.height} returned {excess} from "
      ++ s!"{d.pools.yield.name} to {d.pools.community.name}")
    return excess

/-- Settles a block: step one, then step two. -/
def settle (d : Deposit) (block : BlockContext) : Action σ DepositError SettlementReport := do
  let accrual ← d.accrue block
  let swept ← d.sweep block
  return ⟨block.height, accrual.perBlockYield, accrual.transfer, accrual.dust, swept⟩

end Deposit

end BlockHooks
