/-
BlockHooks/Deposit/Genesis.lean

The deposit's share of a genesis: the parameters and the dust.
-/
import BlockHooks.Deposit.State

namespace BlockHooks

/-- What the deposit keeps in the store, as one value. -/
structure DepositGenesis where
  params : Params
  dust : Dec
  deriving DecidableEq

/-- The default parameters and no dust. -/
def DepositGenesis.default : DepositGenesis := ⟨.default, Dec.zero⟩

instance : Inhabited DepositGenesis := ⟨.default⟩

/-- The parameters must be valid; the dust may be any. -/
def DepositGenesis.validate (g : DepositGenesis) : Except DepositError Unit :=
  g.params.validate.mapError .invalidParams

namespace Deposit

variable {σ : Type} [KvStore σ]

/-- Writes a valid genesis into the store. -/
def initGenesis (g : DepositGenesis) : Action σ DepositError Unit := do
  Action.ofExcept g.validate
  setParams g.params
  setDust g.dust

/-- What the store holds, as a genesis; there must be parameters. -/
def exportGenesis : Action σ DepositError DepositGenesis := do
  let p ← params
  return ⟨p, ← dust⟩

end Deposit

end BlockHooks
